import Ghpulse.Web.PointEvents

/-!
# Stacked data

What holds of all data that a chart is drawn from, however its bins came about: they tile the range, no
value is negative, a bin adds up its values, and a line adds up the bins.

Reference: `src/dashboard-charts.jsx`.
-/

open Python Js

namespace Ghpulse.Web

variable {js : Runtime} {series : List Series} {axis : Axis} {bins : List Bin} {key : Str}

/-! ## Lines

A line has one point more than there are bins. The lemmas start from any value, for the induction.
-/

/-- The points of a line are at the ends of the bins. -/
theorem map_ts_pointsFrom (key : Str) (value : ℚ) (binIdx : ℤ) (bins : List Bin) :
    (pointsFrom key value binIdx bins).map Point.ts = bins.map Bin.stop := by
  induction bins generalizing value binIdx with
  | nil => rfl
  | cons bin bins ih =>
    rw [pointsFrom, List.map_cons, List.map_cons, ih]

/-- A point adds up the bins so far. -/
theorem getElem?_pointsFrom (key : Str) (value : ℚ) (binIdx : ℤ) (bins : List Bin) (i : ℕ) :
    (pointsFrom key value binIdx bins)[i]? = bins[i]?.map fun bin =>
      ⟨bin.stop, value + ((bins.take (i + 1)).map fun bin => bin.values key).sum, binIdx + i⟩ := by
  induction bins generalizing value binIdx i with
  | nil => rfl
  | cons bin bins ih =>
    rw [pointsFrom]
    cases i with
    | zero => simp
    | succ i =>
      rw [List.getElem?_cons_succ, List.getElem?_cons_succ, ih, List.take_succ_cons, List.map_cons,
        List.sum_cons]
      congr 1
      funext bin'
      rw [add_assoc, Nat.cast_succ, add_assoc, add_comm (i : ℤ) 1]

/-- Without negative values a line does not fall. -/
theorem pairwise_pointsFrom (hnonneg : ∀ bin ∈ bins, 0 ≤ bin.values key) (value : ℚ) (binIdx : ℤ) :
    (value :: (pointsFrom key value binIdx bins).map Point.v).Pairwise (· ≤ ·) := by
  induction bins generalizing value binIdx with
  | nil => exact List.pairwise_singleton _ _
  | cons bin bins ih =>
    obtain ⟨hbin, hbins⟩ := List.forall_mem_cons.mp hnonneg
    have hrest := ih hbins (value + bin.values key) (binIdx + 1)
    rw [pointsFrom, List.map_cons]
    refine List.pairwise_cons.mpr ⟨fun v hv => ?_, hrest⟩
    have hle : value ≤ value + bin.values key := le_add_of_nonneg_right hbin
    rcases List.mem_cons.mp hv with rfl | hv
    · exact hle
    · exact hle.trans ((List.pairwise_cons.mp hrest).1 v hv)

theorem pairwise_cumulativePoints (axis : Axis) (hnonneg : ∀ bin ∈ bins, 0 ≤ bin.values key) :
    ((cumulativePoints axis bins key).map Point.v).Pairwise (· ≤ ·) := by
  rw [cumulativePoints, List.map_cons]
  exact pairwise_pointsFrom hnonneg 0 0

/-! ## Every output

Two ways lead to the bins, through point events and through dense rows. From here on it does not matter
which was taken.
-/

/-- The bins of a chart. -/
structure Stacks (series : List Series) (start stop : ℚ) (bins : List Bin) : Prop where
  /-- They tile the range. -/
  tiles : Tiling.Tiles start stop (bins.map Bin.interval)
  /-- No value is negative. -/
  nonneg : ∀ bin ∈ bins, ∀ key, 0 ≤ bin.values key
  /-- A bin adds up its values. -/
  total : ∀ bin ∈ bins, bin.total = (series.map fun item => bin.values item.key).sum

theorem recordedAmount_nonneg (js : Runtime) (series : List Series) (event : Value) (key : Str) :
    0 ≤ recordedAmount js series event key := by
  unfold recordedAmount
  split_ifs
  · exact amountOf_nonneg js event key
  · exact le_rfl

theorem recordedSum_nonneg (js : Runtime) (series : List Series) (events : List Value) (start stop : ℚ)
    (key : Str) : 0 ≤ recordedSum js series events start stop key := by
  apply List.sum_nonneg
  intro q hq
  obtain ⟨event, -, rfl⟩ := List.mem_map.mp hq
  split_ifs
  · exact recordedAmount_nonneg js series event key
  · exact le_rfl

/-- The bins of point events. -/
theorem stacks_eventBin (js : Runtime) (series : List Series) (axis : Axis) (events : List Value) :
    Stacks series axis.start axis.stop ((boundedTimeIntervals axis).map (eventBin js series events)) := by
  have hbin {bin : Bin} (h : bin ∈ (boundedTimeIntervals axis).map (eventBin js series events)) :
      ∃ p, eventBin js series events p = bin := by
    obtain ⟨p, -, hp⟩ := List.mem_map.mp h
    exact ⟨p, hp⟩
  refine ⟨?_, fun bin h key => ?_, fun bin h => ?_⟩
  · have hends : ((boundedTimeIntervals axis).map (eventBin js series events)).map Bin.interval =
        boundedTimeIntervals axis := by
      rw [List.map_map]
      exact List.map_id _
    rw [hends]
    exact tiles_boundedTimeIntervals axis
  · obtain ⟨p, rfl⟩ := hbin h
    exact recordedSum_nonneg js series events p.1 p.2 key
  · obtain ⟨p, rfl⟩ := hbin h
    rfl

theorem valuesOf_nonneg {keys : List Str} {amounts : List ℚ} (h : ∀ q ∈ amounts, 0 ≤ q) (key : Str) :
    0 ≤ valuesOf keys amounts key := by
  unfold valuesOf
  cases hlookup : (keys.zip amounts).lookup key with
  | none => exact le_rfl
  | some q =>
    obtain ⟨before, after, hsplit, -⟩ := List.lookup_eq_some_iff.mp hlookup
    have hmem : (key, q) ∈ keys.zip amounts := by
      rw [hsplit]
      exact List.mem_append_right _ List.mem_cons_self
    exact h q (List.of_mem_zip hmem).2

/-- The bins of dense rows. -/
theorem stacks_rowBin {rows : List Value} (hne : rows ≠ [])
    (h : normalizedDenseIntervals js rows series axis = .ok bins) :
    Stacks series axis.start axis.stop bins := by
  obtain ⟨hbins, htiles⟩ := (normalizedDenseIntervals_eq_ok hne).mp h
  have hrow {bin : Bin} (hbin : bin ∈ bins) :
      ∃ row, rowBin js (series.map Series.key) row = some bin := by
    have hsome : some bin ∈ rows.map (rowBin js (series.map Series.key)) := by
      rw [hbins]
      exact List.mem_map_of_mem hbin
    obtain ⟨row, -, hrow⟩ := List.mem_map.mp hsome
    exact ⟨row, hrow⟩
  refine ⟨htiles, fun bin hbin key => ?_, fun bin hbin => ?_⟩
  · obtain ⟨row, hrow⟩ := hrow hbin
    obtain ⟨-, amounts, hamounts, hvalues, -⟩ := rowBin_eq_some.mp hrow
    rw [hvalues]
    apply valuesOf_nonneg
    intro q hq
    obtain ⟨i, hi, rfl⟩ := List.getElem_of_mem hq
    have hread := (List.forall₂_iff_get.mp (mapM_eq_ok_iff.mp hamounts)).2
    have hlt : i < (series.map Series.key).length := by
      rw [(mapM_eq_ok_iff.mp hamounts).length_eq]
      exact hi
    exact eventAmount_nonneg le_rfl (hread i hlt hi)
  · obtain ⟨row, hrow⟩ := hrow hbin
    obtain ⟨-, amounts, -, -, htotal⟩ := rowBin_eq_some.mp hrow
    rw [htotal, List.map_map]
    rfl

/-- All data that a chart is drawn from. -/
theorem stacks_of_build {events : Value} {range : Range} {binMs : Number} {data : StackedData}
    (h : buildStackedTimeSeriesData js events series range binMs = .ok data) :
    ∃ axis, validateTimeSeriesInputs range binMs = .ok axis ∧ validateSeries series = .ok () ∧
      Stacks series axis.start axis.stop data.bins ∧ data = stacked axis data.bins := by
  have helements : buildStackedTimeSeriesData js (.array events.elements) series range binMs = .ok data := h
  obtain ⟨axis, haxis, h⟩ := bind_eq_ok.mp h
  obtain ⟨⟨⟩, hseries, -⟩ := bind_eq_ok.mp h
  refine ⟨axis, haxis, hseries, ?_⟩
  cases hdense : denseIntervalInput (.array events.elements) with
  | true =>
    obtain ⟨bins, hbins, rfl⟩ := (buildStackedTimeSeriesData_dense haxis hseries hdense).mp helements
    have hne : events.elements ≠ [] := by
      intro hnil
      rw [hnil] at hdense
      cases hdense
    exact ⟨stacks_rowBin hne hbins, rfl⟩
  | false =>
    obtain ⟨-, rfl⟩ := (buildStackedTimeSeriesData_points haxis hseries hdense).mp helements
    exact ⟨stacks_eventBin js series axis events.elements, rfl⟩

end Ghpulse.Web
