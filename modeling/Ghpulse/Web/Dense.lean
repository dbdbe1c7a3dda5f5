import Ghpulse.Web.Conservation

/-!
# Dense rows

Rows that bring their own intervals are accepted exactly when these tile the range, as long as their
amounts can be converted. Rows that sum up point events into the regular intervals give the same data as
the events, under the condition that the chart of the events loses nothing.

Reference: `src/dashboard-charts.jsx`.
-/

open Python Js

namespace Ghpulse.Web

/-! ## The statement

Acceptance is stated without reference to the loop that checks the rows, and agreement for any rows that
sum up the events, however they were computed.
-/

/-- Each row has an interval, and the intervals tile the range. -/
def Partitions (js : Runtime) (rows : List Value) (start stop : ℚ) : Prop :=
  ∃ intervals, List.Forall₂ (fun row p => rowInterval js row = some p) rows intervals ∧
    Tiling.Tiles start stop intervals

/-- A number, clamped to be non-negative; everything else counts as zero. -/
def clamped (js : Runtime) (value : Value) : ℚ :=
  match toNumber js value with
  | .finite q => max 0 q
  | _ => 0

/-- A bin is the interval of a row with its clamped values. -/
def IsBinOf (js : Runtime) (series : List Series) (row : Value) (bin : Bin) : Prop :=
  rowInterval js row = some bin.interval ∧
    ∀ item ∈ series, bin.values item.key = clamped js (row.get item.key)

/-- Dense rows are accepted when they partition the range, and refused otherwise; the bins are those of the
rows. -/
structure Accepted (js : Runtime) (rows : List Value) (series : List Series) (axis : Axis) : Prop where
  returns : (∃ data, buildStackedTimeSeriesData js (.array rows) series
    ⟨.finite axis.start, .finite axis.stop⟩ (.finite axis.binMs) = .ok data) ↔
      Partitions js rows axis.start axis.stop
  throws : ¬ Partitions js rows axis.start axis.stop →
    ∃ e : Thrown, buildStackedTimeSeriesData js (.array rows) series
      ⟨.finite axis.start, .finite axis.stop⟩ (.finite axis.binMs) = .error e
  bins : ∀ data, buildStackedTimeSeriesData js (.array rows) series
    ⟨.finite axis.start, .finite axis.stop⟩ (.finite axis.binMs) = .ok data →
      List.Forall₂ (IsBinOf js series) rows data.bins

/-- A row that sums up the events of an interval. -/
structure Sums (js : Runtime) (events : List Value) (series : List Series) (p : ℚ × ℚ) (row : Value) :
    Prop where
  owned : row.hasOwn (lit "start") = true ∧ row.hasOwn (lit "end") = true
  start : row.get (lit "start") = .number (.finite p.1)
  stop : row.get (lit "end") = .number (.finite p.2)
  values : ∀ item ∈ series, row.get item.key =
    .number (.finite ((events.filter fun event => decide (LiesWithin js p.1 p.2 event)).map fun event =>
      amountOf js event item.key).sum)

/-- Rows that sum up some events into the regular intervals. -/
def SumRows (js : Runtime) (events : List Value) (series : List Series) (axis : Axis)
    (rows : List Value) : Prop :=
  List.Forall₂ (Sums js events series) (boundedTimeIntervals axis) rows

/-- The rows that sum up some events give the same data as the events. -/
def AgreesWithPoints (js : Runtime) (events : List Value) (series : List Series) (axis : Axis) : Prop :=
  ∀ rows, SumRows js events series axis rows → ∃ data,
    buildStackedTimeSeriesData js (.array rows) series
      ⟨.finite axis.start, .finite axis.stop⟩ (.finite axis.binMs) = .ok data ∧
    buildStackedTimeSeriesData js (.array events) series
      ⟨.finite axis.start, .finite axis.stop⟩ (.finite axis.binMs) = .ok data

/-! ## Acceptance

The loop compares each row with the end of the one before. Rows that do not tile the range are refused;
rows that do are refused only where a value cannot be converted to a number.
-/

section

variable {js : Runtime} {rows events : List Value} {series : List Series} {axis : Axis}

theorem amountValue_eq_clamped {value : Value} (h : value.convertible = true) :
    eventAmount js value 0 = .ok (clamped js value) := by
  have hread (hread : eventAmount js value 0 = (do
      match ← number js value with
      | .finite q => return max 0 q
      | _ => return 0)) : eventAmount js value 0 = .ok (clamped js value) := by
    rw [hread, number_eq h, clamped]
    cases toNumber js value <;> rfl
  cases value with
  | undefined | null => rfl
  | string s =>
    cases s with
    | nil => rfl
    | cons c cs => exact hread rfl
  | bool b | number n | array items | object fields => exact hread rfl

/-- The values of an object made of keys and their amounts. -/
theorem valuesOf_map (keys : List Str) (f : Str → ℚ) (key : Str) :
    valuesOf keys (keys.map f) key = if key ∈ keys then f key else 0 := by
  unfold valuesOf
  induction keys with
  | nil => rfl
  | cons k keys ih =>
    rw [List.map_cons, List.zip_cons_cons, List.lookup_cons]
    by_cases hkey : key = k
    · subst hkey
      simp
    · have hne : (key == k) = false := beq_false_of_ne hkey
      simp only [hne, ih, List.mem_cons, hkey, false_or]

/-- The amounts of a row can be read. -/
def AmountsConvert (series : List Series) (row : Value) : Prop :=
  ∀ item ∈ series, (row.get item.key).convertible = true

/-- A row has a bin when it has an interval and its amounts can be read. -/
theorem rowBin_eq_some_iff {row : Value} {bin : Bin} :
    rowBin js (series.map Series.key) row = some bin ↔
      AmountsConvert series row ∧ rowInterval js row = some bin.interval ∧
        (bin.values = fun key =>
          if key ∈ series.map Series.key then clamped js (row.get key) else 0) ∧
        bin.total = (series.map fun item => bin.values item.key).sum := by
  have htotal : (series.map Series.key).map bin.values = series.map fun item => bin.values item.key := by
    rw [List.map_map]
    rfl
  rw [rowBin_eq_some, htotal]
  constructor
  · rintro ⟨hinterval, amounts, hamounts, hvalues, hsum⟩
    have hconvert : AmountsConvert series row := by
      intro item hitem
      have hreads := mapM_returns.mp ⟨amounts, hamounts⟩
      exact (eventAmount_returns js _ 0).mp (hreads item.key (List.mem_map_of_mem hitem))
    refine ⟨hconvert, hinterval, ?_, hsum⟩
    have hread : (series.map Series.key).mapM (fun key => eventAmount js (row.get key) 0) =
        .ok ((series.map Series.key).map fun key => clamped js (row.get key)) := by
      refine mapM_eq_ok fun key hkey => ?_
      obtain ⟨item, hitem, rfl⟩ := List.mem_map.mp hkey
      exact amountValue_eq_clamped (hconvert item hitem)
    rw [hread] at hamounts
    cases hamounts
    rw [hvalues]
    exact funext fun key => valuesOf_map _ _ key
  -- a bin with these values is the one that the row makes
  · rintro ⟨hconvert, hinterval, hvalues, hsum⟩
    refine ⟨hinterval, (series.map Series.key).map fun key => clamped js (row.get key), ?_, ?_, hsum⟩
    · refine mapM_eq_ok fun key hkey => ?_
      obtain ⟨item, hitem, rfl⟩ := List.mem_map.mp hkey
      exact amountValue_eq_clamped (hconvert item hitem)
    · rw [hvalues]
      funext key
      exact (valuesOf_map (series.map Series.key) (fun key => clamped js (row.get key)) key).symm

/-- Rows with intervals have bins when all their amounts can be read. -/
theorem exists_bins {intervals : List (ℚ × ℚ)}
    (h : List.Forall₂ (fun row p => rowInterval js row = some p) rows intervals)
    (hconvert : ∀ row ∈ rows, AmountsConvert series row) :
    ∃ bins : List Bin, rows.map (rowBin js (series.map Series.key)) = bins.map some ∧
      bins.map Bin.interval = intervals := by
  induction h with
  | nil => exact ⟨[], rfl, rfl⟩
  | @cons row p rows intervals hp _ ih =>
    obtain ⟨hrow, hrows⟩ := List.forall_mem_cons.mp hconvert
    obtain ⟨bins, hbins, hends⟩ := ih hrows
    let values : Str → ℚ := fun key =>
      if key ∈ series.map Series.key then clamped js (row.get key) else 0
    let bin : Bin := ⟨p.1, p.2, values, (series.map fun item => values item.key).sum⟩
    have hbin : rowBin js (series.map Series.key) row = some bin :=
      rowBin_eq_some_iff.mpr ⟨hrow, hp, rfl, rfl⟩
    refine ⟨bin :: bins, ?_, ?_⟩
    · rw [List.map_cons, hbin, hbins]
      rfl
    · rw [List.map_cons, hends]
      rfl

/-- Accepted rows and their bins in pairs. -/
theorem forall₂_rowBin {bins : List Bin} (h : rows.map (rowBin js (series.map Series.key)) = bins.map some) :
    List.Forall₂ (fun row bin => rowBin js (series.map Series.key) row = some bin) rows bins := by
  have hsame := List.forall₂_eq_eq_eq.symm ▸ h
  rwa [List.forall₂_map_left_iff, List.forall₂_map_right_iff] at hsame

variable (hseries : validateSeries series = .ok ()) (hdense : denseIntervalInput (.array rows) = true)
include hseries hdense

/-- The rows are accepted exactly when they partition the range and their amounts can be read. -/
theorem build_rows_returns :
    (∃ data, buildStackedTimeSeriesData js (.array rows) series
      ⟨.finite axis.start, .finite axis.stop⟩ (.finite axis.binMs) = .ok data) ↔
      Partitions js rows axis.start axis.stop ∧ ∀ row ∈ rows, AmountsConvert series row := by
  have hne : rows ≠ [] := by
    rintro rfl
    cases hdense
  constructor
  · rintro ⟨data, hdata⟩
    obtain ⟨bins, hbins, -⟩ := (buildStackedTimeSeriesData_dense (validate_axis axis) hseries hdense).mp hdata
    obtain ⟨hrows, htiles⟩ := (normalizedDenseIntervals_eq_ok hne).mp hbins
    have hrows := forall₂_rowBin hrows
    refine ⟨⟨bins.map Bin.interval, ?_, htiles⟩, fun row hrow => ?_⟩
    · rw [List.forall₂_map_right_iff]
      exact hrows.imp fun row bin h => (rowBin_eq_some_iff.mp h).2.1
    · obtain ⟨i, hi, rfl⟩ := List.getElem_of_mem hrow
      have hbin := (List.forall₂_iff_get.mp hrows).2 i hi (hrows.length_eq ▸ hi)
      exact (rowBin_eq_some_iff.mp hbin).1
  -- the bins of the rows have the intervals of the partition
  · rintro ⟨⟨intervals, hintervals, htiles⟩, hconvert⟩
    obtain ⟨bins, hbins, rfl⟩ := exists_bins hintervals hconvert
    exact ⟨_, (buildStackedTimeSeriesData_dense (validate_axis axis) hseries hdense).mpr
      ⟨bins, (normalizedDenseIntervals_eq_ok hne).mpr ⟨hbins, htiles⟩, rfl⟩⟩

/-- The bins are those of the rows. -/
theorem isBinOf_of_build {data : StackedData}
    (h : buildStackedTimeSeriesData js (.array rows) series
      ⟨.finite axis.start, .finite axis.stop⟩ (.finite axis.binMs) = .ok data) :
    List.Forall₂ (IsBinOf js series) rows data.bins := by
  have hne : rows ≠ [] := by
    rintro rfl
    cases hdense
  obtain ⟨bins, hbins, rfl⟩ := (buildStackedTimeSeriesData_dense (validate_axis axis) hseries hdense).mp h
  apply (forall₂_rowBin ((normalizedDenseIntervals_eq_ok hne).mp hbins).1).imp
  intro row bin hbin
  obtain ⟨-, hinterval, hvalues, -⟩ := rowBin_eq_some_iff.mp hbin
  refine ⟨hinterval, fun item hitem => ?_⟩
  rw [hvalues]
  exact if_pos (List.mem_map_of_mem hitem)

/-- Acceptance is what it should be exactly when the rows do not partition the range or all their amounts
can be read. -/
theorem accepted_iff : Accepted js rows series axis ↔
    (Partitions js rows axis.start axis.stop → ∀ row ∈ rows, AmountsConvert series row) := by
  have hreturns : (∃ data, buildStackedTimeSeriesData js (.array rows) series
      ⟨.finite axis.start, .finite axis.stop⟩ (.finite axis.binMs) = .ok data) ↔
      Partitions js rows axis.start axis.stop ∧ ∀ row ∈ rows, AmountsConvert series row :=
    build_rows_returns hseries hdense
  constructor
  · intro h hpartitions
    exact (hreturns.mp (h.returns.mpr hpartitions)).2
  · intro h
    refine ⟨⟨fun hdata => (hreturns.mp hdata).1, fun hpartitions => ?_⟩, fun hnot => ?_,
      fun data hdata => isBinOf_of_build hseries hdense hdata⟩
    · exact hreturns.mpr ⟨hpartitions, h hpartitions⟩
    · cases hbuild : buildStackedTimeSeriesData js (.array rows) series
          ⟨.finite axis.start, .finite axis.stop⟩ (.finite axis.binMs) with
      | error e => exact ⟨e, rfl⟩
      | ok data => exact absurd (hreturns.mp ⟨data, hbuild⟩).1 hnot

end

/-! ## Agreement

Both ways lead to the same bins, and totals and lines add up the bins.
-/

section

variable {js : Runtime} {events : List Value} {series : List Series} {axis : Axis} {p : ℚ × ℚ} {row : Value}

/-- Only objects have fields of their own. -/
theorem Sums.truthy (h : Sums js events series p row) : row.truthy = true := by
  have howned := h.owned.1
  cases row with
  | object fields => rfl
  | array items => rfl
  | undefined | null | bool b | number n | string s => cases howned

/-- A row that sums up an interval has that interval. -/
theorem Sums.rowInterval (h : Sums js events series p row) (hlt : p.1 < p.2) :
    rowInterval js row = some p := by
  have howned : (row.truthy && row.hasOwn (lit "start") && row.hasOwn (lit "end")) ≠ false := by
    rw [h.truthy, h.owned.1, h.owned.2]
    exact Bool.noConfusion
  unfold Web.rowInterval
  rw [if_neg howned, h.start, h.stop]
  exact if_neg (not_le.mpr hlt)

theorem Sums.amountsConvert (h : Sums js events series p row) : AmountsConvert series row := by
  intro item hitem
  rw [h.values item hitem]
  rfl

/-- A sum of amounts needs no clamping. -/
theorem Sums.clamped_eq (h : Sums js events series p row) {item : Series} (hitem : item ∈ series) :
    clamped js (row.get item.key) =
      ((events.filter fun event => decide (LiesWithin js p.1 p.2 event)).map fun event =>
        amountOf js event item.key).sum := by
  rw [h.values item hitem]
  refine max_eq_right (List.sum_nonneg fun q hq => ?_)
  obtain ⟨event, -, rfl⟩ := List.mem_map.mp hq
  exact amountOf_nonneg js event item.key

/-- A row that sums up an interval has the bin of the events when nothing is lost. -/
theorem Sums.rowBin (h : Sums js events series p row) (hlt : p.1 < p.2)
    (hkept : lit "__proto__" ∈ series.map Series.key → ∀ event ∈ events,
      LiesWithin js p.1 p.2 event → amountOf js event (lit "__proto__") = 0) :
    Web.rowBin js (series.map Series.key) row = some (eventBin js series events p) := by
  refine rowBin_eq_some_iff.mpr ⟨h.amountsConvert, h.rowInterval hlt, funext fun key => ?_, rfl⟩
  show recordedSum js series events p.1 p.2 key = _
  split_ifs with hkey
  · obtain ⟨item, hitem, rfl⟩ := List.mem_map.mp hkey
    rw [h.clamped_eq hitem]
    refine recordedSum_eq hkey fun hproto event hevent hlies => ?_
    rw [hproto] at hkey ⊢
    exact hkept hkey event hevent hlies
  · -- a key that no series has counts for nothing on both sides
    exact recordedSum_eq_zero (fun h => hkey h.1) p.1 p.2

/-- Rows that sum up events are dense, and they partition the range. -/
theorem SumRows.dense {rows : List Value} (h : SumRows js events series axis rows) :
    denseIntervalInput (.array rows) = true ∧ Partitions js rows axis.start axis.stop ∧
      ∀ row ∈ rows, AmountsConvert series row := by
  have htiles := tiles_boundedTimeIntervals axis
  refine ⟨?_, ⟨boundedTimeIntervals axis, ?_, htiles⟩, fun row hrow => ?_⟩
  · have hne : boundedTimeIntervals axis ≠ [] :=
      fun hnil => axis.start_lt_stop.ne (htiles.eq_nil_iff.mp hnil)
    obtain ⟨p, rest, hcons⟩ := List.exists_cons_of_ne_nil hne
    rw [SumRows, hcons, List.forall₂_cons_left_iff] at h
    obtain ⟨row, rows, hrow, -, rfl⟩ := h
    refine List.any_eq_true.mpr ⟨row, List.mem_cons_self, ?_⟩
    rw [hrow.truthy, hrow.owned.1]
    rfl
  · have hproper := (List.forall₂_and_left _ _).mpr ⟨fun p hp => htiles.lt_of_mem hp, h⟩
    exact hproper.flip.imp fun row p hrow => hrow.2.rowInterval hrow.1
  · obtain ⟨i, hi, rfl⟩ := List.getElem_of_mem hrow
    exact ((List.forall₂_iff_get.mp h).2 i (h.length_eq ▸ hi) hi).amountsConvert

/-- Where nothing is lost, the rows that sum up the events give the data of the events. -/
theorem NothingLost.build_rows {rows : List Value}
    (hlost : NothingLost js events series axis.start axis.stop)
    (hseries : validateSeries series = .ok ()) (h : SumRows js events series axis rows) :
    buildStackedTimeSeriesData js (.array rows) series
      ⟨.finite axis.start, .finite axis.stop⟩ (.finite axis.binMs) =
        .ok (stacked axis ((boundedTimeIntervals axis).map (eventBin js series events))) := by
  have htiles := tiles_boundedTimeIntervals axis
  obtain ⟨hdense, -, -⟩ := h.dense
  have hne : rows ≠ [] := by
    rintro rfl
    cases hdense
  refine (buildStackedTimeSeriesData_dense (validate_axis axis) hseries hdense).mpr
    ⟨_, (normalizedDenseIntervals_eq_ok hne).mpr ⟨?_, (stacks_eventBin js series axis events).tiles⟩, rfl⟩
  -- row for row, the bin is that of the interval
  have hproper := (List.forall₂_and_left _ _).mpr ⟨fun p (hp : p ∈ boundedTimeIntervals axis) =>
    (⟨htiles.lt_of_mem hp, htiles.mem_le hp⟩ : p.1 < p.2 ∧ axis.start ≤ p.1 ∧ p.2 ≤ axis.stop), h⟩
  have hsame : List.Forall₂ Eq (rows.map (rowBin js (series.map Series.key)))
      (((boundedTimeIntervals axis).map (eventBin js series events)).map some) := by
    rw [List.map_map, List.forall₂_map_left_iff, List.forall₂_map_right_iff]
    refine hproper.flip.imp fun row p ⟨⟨hlt, hstart, hstop⟩, hrow⟩ => hrow.rowBin hlt ?_
    rintro hkey event hevent ⟨ts, hts, hge, hbefore⟩
    exact hlost.kept hkey event hevent ⟨ts, hts, hstart.trans hge, hbefore.trans_le hstop⟩
  rwa [List.forall₂_eq_eq_eq] at hsame

/-- The rows that sum up some events give the same data as the events exactly when nothing is lost, if
there are such rows. -/
theorem agreesWithPoints_iff (hseries : validateSeries series = .ok ())
    (hpoints : ∀ event ∈ events, event.hasOwn (lit "start") = false ∧ event.hasOwn (lit "end") = false) :
    AgreesWithPoints js events series axis ↔
      ((∃ rows, SumRows js events series axis rows) →
        NothingLost js events series axis.start axis.stop) := by
  have hbuild {data : StackedData} : buildStackedTimeSeriesData js (.array events) series
      ⟨.finite axis.start, .finite axis.stop⟩ (.finite axis.binMs) = .ok data ↔
      (∀ event ∈ events, Converts js series axis.start axis.stop event) ∧
        data = stacked axis ((boundedTimeIntervals axis).map (eventBin js series events)) :=
    buildStackedTimeSeriesData_points (validate_axis axis) hseries (denseIntervalInput_eq_false hpoints)
  constructor
  · rintro h ⟨rows, hrows⟩
    obtain ⟨data, hdata, hevents⟩ := h rows hrows
    obtain ⟨hconverts, rfl⟩ := hbuild.mp hevents
    refine ⟨hconverts, fun hkey event hevent hlies => ?_⟩
    -- the row of the event's interval says what the chart of the events does not record
    obtain ⟨i, ⟨p, hp, hin⟩, -⟩ := existsUnique_interval (tiles_boundedTimeIntervals axis) hlies
    obtain ⟨hi, rfl⟩ := List.getElem?_eq_some_iff.mp hp
    have hlt : i < rows.length := hrows.length_eq ▸ hi
    have hrow := (List.forall₂_iff_get.mp hrows).2 i hi hlt
    have hisBin := (List.forall₂_iff_get.mp (isBinOf_of_build hseries hrows.dense.1 hdata)).2 i hlt
      (by simpa [stacked] using hi)
    obtain ⟨item, hitem, hproto⟩ := List.mem_map.mp hkey
    have hvalue := hisBin.2 item hitem
    rw [hrow.clamped_eq hitem, hproto] at hvalue
    refine amountOf_eq_zero (hvalue.symm.trans ?_) hevent hin
    simp only [stacked, List.get_eq_getElem, List.getElem_map]
    exact recordedSum_eq_zero (fun h => h.2 rfl) _ _
  · rintro h rows hrows
    have hlost := h ⟨rows, hrows⟩
    exact ⟨_, hlost.build_rows hseries hrows, hbuild.mpr ⟨hlost.converts, rfl⟩⟩

/-- The row that sums up an interval. -/
def sumRow (js : Runtime) (events : List Value) (series : List Series) (p : ℚ × ℚ) : Value :=
  .object ((lit "start", .number (.finite p.1)) :: (lit "end", .number (.finite p.2)) ::
    series.map fun item => (item.key,
      .number (.finite ((events.filter fun event => decide (LiesWithin js p.1 p.2 event)).map fun event =>
        amountOf js event item.key).sum)))

theorem field_map (value : Str → Value) {key : Str} (hkey : key ∈ series.map Series.key) :
    field key (series.map fun item => (item.key, value item.key)) = value key := by
  induction series with
  | nil => cases hkey
  | cons item rest ih =>
    rw [List.map_cons, field]
    by_cases hsame : item.key = key
    · rw [if_pos hsame, hsame]
    · rw [if_neg hsame]
      exact ih ((List.mem_cons.mp hkey).resolve_left (Ne.symm hsame))

/-- There are rows that sum up some events, unless a series is called as an end of its interval. -/
theorem exists_sumRows (js : Runtime) (events : List Value) (axis : Axis)
    (hstart : lit "start" ∉ series.map Series.key) (hstop : lit "end" ∉ series.map Series.key) :
    ∃ rows, SumRows js events series axis rows := by
  refine ⟨(boundedTimeIntervals axis).map (sumRow js events series), ?_⟩
  rw [SumRows, List.forall₂_map_right_iff, List.forall₂_same]
  refine fun p _ => ⟨⟨rfl, rfl⟩, rfl, rfl, fun item hitem => ?_⟩
  have hkey : item.key ∈ series.map Series.key := List.mem_map_of_mem hitem
  have hne : lit "start" ≠ item.key := fun h => hstart (h ▸ hkey)
  have hne' : lit "end" ≠ item.key := fun h => hstop (h ▸ hkey)
  show field item.key (_ :: _ :: _) = _
  rw [field, if_neg hne, field, if_neg hne']
  exact field_map (fun key => .number (.finite ((events.filter fun event =>
    decide (LiesWithin js p.1 p.2 event)).map fun event => amountOf js event key).sum)) hkey

end

/-- Dense rows are accepted as they should be, and agree with point events, exactly when the amounts of
rows that partition the range can be read, and nothing is lost of events that rows can sum up. -/
theorem accepted_and_agrees_iff (js : Runtime) (rows events : List Value) (series : List Series)
    (axis : Axis) (hseries : validateSeries series = .ok ())
    (hdense : denseIntervalInput (.array rows) = true)
    (hpoints : ∀ event ∈ events, event.hasOwn (lit "start") = false ∧ event.hasOwn (lit "end") = false) :
    Accepted js rows series axis ∧ AgreesWithPoints js events series axis ↔
      (Partitions js rows axis.start axis.stop → ∀ row ∈ rows, AmountsConvert series row) ∧
        ((∃ sums, SumRows js events series axis sums) →
          NothingLost js events series axis.start axis.stop) :=
  and_congr (accepted_iff hseries hdense) (agreesWithPoints_iff hseries hpoints)

/-! ## Two charts -/

/-- A row with the amounts of two series. -/
def rowOf (start stop opened completed : ℚ) : Value :=
  .object [(lit "start", .number (.finite start)), (lit "end", .number (.finite stop)),
    (lit "opened", .number (.finite opened)), (lit "completed", .number (.finite completed))]

/-- Three rows that partition the range. -/
def sampleRows : List Value := [rowOf 0 100 3 0, rowOf 100 250 0 2, rowOf 250 400 1 1]

theorem partitions_sampleRows : Partitions plainRuntime sampleRows 0 400 :=
  ⟨[(0, 100), (100, 250), (250, 400)], .cons rfl (.cons rfl (.cons rfl .nil)),
    rfl, by norm_num, rfl, by norm_num, rfl, by norm_num, rfl⟩

theorem sampleRows_amountsConvert {row : Value} (hrow : row ∈ sampleRows) :
    AmountsConvert issueSeries row := by
  have hall : ∀ row ∈ sampleRows, ∀ item ∈ issueSeries, (row.get item.key).convertible = true := by
    decide
  exact hall row hrow

/-- The rows are accepted, and events of two series agree with the rows that sum them up. -/
theorem opened_agrees : Accepted plainRuntime sampleRows issueSeries fourHundred ∧
    AgreesWithPoints plainRuntime sampleEvents issueSeries fourHundred := by
  refine (accepted_and_agrees_iff plainRuntime sampleRows sampleEvents issueSeries fourHundred
    rfl rfl (by decide)).mpr ⟨fun _ row hrow => ?_, fun _ => ⟨?_, fun hproto => absurd hproto (by decide)⟩⟩
  · exact sampleRows_amountsConvert hrow
  · exact fun event hevent => converts_sampleEvents hevent

/-- One of a series called `__proto__` does not: the row counts it, and the chart of the events does not. -/
theorem proto_not_agrees : validateSeries [series "__proto__" "Prototype"] = .ok () ∧
    (∀ event ∈ [eventOf 10 "__proto__"],
      event.hasOwn (lit "start") = false ∧ event.hasOwn (lit "end") = false) ∧
    ¬ AgreesWithPoints plainRuntime [eventOf 10 "__proto__"] [series "__proto__" "Prototype"]
      fourHundred := by
  refine ⟨rfl, by decide, fun h => ?_⟩
  have hlost := (agreesWithPoints_iff rfl (by decide)).mp h
    (exists_sumRows _ _ _ (by decide) (by decide))
  have hkept := hlost.kept (by decide) _ List.mem_cons_self ⟨10, rfl, by decide, by decide⟩
  have hone : amountOf plainRuntime (eventOf 10 "__proto__") (lit "__proto__") = 1 := rfl
  rw [hone] at hkept
  exact one_ne_zero hkept

end Ghpulse.Web
