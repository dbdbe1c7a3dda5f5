import Ghpulse.Web.Chart
import Mathlib.Data.List.ReduceOption
import Mathlib.Data.Rat.Floor

/-!
# Binning of point events

The loop over the bins shares one index into the sorted events, so every bin takes the events that lie in
it (`Tiling.Tiles.cuts_eq`); what it adds up is a sum over the events in any order. An event is lost where
its series is called `__proto__`: a number cannot be assigned to that property of an object literal.

Reference: `src/dashboard-charts.jsx`.
-/

open Python Js

namespace Ghpulse.Web

/-! ## Regular intervals

The loop takes as many turns as there are bins. A turn that reaches the end of the range is the last one.
-/

section Intervals

variable {stop binMs start : ℚ}

/-- Enough turns reach the end of the range. -/
theorem tiles_intervalsFrom (hbin : 0 < binMs) {fuel : ℕ} (hle : start ≤ stop)
    (hfuel : stop - start ≤ fuel * binMs) :
    Tiling.Tiles start stop (intervalsFrom stop binMs fuel start) := by
  induction fuel generalizing start with
  | zero =>
    rw [Nat.cast_zero, zero_mul] at hfuel
    exact le_antisymm hle (sub_nonpos.mp hfuel)
  | succ fuel ih =>
    rw [intervalsFrom]
    split_ifs with hlt hend
    -- this turn reaches the end of the range
    · have hstop : min (start + binMs) stop = stop := min_eq_right ((le_min_iff.mp hend).1)
      exact ⟨rfl, hlt.trans_le hend, hstop⟩
    · have hnext : start + binMs < stop := by
        by_contra hge
        exact hend (le_min (not_lt.mp hge) le_rfl)
      rw [min_eq_left hnext.le]
      refine ⟨rfl, lt_add_of_pos_right start hbin, ih hnext.le ?_⟩
      rw [Nat.cast_succ, add_one_mul] at hfuel
      linarith
    · exact le_antisymm hle (not_lt.mp hlt)

/-- No interval is wider than a bin. -/
theorem le_of_mem_intervalsFrom {fuel : ℕ} {p : ℚ × ℚ} (hp : p ∈ intervalsFrom stop binMs fuel start) :
    p.2 ≤ p.1 + binMs := by
  induction fuel generalizing start with
  | zero => cases hp
  | succ fuel ih =>
    rw [intervalsFrom] at hp
    split_ifs at hp with hlt hend
    · obtain rfl := List.mem_singleton.mp hp
      exact min_le_left _ _
    · rcases List.mem_cons.mp hp with rfl | hp
      · exact min_le_left _ _
      · exact ih hp
    · cases hp

/-- Only the last one is shortened. -/
theorem eq_of_mem_dropLast_intervalsFrom {fuel : ℕ} {p : ℚ × ℚ}
    (hp : p ∈ (intervalsFrom stop binMs fuel start).dropLast) : p.2 = p.1 + binMs := by
  induction fuel generalizing start with
  | zero => cases hp
  | succ fuel ih =>
    rw [intervalsFrom] at hp
    split_ifs at hp with hlt hend
    · cases hp
    · have hnext : start + binMs < stop := by
        by_contra hge
        exact hend (le_min (not_lt.mp hge) le_rfl)
      cases hrest : intervalsFrom stop binMs fuel (min (start + binMs) stop) with
      | nil =>
        rw [hrest] at hp
        cases hp
      | cons q rest =>
        rw [hrest, List.dropLast_cons_cons, ← hrest] at hp
        rcases List.mem_cons.mp hp with rfl | hp
        · exact min_eq_left hnext.le
        · exact ih hp
    · cases hp

end Intervals

variable (axis : Axis)

/-- The regular intervals tile the range. -/
theorem tiles_boundedTimeIntervals :
    Tiling.Tiles axis.start axis.stop (boundedTimeIntervals axis) := by
  apply tiles_intervalsFrom axis.binMs_pos axis.start_lt_stop.le
  have hnonneg : 0 ≤ ⌈(axis.stop - axis.start) / axis.binMs⌉ :=
    Int.ceil_nonneg (div_nonneg (sub_nonneg.mpr axis.start_lt_stop.le) axis.binMs_pos.le)
  have hcast : ((⌈(axis.stop - axis.start) / axis.binMs⌉.toNat : ℕ) : ℚ) =
      (⌈(axis.stop - axis.start) / axis.binMs⌉ : ℤ) := by
    rw [← Int.cast_natCast, Int.toNat_of_nonneg hnonneg]
  rw [hcast, ← div_le_iff₀ axis.binMs_pos]
  exact Int.le_ceil _

theorem interval_emptyBins : (emptyBins axis).map Bin.interval = boundedTimeIntervals axis := by
  rw [emptyBins, List.map_map]
  exact List.map_id _

/-- Four hundred milliseconds in bins of 120. -/
def fourHundred : Axis := ⟨0, 400, 120, by norm_num, by norm_num⟩

/-! ## Amounts

The accumulators of the loop as sums, which do not depend on the order of what is added.
-/

/-- The amount of a key. -/
def amountAt (values : List (Str × ℚ)) (key : Str) : ℚ :=
  (values.map fun p => if p.1 = key then p.2 else 0).sum

/-- What an event adds to a series. -/
def SeriesEvent.amount (event : SeriesEvent) (key : Str) : ℚ := amountAt event.values key

theorem addAmounts_apply (values : Str → ℚ) (event : SeriesEvent) (key : Str) :
    addAmounts values event key = values key + event.amount key := by
  unfold addAmounts SeriesEvent.amount amountAt
  induction event.values generalizing values with
  | nil => exact (add_zero _).symm
  | cons p rest ih =>
    rw [List.foldl_cons, ih, List.map_cons, List.sum_cons, ← add_assoc]
    congr 1
    by_cases hkey : p.1 = key
    · rw [if_pos hkey, ← hkey, Function.update_self]
    · rw [if_neg hkey, Function.update_of_ne (Ne.symm hkey), add_zero]

theorem foldl_addAmounts_apply (values : Str → ℚ) (events : List SeriesEvent) (key : Str) :
    events.foldl addAmounts values key = values key + (events.map fun e => e.amount key).sum := by
  induction events generalizing values with
  | nil => exact (add_zero _).symm
  | cons event rest ih =>
    rw [List.foldl_cons, ih, addAmounts_apply, List.map_cons, List.sum_cons, add_assoc]

/-- A bin with some events added. -/
theorem foldl_add (bin : Bin) (events : List SeriesEvent) :
    events.foldl Bin.add bin =
      ⟨bin.start, bin.stop, fun key => bin.values key + (events.map fun e => e.amount key).sum,
        bin.total + (events.map fun e => (e.values.map Prod.snd).sum).sum⟩ := by
  induction events generalizing bin with
  | nil => simp
  | cons event rest ih =>
    rw [List.foldl_cons, ih]
    simp only [Bin.add, addAmounts_apply, List.map_cons, List.sum_cons, add_assoc]

/-- Only one of distinct keys is a given one. -/
theorem sum_map_ite {keys : List Str} (hnodup : keys.Nodup) {k : Str} (hk : k ∈ keys) (q : ℚ) :
    (keys.map fun key => if k = key then q else 0).sum = q := by
  induction keys with
  | nil => cases hk
  | cons key rest ih =>
    obtain ⟨hkey, hrest⟩ := List.nodup_cons.mp hnodup
    rw [List.map_cons, List.sum_cons]
    rcases List.mem_cons.mp hk with rfl | hk
    -- the key is the first one, so none of the others is equal to it
    · rw [if_pos rfl, List.sum_eq_zero, add_zero]
      intro x hx
      obtain ⟨key, hin, rfl⟩ := List.mem_map.mp hx
      have hne : k ≠ key := fun h => hkey (h ▸ hin)
      exact if_neg hne
    · have hne : k ≠ key := fun h => hkey (h ▸ hk)
      rw [if_neg hne, zero_add, ih hrest hk]

/-- The amounts of distinct keys are all there are. -/
theorem sum_amountAt {keys : List Str} (hnodup : keys.Nodup) {values : List (Str × ℚ)}
    (hkeys : ∀ p ∈ values, p.1 ∈ keys) :
    (keys.map (amountAt values)).sum = (values.map Prod.snd).sum := by
  unfold amountAt
  induction values with
  | nil => simp
  | cons p rest ih =>
    obtain ⟨hp, hrest⟩ := List.forall_mem_cons.mp hkeys
    simp only [List.map_cons, List.sum_cons]
    rw [List.sum_map_add, sum_map_ite hnodup hp, ih hrest]

/-! ## The loop over the bins

The index that the bins share divides the sorted events into one run for each bin.
-/

/-- Every bin takes its cut of the events, and the totals take them all. -/
theorem fillBins_eq (totals : Str → ℚ) (bins : List Bin) (events : List SeriesEvent) :
    fillBins totals bins events =
      ((bins.zip (Tiling.cuts SeriesEvent.ts (bins.map Bin.interval) events)).map
          fun p => p.2.foldl Bin.add p.1,
        (Tiling.cuts SeriesEvent.ts (bins.map Bin.interval) events).flatten.foldl addAmounts totals) := by
  induction bins generalizing totals events with
  | nil => rfl
  | cons bin bins ih =>
    rw [fillBins, ih, List.map_cons, Tiling.cuts, List.zip_cons_cons, List.map_cons, List.flatten_cons,
      List.foldl_append]
    rfl

/-- The events that lie in an interval. -/
def within (events : List SeriesEvent) (p : ℚ × ℚ) : List SeriesEvent :=
  events.filter fun e => decide (p.1 ≤ e.ts ∧ e.ts < p.2)

/-- The bin of an interval. -/
def binOf (events : List SeriesEvent) (p : ℚ × ℚ) : Bin :=
  ⟨p.1, p.2, fun key => ((within events p).map fun e => e.amount key).sum,
    ((within events p).map fun e => (e.values.map Prod.snd).sum).sum⟩

/-- Sorted events fill the bins of a tiling. -/
theorem fillBins_emptyBins {events : List SeriesEvent}
    (hsorted : events.Pairwise fun e e' => e.ts ≤ e'.ts) (hge : ∀ e ∈ events, axis.start ≤ e.ts) :
    fillBins (fun _ => 0) (emptyBins axis) events =
      ((boundedTimeIntervals axis).map (binOf events), fun key =>
        ((boundedTimeIntervals axis).map fun p => (binOf events p).values key).sum) := by
  have hcuts := (tiles_boundedTimeIntervals axis).cuts_eq hsorted hge
  rw [fillBins_eq, interval_emptyBins, hcuts, emptyBins, List.zip_map', List.map_map]
  refine Prod.ext ?_ (funext fun key => ?_)
  · apply List.map_congr_left
    intro p _
    rw [Function.comp_apply, foldl_add]
    simp only [zero_add]
    rfl
  · dsimp only
    rw [foldl_addAmounts_apply, zero_add, List.map_flatten, List.sum_flatten, List.map_map, List.map_map]
    rfl

end Ghpulse.Web
