import Ghpulse.Web.Ticks
import Mathlib.Data.Int.Interval

/-!
# Month ticks

Which months the loop lists, and how far they reach when every `step`-th of them is labelled. Where the
loop meets no year from 0 to 99 it lists the next 59 months, so that up to twelve labels stand five months
apart and the axis is covered for five years and two months.

Reference: `src/dashboard-charts.jsx`.
-/

open Python Js Coverage

namespace Ghpulse.Web

/-! ## Distances in months

Month starts are numbered, so that the distance of two of them is a difference of numbers.
-/

/-- Months are added to a month. -/
@[simp] theorem addMonths_monthTime (i k : ℤ) : addMonths (monthTime i) k = monthTime (i + k) := by
  have hlt : monthTime (i + k) < monthTime (i + k + 1) := monthTime_strictMono (Int.lt_succ_self _)
  unfold addMonths
  rw [monthIndex_monthTime, sub_self, add_zero]
  exact min_eq_left (Int.le_sub_one_of_lt hlt)

/-- A time that is so many months later lies that many months later. -/
theorem monthIndex_le_of_le_addMonths {a b k : ℤ} (h : b ≤ addMonths a k) :
    monthIndex b ≤ monthIndex a + k := by
  rw [← Int.lt_add_one_iff, monthIndex_lt_iff]
  have hle : b ≤ monthTime (monthIndex a + k + 1) - 1 := h.trans (min_le_right _ _)
  linarith

/-- The next month begins within a month. -/
theorem monthTime_succ_le_addMonths (t : ℤ) {k : ℤ} (hk : 1 ≤ k) :
    monthTime (monthIndex t + 1) ≤ addMonths t k := by
  refine le_min ?_ (Int.le_sub_one_of_lt (monthTime_strictMono (by linarith)))
  have hmono : monthTime (monthIndex t + 1) ≤ monthTime (monthIndex t + k) :=
    monthTime_strictMono.monotone (by linarith)
  have hle := monthTime_monthIndex_le t
  linarith

section Axis

variable (axis : TimeAxis)

/-- The axis ends in no earlier month than it starts. -/
theorem monthIndex_start_le : monthIndex axis.start ≤ monthIndex axis.stop :=
  le_monthIndex_iff.mpr ((monthTime_monthIndex_le _).trans axis.start_lt_stop.le)

/-- The month starts of an axis are those of the months after the one of its start. -/
theorem monthStarts_eq :
    (axis.monthStarts : ℤ) = monthIndex axis.stop - monthIndex axis.start := by
  have himage : {ts | axis.start < ts ∧ ts ≤ axis.stop ∧ ∃ i, ts = monthTime i} =
      monthTime '' ↑(Finset.Ioc (monthIndex axis.start) (monthIndex axis.stop)) := by
    ext ts
    constructor
    · rintro ⟨hlo, hhi, i, rfl⟩
      refine ⟨i, ?_, rfl⟩
      rw [Finset.coe_Ioc]
      exact ⟨monthIndex_lt_iff.mpr hlo, le_monthIndex_iff.mpr hhi⟩
    · rintro ⟨i, hi, rfl⟩
      rw [Finset.coe_Ioc] at hi
      exact ⟨monthIndex_lt_iff.mp hi.1, le_monthIndex_iff.mp hi.2, i, rfl⟩
  unfold TimeAxis.monthStarts
  rw [himage, Set.ncard_image_of_injective _ monthTime_strictMono.injective, Set.ncard_coe_finset,
    Int.card_Ioc]
  exact Int.toNat_of_nonneg (sub_nonneg.mpr (monthIndex_start_le axis))

/-- The intended step, in months. -/
theorem monthStep_eq : (((axis.monthStarts + 11) / 12 : ℕ) : ℤ) =
    (monthIndex axis.stop - monthIndex axis.start + 11) / 12 := by
  push_cast
  rw [monthStarts_eq]

end Axis

/-! ## The loop over the months

One turn at a time. `Date.UTC` moves the years 0 to 99 to the twentieth century, so the number of the
month that it returns may be 22800 larger than that of the turn.
-/

section Loop

variable {start stop : ℤ}

/-- A turn of the loop, with the months counted across years. -/
theorem listMonths_succ (n : ℕ) (i : ℤ) :
    listMonths start stop (n + 1) (i / 12) (i % 12) =
      if (timeClip (monthTime (shifted i))).any (fun ts => decide (stop < ts)) then []
      else (timeClip (monthTime (shifted i))).toList.filter (fun ts => decide (start < ts)) ++
        listMonths start stop n ((i + 1) / 12) ((i + 1) % 12) := by
  have hrest : (if 11 < i % 12 + 1 then listMonths start stop n (i / 12 + 1) 0
      else listMonths start stop n (i / 12) (i % 12 + 1)) =
        listMonths start stop n ((i + 1) / 12) ((i + 1) % 12) := by
    split_ifs with hlast
    · have hyear : (i + 1) / 12 = i / 12 + 1 := by omega
      have hmonth : (i + 1) % 12 = 0 := by omega
      rw [hyear, hmonth]
    · have hyear : (i + 1) / 12 = i / 12 := by omega
      have hmonth : (i + 1) % 12 = i % 12 + 1 := by omega
      rw [hyear, hmonth]
  rw [listMonths, dateUTC_month, sub_self, zero_mul, add_zero, hrest]

/-- A month is not shifted back. -/
theorem le_shifted (i : ℤ) : i ≤ shifted i := by
  unfold shifted
  split_ifs <;> omega

/-- Nothing is listed after the month of the stop. -/
theorem listMonths_after (n : ℕ) {i : ℤ} (hi : monthIndex stop < i) :
    listMonths start stop n (i / 12) (i % 12) = [] := by
  induction n generalizing i with
  | zero => rfl
  | succ n ih =>
    have hpast : stop < monthTime (shifted i) := monthIndex_lt_iff.mp (hi.trans_le (le_shifted i))
    rw [listMonths_succ, ih (by linarith)]
    cases hclip : timeClip (monthTime (shifted i)) with
    | none => rfl
    | some ts =>
      rw [eq_of_timeClip hclip, Option.any_some, decide_eq_true hpast, if_pos rfl]

/-- What is listed are midnights on the axis at which `Date.UTC` sees a month begin. -/
theorem of_mem_listMonths {n : ℕ} {i ts : ℤ} (h : ts ∈ listMonths start stop n (i / 12) (i % 12)) :
    (∃ j, i ≤ j ∧ j < i + n ∧ ts = monthTime (shifted j)) ∧ start < ts ∧ ts ≤ stop := by
  induction n generalizing i with
  | zero => cases h
  | succ n ih =>
    rw [listMonths_succ] at h
    split_ifs at h with hpast
    · cases h
    · rcases List.mem_append.mp h with h | h
      · obtain ⟨hmem, hstart⟩ := List.mem_filter.mp h
        have hclip : timeClip (monthTime (shifted i)) = some ts := Option.mem_toList.mp hmem
        rw [hclip, Option.any_some, decide_eq_true_eq, not_lt] at hpast
        exact ⟨⟨i, le_rfl, by push_cast; linarith, eq_of_timeClip hclip⟩, of_decide_eq_true hstart,
          hpast⟩
      · obtain ⟨⟨j, hlo, hhi, hj⟩, haxis⟩ := ih h
        exact ⟨⟨j, by linarith, by push_cast; linarith, hj⟩, haxis⟩

end Loop

/-! ## The months that are listed

Three cases: a month that is not moved, the one of the start, which is left out, and one that is moved
past the stop and so ends the loop.
-/

section Listed

variable (axis : TimeAxis)

/-- The months of an axis are time values. -/
theorem timeClip_monthTime {i : ℤ} (hlo : monthIndex axis.start < i) (hhi : i ≤ monthIndex axis.stop) :
    timeClip (monthTime i) = some (monthTime i) := by
  have hstart : axis.start < monthTime i := monthIndex_lt_iff.mp hlo
  have hstop : monthTime i ≤ axis.stop := le_monthIndex_iff.mp hhi
  exact timeClip_eq (axis.le_start.trans hstart.le) (hstop.trans axis.stop_le)

/-- From the year 100 on a month is not shifted at all. -/
theorem shifted_eq {i : ℤ} (h : ¬(0 ≤ i ∧ i < 1200)) : shifted i = i := if_neg h

/-- Months that `Date.UTC` does not shift are listed one after the other. -/
theorem listMonths_regular (m n : ℕ) {i : ℤ} (hlo : monthIndex axis.start < i)
    (hhi : i + m ≤ monthIndex axis.stop + 1) (hregular : 1200 ≤ i ∨ i + m ≤ 0) :
    listMonths axis.start axis.stop (m + n) (i / 12) (i % 12) =
      (List.range m).map (fun k : ℕ => monthTime (i + k)) ++
        listMonths axis.start axis.stop n ((i + m) / 12) ((i + m) % 12) := by
  induction m generalizing i with
  | zero => simp
  | succ m ih =>
    push_cast at hhi hregular
    have hi : i ≤ monthIndex axis.stop := by linarith
    have hstart : axis.start < monthTime i := monthIndex_lt_iff.mp hlo
    have hstop : ¬axis.stop < monthTime i := not_lt.mpr (le_monthIndex_iff.mp hi)
    have hfilter : [monthTime i].filter (fun ts => decide (axis.start < ts)) = [monthTime i] := by
      simp [hstart]
    have hcount : m + 1 + n = m + n + 1 := by omega
    rw [hcount, listMonths_succ, shifted_eq (by omega), timeClip_monthTime axis hlo hi, Option.any_some,
      decide_eq_false hstop, if_neg Bool.false_ne_true, ih (by linarith) (by linarith) (by omega)]
    rw [Option.toList_some, hfilter, map_range_succ]
    have hnext : i + 1 + (m : ℤ) = i + (m + 1 : ℕ) := by
      push_cast
      ring
    rw [hnext, List.cons_append, List.nil_append, List.cons_append]
    congr 1
    · simp
    · congr 1
      refine List.map_congr_left fun k _ => congrArg monthTime ?_
      push_cast
      ring

/-- The month of the start is not listed. -/
theorem listMonths_first (n : ℕ)
    (hregular : ¬(0 ≤ monthIndex axis.start ∧ monthIndex axis.start < 1200)) :
    listMonths axis.start axis.stop (n + 1) (monthIndex axis.start / 12) (monthIndex axis.start % 12) =
      listMonths axis.start axis.stop n ((monthIndex axis.start + 1) / 12)
        ((monthIndex axis.start + 1) % 12) := by
  have hstart : monthTime (monthIndex axis.start) ≤ axis.start := monthTime_monthIndex_le _
  rw [listMonths_succ, shifted_eq hregular]
  cases hclip : timeClip (monthTime (monthIndex axis.start)) with
  | none => rfl
  | some ts =>
    have hts := eq_of_timeClip hclip
    have hstop : ¬axis.stop < ts := by
      rw [hts, not_lt]
      exact hstart.trans axis.start_lt_stop.le
    have hbefore : ¬axis.start < ts := by
      rw [hts, not_lt]
      exact hstart
    rw [Option.any_some, decide_eq_false hstop, if_neg Bool.false_ne_true, Option.toList_some,
      List.filter_cons_of_neg (by simpa using hbefore), List.filter_nil, List.nil_append]

/-- A month that `Date.UTC` shifts past the stop ends the loop. -/
theorem listMonths_shifted (n : ℕ) {i : ℤ} (hi : 0 ≤ i ∧ i < 1200)
    (hstop : monthIndex axis.stop < i + 22800) :
    listMonths axis.start axis.stop n (i / 12) (i % 12) = [] := by
  cases n with
  | zero => rfl
  | succ n =>
    have hshift : shifted i = i + 22800 := if_pos hi
    have hpast : axis.stop < monthTime (i + 22800) := monthIndex_lt_iff.mp hstop
    have hlo : monthTime 22800 ≤ monthTime (i + 22800) :=
      monthTime_strictMono.monotone (by linarith)
    have hhi : monthTime (i + 22800) ≤ monthTime 24000 :=
      monthTime_strictMono.monotone (by linarith)
    have hfirst : monthTime 22800 = -2208988800000 := by decide
    have hlast : monthTime 24000 = 946684800000 := by decide
    have hclip : timeClip (monthTime (i + 22800)) = some (monthTime (i + 22800)) :=
      timeClip_eq (by unfold maxTime; linarith) (by unfold maxTime; linarith)
    rw [listMonths_succ, hshift, hclip, Option.any_some, decide_eq_true hpast, if_pos rfl]

end Listed

/-! ## Every `step`-th month

The loop over the labels takes as many turns as there are months, which is enough.
-/

/-- Every n-th tick is a tick. -/
theorem mem_of_mem_everyNth {all : List ℤ} {step turns index : ℕ} {ts : ℤ}
    (h : ts ∈ everyNth all step turns index) : ts ∈ all := by
  induction turns generalizing index with
  | zero => cases h
  | succ turns ih =>
    rw [everyNth] at h
    cases hget : all[index]? with
    | none =>
      rw [hget] at h
      cases h
    | some x =>
      rw [hget] at h
      rcases List.mem_cons.mp h with rfl | h
      · exact List.mem_of_getElem? hget
      · exact ih h

/-- The elements that are taken from a sequence. -/
theorem everyNth_map_range (f : ℕ → ℤ) {n step turns index count : ℕ} (hturns : count ≤ turns)
    (hcount : ∀ k, k < count ↔ index + k * step < n) :
    everyNth ((List.range n).map f) step turns index =
      (List.range count).map fun k => f (index + k * step) := by
  induction turns generalizing index count with
  | zero =>
    rw [Nat.le_zero.mp hturns]
    rfl
  | succ turns ih =>
    rw [everyNth]
    cases count with
    | zero =>
      have hpast : ¬index < n := by simpa using hcount 0
      have hget : ((List.range n).map f)[index]? = none := by simpa using hpast
      rw [hget]
      rfl
    | succ count =>
      have hindex : index < n := by simpa using hcount 0
      have hget : ((List.range n).map f)[index]? = some (f index) := by simp [hindex]
      have hrest : ∀ k, k < count ↔ index + step + k * step < n := fun k => by
        rw [← Nat.succ_lt_succ_iff, Nat.succ_eq_add_one, Nat.succ_eq_add_one, hcount (k + 1)]
        rw [Nat.add_one_mul]
        omega
      rw [hget]
      dsimp only
      rw [ih (Nat.le_of_succ_le_succ hturns) hrest, map_range_succ]
      congr 1
      · simp
      · refine List.map_congr_left fun k _ => congrArg f ?_
        ring

/-! ## How far the labels reach

The labels reach from the first listed month to the last one that is a multiple of the step away from it,
and cover the axis one step further. Where they do not reach its end, a stretch of more than a step has no
tick.
-/

section Reach

variable {axis : TimeAxis}

/-- An axis of eighty days has two month starts. -/
theorem two_le_months (hspan : 80 * msPerDay ≤ axis.span) :
    monthIndex axis.start + 2 ≤ monthIndex axis.stop := by
  rw [le_monthIndex_iff]
  have hfirst := monthTime_monthIndex_le axis.start
  have hnext := (Calendar.monthStart_succ (monthIndex axis.start)).2
  have hafter := (Calendar.monthStart_succ (monthIndex axis.start + 1)).2
  rw [add_assoc, one_add_one_eq_two] at hafter
  unfold TimeAxis.span at hspan
  unfold monthTime msPerDay at *
  linarith

/-- The intended step of an axis, in months. -/
theorem monthStep_bounds (hspan : 80 * msPerDay ≤ axis.span) {n : ℕ}
    (hle : n ≤ monthIndex axis.stop - monthIndex axis.start) :
    ((max 1 ((n + 11) / 12) : ℕ) : ℤ) ≤ (monthIndex axis.stop - monthIndex axis.start + 11) / 12 := by
  have htwo := two_le_months hspan
  omega

/-- A month that starts at the end or later is not before the last one. -/
theorem le_of_stop_le {i : ℤ} (h : axis.stop ≤ monthTime i) : monthIndex axis.stop ≤ i :=
  monthTime_strictMono.le_iff_le.mp ((monthTime_monthIndex_le _).trans h)

/-- A month after the last one starts at the end or later. -/
theorem stop_le_of_lt {i : ℤ} (h : monthIndex axis.stop < i) : axis.stop ≤ monthTime i :=
  (monthIndex_lt_iff.mp h).le

/-- The first months of an axis, thinned out, are good ticks exactly when the stop is not more than a step
after the last of them. -/
theorem goodTicks_thinned {n step : ℕ} {width : ℤ} (hn : 0 < n)
    (hle : n ≤ monthIndex axis.stop - monthIndex axis.start) (hstep : 0 < step) (hfew : n ≤ 12 * step)
    (hwidth : step ≤ width) :
    GoodTicks axis (fun ts => ∃ i, ts = monthTime i) (fun a b => b ≤ addMonths a width)
        ((List.range ((n - 1) / step + 1)).map fun k : ℕ =>
          monthTime (monthIndex axis.start + 1 + (k * step : ℕ))) ↔
      axis.stop ≤ monthTime (monthIndex axis.start + 1 + ((n - 1) / step * step : ℕ) + width) := by
  have hstepZ : (0 : ℤ) < step := by exact_mod_cast hstep
  -- two labels are a step apart, which is at most the intended width
  have hnear : ∀ k < (n - 1) / step, monthTime (monthIndex axis.start + 1 + ((k + 1) * step : ℕ)) ≤
      addMonths (monthTime (monthIndex axis.start + 1 + (k * step : ℕ))) width := by
    intro k _
    rw [addMonths_monthTime]
    refine monthTime_strictMono.monotone ?_
    push_cast
    linarith
  have hfirst : monthTime (monthIndex axis.start + 1 + (0 * step : ℕ)) ≤ addMonths axis.start width := by
    rw [Nat.zero_mul, Nat.cast_zero, add_zero]
    exact monthTime_succ_le_addMonths axis.start (by linarith)
  have hcovered : Covered (fun a b => b ≤ addMonths a width) axis.start
      ((List.range ((n - 1) / step + 1)).map fun k : ℕ =>
        monthTime (monthIndex axis.start + 1 + (k * step : ℕ))) axis.stop ↔ _ :=
    covered_map_range hnear
  constructor
  · intro hgood
    have hlast := (hcovered.mp hgood.covered).2
    rwa [addMonths_monthTime] at hlast
  · intro hstop
    refine ⟨?_, ?_, ?_, ?_, hcovered.mpr ⟨hfirst, ?_⟩⟩
    · rw [List.length_map, List.length_range]
      have hlt : (n - 1) / step < 12 := Nat.div_lt_of_lt_mul (by omega)
      omega
    · rw [List.pairwise_map]
      refine List.pairwise_lt_range.imp fun {a b} hab => monthTime_strictMono ?_
      have hlt : a * step < b * step := Nat.mul_lt_mul_of_pos_right hab hstep
      exact Int.add_lt_add_left (by exact_mod_cast hlt) _
    · intro ts hts
      obtain ⟨k, hk, rfl⟩ := List.mem_map.mp hts
      have hk : k * step ≤ n - 1 :=
        (Nat.le_div_iff_mul_le hstep).mp (Nat.le_of_lt_succ (List.mem_range.mp hk))
      have hk : ((k * step : ℕ) : ℤ) ≤ n - 1 := by
        have hk : ((k * step : ℕ) : ℤ) ≤ ((n - 1 : ℕ) : ℤ) := by exact_mod_cast hk
        rwa [Nat.cast_sub hn, Nat.cast_one] at hk
      exact ⟨(monthIndex_lt_iff.mp (by omega)).le, le_monthIndex_iff.mp (by omega)⟩
    · intro ts hts
      obtain ⟨k, -, rfl⟩ := List.mem_map.mp hts
      exact ⟨_, rfl⟩
    · rw [addMonths_monthTime]
      exact hstop

/-- The ticks of an axis whose listed months are known. -/
theorem monthTicks_eq {n : ℕ} (hn : 0 < n)
    (hall : listMonths axis.start axis.stop 60 (monthIndex axis.start / 12)
        (monthIndex axis.start % 12) =
      (List.range n).map fun k : ℕ => monthTime (monthIndex axis.start + 1 + k)) :
    monthTicks axis.start axis.stop =
      (List.range ((n - 1) / max 1 ((n + 11) / 12) + 1)).map fun k : ℕ =>
        monthTime (monthIndex axis.start + 1 + (k * max 1 ((n + 11) / 12) : ℕ)) := by
  have hstep : 0 < max 1 ((n + 11) / 12) := lt_of_lt_of_le one_pos (le_max_left _ _)
  have hcount : ∀ k, k < (n - 1) / max 1 ((n + 11) / 12) + 1 ↔ 0 + k * max 1 ((n + 11) / 12) < n := by
    intro k
    rw [Nat.lt_succ_iff, Nat.le_div_iff_mul_le hstep]
    omega
  have hturns : (n - 1) / max 1 ((n + 11) / 12) + 1 ≤ n := by
    have hle := Nat.div_le_self (n - 1) (max 1 ((n + 11) / 12))
    omega
  unfold monthTicks getUTCFullYear getUTCMonth
  rw [hall]
  dsimp only
  rw [List.length_map, List.length_range, everyNth_map_range _ hturns hcount]
  simp only [Nat.zero_add]

/-- A tick is a month that the loop sees. -/
theorem of_mem_monthTicks {ts : ℤ} (h : ts ∈ monthTicks axis.start axis.stop) :
    ∃ j, monthIndex axis.start ≤ j ∧ j < monthIndex axis.start + 60 ∧ ts = monthTime (shifted j) :=
  (of_mem_listMonths (mem_of_mem_everyNth h)).1

/-- Ticks that leave out as many months as the step do not cover the axis. -/
theorem not_covered {ticks : List ℤ} (lo : ℤ) {width : ℤ}
    (hgap : ∀ ts ∈ ticks, monthIndex ts < lo ∨ lo + width ≤ monthIndex ts)
    (hstart : monthIndex axis.start < lo) (hstop : lo + width ≤ monthIndex axis.stop) :
    ¬Covered (fun a b => b ≤ addMonths a width) axis.start ticks axis.stop := by
  intro hcovered
  have hnear : ∀ a b, b ≤ addMonths a width → monthIndex b ≤ monthIndex a + width := fun _ _ h =>
    monthIndex_le_of_le_addMonths h
  obtain ⟨ts, hts, hlo, hhi⟩ := hcovered.exists_mem hnear hstart hstop
  rcases hgap ts hts with hbefore | hafter
  · linarith
  · linarith

/-- Nor do ticks with a gap from `lo` to `hi`, and none from `top` on, if a step that is longer than the gap
ends on the axis after `top`. -/
theorem not_covered_apart {ticks : List ℤ} {lo hi top width : ℤ} (hstart : monthIndex axis.start < lo)
    (hlo : lo ≤ top) (hhi : hi ≤ monthIndex axis.stop)
    (hgap : ∀ ts ∈ ticks, monthIndex ts < lo ∨ hi ≤ monthIndex ts ∧ monthIndex ts < top)
    (hlong : hi < lo + width → top + width ≤ monthIndex axis.stop) :
    ¬Covered (fun a b => b ≤ addMonths a width) axis.start ticks axis.stop := by
  by_cases hshort : lo + width ≤ hi
  · refine not_covered lo (fun ts hts => ?_) hstart (hshort.trans hhi)
    exact (hgap ts hts).imp_right fun hafter => hshort.trans hafter.1
  · refine not_covered top (fun ts hts => Or.inl ?_) (hstart.trans_le hlo) (hlong (not_le.mp hshort))
    rcases hgap ts hts with hbefore | hafter
    · exact hbefore.trans_le hlo
    · exact hafter.2

/-- A long axis is not covered without a tick. -/
theorem not_covered_nil (hspan : 80 * msPerDay ≤ axis.span) :
    ¬Covered (fun a b => b ≤ addMonths a ((monthIndex axis.stop - monthIndex axis.start + 11) / 12))
      axis.start [] axis.stop := by
  have htwo := two_le_months hspan
  refine not_covered (monthIndex axis.start + 1) (fun _ h => absurd h List.not_mem_nil) ?_ ?_
  · omega
  · omega

/-- In the years 0 to 99 the first months are listed in the twentieth century, and those of later turns
before the year 105. -/
theorem not_covered_shifted (hspan : 80 * msPerDay ≤ axis.span)
    (hfirst : 0 ≤ monthIndex axis.start ∧ monthIndex axis.start < 1200) :
    ¬Covered (fun a b => b ≤ addMonths a ((monthIndex axis.stop - monthIndex axis.start + 11) / 12))
      axis.start (monthTicks axis.start axis.stop) axis.stop := by
  by_cases hstop : monthIndex axis.stop < monthIndex axis.start + 22800
  · have hnil : monthTicks axis.start axis.stop = [] := by
      unfold monthTicks getUTCFullYear getUTCMonth
      rw [listMonths_shifted axis 60 hfirst hstop]
      rfl
    rw [hnil]
    exact not_covered_nil hspan
  · have hmonths : ∀ ts ∈ monthTicks axis.start axis.stop,
        monthIndex ts < 1260 ∨ 22800 ≤ monthIndex ts ∧ monthIndex ts < 24000 := by
      intro ts hts
      obtain ⟨j, hlo, hhi, rfl⟩ := of_mem_monthTicks hts
      rw [monthIndex_monthTime]
      unfold shifted
      split_ifs <;> omega
    -- a short step leaves out the centuries in between, and a long one those after them
    exact not_covered_apart (by omega) (by norm_num) (by omega) hmonths (by omega)

/-- Before the year 0 the months up to it are listed. -/
theorem goodTicks_before_iff (hspan : 80 * msPerDay ≤ axis.span)
    (hfirst : monthIndex axis.start < 0) (hloop : 0 ≤ monthIndex axis.start + 59)
    (hlast : 0 ≤ monthIndex axis.stop) {n : ℕ} (hn : (n : ℤ) = -1 - monthIndex axis.start) :
    GoodTicks axis (fun ts => ∃ i, ts = monthTime i)
        (fun a b => b ≤ addMonths a ((monthIndex axis.stop - monthIndex axis.start + 11) / 12))
        (monthTicks axis.start axis.stop) ↔
      0 < n ∧ axis.stop ≤ monthTime (monthIndex axis.start + 1 +
        ((n - 1) / max 1 ((n + 11) / 12) * max 1 ((n + 11) / 12) : ℕ) +
        (monthIndex axis.stop - monthIndex axis.start + 11) / 12) := by
  by_cases hlate : monthIndex axis.stop < 22800
  · have hall : listMonths axis.start axis.stop 60 (monthIndex axis.start / 12)
        (monthIndex axis.start % 12) =
        (List.range n).map fun k : ℕ => monthTime (monthIndex axis.start + 1 + k) := by
      have hturns : 59 = n + (59 - n) := by omega
      have hzero : monthIndex axis.start + 1 + (n : ℤ) = 0 := by omega
      rw [listMonths_first axis 59 (by omega), hturns, listMonths_regular axis n _ (by omega) (by omega)
        (by omega), hzero, listMonths_shifted axis _ (by omega) (by omega), List.append_nil]
    by_cases hpos : 0 < n
    · have hwidth := monthStep_bounds hspan (by omega : (n : ℤ) ≤ _)
      rw [monthTicks_eq hpos hall, goodTicks_thinned hpos (by omega) (by omega) (by omega) hwidth]
      exact (and_iff_right hpos).symm
    · obtain rfl : n = 0 := by omega
      have hnil : monthTicks axis.start axis.stop = [] := by
        unfold monthTicks getUTCFullYear getUTCMonth
        rw [hall]
        rfl
      rw [hnil]
      exact iff_of_false (fun h => not_covered_nil hspan h.covered) fun h => absurd h.1 hpos
  · refine iff_of_false (fun h => ?_) fun h => ?_
    · have hmonths : ∀ ts ∈ monthTicks axis.start axis.stop,
          monthIndex ts < 0 ∨ 22800 ≤ monthIndex ts ∧ monthIndex ts < 22860 := by
        intro ts hts
        obtain ⟨j, hlo, hhi, rfl⟩ := of_mem_monthTicks hts
        rw [monthIndex_monthTime]
        unfold shifted
        split_ifs <;> omega
      exact not_covered_apart hfirst (by norm_num) (by omega) hmonths (by omega) h.covered
    -- the stop is in the twentieth century or later, which no label before the year 0 reaches in one step
    · have hle := le_of_stop_le h.2
      have hlabelled := Nat.div_mul_le_self (n - 1) (max 1 ((n + 11) / 12))
      generalize (n - 1) / max 1 ((n + 11) / 12) * max 1 ((n + 11) / 12) = labelled at hle hlabelled
      omega

/-- Of fifty-nine months the fifty-sixth is the last with a label. -/
theorem labelled_fiftyNine :
    (((59 - 1) / max 1 ((59 + 11) / 12) * max 1 ((59 + 11) / 12) : ℕ) : ℤ) = 55 := by decide

/-- Elsewhere the loop lists the next 59 months. -/
theorem goodTicks_regular_iff (hspan : 80 * msPerDay ≤ axis.span)
    (hregular : 1200 ≤ monthIndex axis.start ∨ monthIndex axis.start + 60 ≤ 0 ∨
      monthIndex axis.stop < 0) :
    GoodTicks axis (fun ts => ∃ i, ts = monthTime i)
        (fun a b => b ≤ addMonths a ((monthIndex axis.stop - monthIndex axis.start + 11) / 12))
        (monthTicks axis.start axis.stop) ↔
      axis.stop ≤ monthTime (monthIndex axis.start + 62) := by
  have htwo := two_le_months hspan
  obtain ⟨n, hn⟩ : ∃ n : ℕ, (n : ℤ) = min 59 (monthIndex axis.stop - monthIndex axis.start) :=
    ⟨(min 59 (monthIndex axis.stop - monthIndex axis.start)).toNat, Int.toNat_of_nonneg (by omega)⟩
  have hpos : 0 < n := by omega
  have hall : listMonths axis.start axis.stop 60 (monthIndex axis.start / 12)
      (monthIndex axis.start % 12) =
      (List.range n).map fun k : ℕ => monthTime (monthIndex axis.start + 1 + k) := by
    have hturns : 59 = n + (59 - n) := by omega
    have hrest : listMonths axis.start axis.stop (59 - n) ((monthIndex axis.start + 1 + n) / 12)
        ((monthIndex axis.start + 1 + n) % 12) = [] := by
      by_cases hfull : n = 59
      · subst hfull
        rfl
      · exact listMonths_after _ (by omega)
    rw [listMonths_first axis 59 (by omega), hturns, listMonths_regular axis n _ (by omega) (by omega)
      (by omega), hrest, List.append_nil]
  have hwidth := monthStep_bounds hspan (by omega : (n : ℤ) ≤ _)
  rw [monthTicks_eq hpos hall, goodTicks_thinned hpos (by omega) (by omega) (by omega) hwidth]
  by_cases hshort : monthIndex axis.stop - monthIndex axis.start ≤ 61
  · -- the last label is less than a step before the last month that is listed
    refine iff_of_true (stop_le_of_lt ?_) (stop_le_of_lt (by omega))
    by_cases hfull : n = 59
    · subst hfull
      rw [labelled_fiftyNine]
      omega
    · have hlabelled := Nat.lt_div_mul_add (a := n - 1) (b := max 1 ((n + 11) / 12)) (by omega)
      generalize (n - 1) / max 1 ((n + 11) / 12) * max 1 ((n + 11) / 12) = labelled at hlabelled
      omega
  · obtain rfl : n = 59 := by omega
    rw [labelled_fiftyNine]
    constructor
    · intro h
      have hle := le_of_stop_le h
      refine h.trans (monthTime_strictMono.monotone ?_)
      omega
    · intro h
      have hle := le_of_stop_le h
      refine h.trans (monthTime_strictMono.monotone ?_)
      omega

/-- The months of an axis of at least eighty days are covered exactly when they reach its stop. -/
theorem goodTicks_months_iff (hspan : 80 * msPerDay ≤ axis.span) :
    GoodTicks axis (fun ts => ∃ i, ts = monthTime i)
        (fun a b => b ≤ addMonths a (((axis.monthStarts + 11) / 12 : ℕ) : ℤ))
        (monthTicks axis.start axis.stop) ↔ MonthsReach axis := by
  rw [monthStep_eq]
  unfold MonthsReach
  dsimp only
  split_ifs with hshifted hbefore
  · exact iff_of_false (fun h => not_covered_shifted hspan hshifted h.covered) id
  · obtain ⟨hfirst, hloop, hlast⟩ := hbefore
    obtain ⟨n, hn⟩ : ∃ n : ℕ, (n : ℤ) = -1 - monthIndex axis.start :=
      ⟨(-1 - monthIndex axis.start).toNat, Int.toNat_of_nonneg (by omega)⟩
    rw [goodTicks_before_iff hspan hfirst hloop hlast hn, ← hn]
    by_cases hpos : 0 < n
    · refine and_congr Nat.cast_pos.symm ?_
      push_cast [Nat.cast_sub hpos]
      rfl
    · exact iff_of_false (fun h => hpos h.1) fun h => hpos (by exact_mod_cast h.1)
  · exact goodTicks_regular_iff hspan (by omega)

end Reach

/-! ## The axes that are covered

By the span of the axis, and for months by where the loop starts.
-/

/-- The ticks of an axis are in order, on it, aligned and close enough to each other, exactly when the loop
over the months reaches its stop and the years 0 to 99 are not met. -/
theorem timeTicksUTC_cover_iff (axis : TimeAxis) :
    TicksCover axis ((timeTicksUTC axis.start axis.stop).map Tick.ts) ↔ TicksReach axis := by
  unfold TicksCover TicksReach timeTicksUTC
  rw [max_one_span]
  dsimp only
  split_ifs with hmonths hdays
  · rw [List.map_map]
    exact (iff_of_eq (congrArg _ (List.map_id _))).trans (goodTicks_months_iff hmonths)
  · rw [List.map_map]
    exact (iff_of_eq (congrArg _ (List.map_id _))).trans (goodTicks_days_iff hdays (not_le.mp hmonths))
  · rw [List.map_map]
    exact iff_of_true ((congrArg _ (List.map_id _)).mpr (goodTicks_hours (not_le.mp hdays))) trivial

/-- The ten years from 2020 on. -/
def decade : TimeAxis where
  start := 1577836800000
  stop := 1893456000000
  start_lt_stop := by decide
  le_start := by decide
  stop_le := by decide

/-- The labels of ten years end in September 2024. -/
theorem decade_not_covered :
    ¬TicksCover decade ((timeTicksUTC decade.start decade.stop).map Tick.ts) := by
  have hspan : 80 * msPerDay ≤ decade.span := by decide
  have hmonths : (timeTicksUTC decade.start decade.stop).map Tick.ts =
      monthTicks decade.start decade.stop := by
    unfold timeTicksUTC
    rw [max_one_span]
    dsimp only
    rw [if_pos hspan, List.map_map]
    exact List.map_id _
  rw [hmonths]
  unfold TicksCover
  rw [if_pos hspan, goodTicks_months_iff hspan]
  have hfirst : monthIndex decade.start = 24240 := by decide
  have hreach : monthTime 24302 = 1740787200000 := by decide
  unfold MonthsReach
  dsimp only
  rw [hfirst, if_neg (by decide), if_neg (by decide)]
  norm_num [hreach, decade]

end Ghpulse.Web
