import Ghpulse.Library.Coverage
import Ghpulse.Library.JsDate
import Mathlib.Data.Rat.Floor
import Mathlib.Data.Set.Card

/-!
# Axis ticks

The ticks of a time axis, at month starts, at midnights or at whole hours, depending on the span. Hours
and days cover every axis. Months do not: the loop over them ends after sixty turns, and `Date.UTC` takes
the years 0 to 99 for those of the twentieth century.

Reference: `src/dashboard-charts.jsx`.
-/

open Python Js Coverage

namespace Ghpulse.Web

/-! ## Labels

Only what the axis needs of the formatting of dates.
-/

/-- What `fmtDate` is asked for. -/
inductive DateStyle where
  | month
  | day
  | full
  | iso

/-- The names of the months. -/
def monthNames : List Str :=
  [lit "Jan", lit "Feb", lit "Mar", lit "Apr", lit "May", lit "Jun", lit "Jul", lit "Aug", lit "Sep",
    lit "Oct", lit "Nov", lit "Dec"]

/-- `fmtDate`. -/
def fmtDate (ts : ℤ) (style : DateStyle) : Str :=
  let month := monthNames.getD (getUTCMonth ts).toNat []
  match style with
  | .month => month ++ cp ' ' :: intText (getUTCFullYear ts)
  | .day => month ++ cp ' ' :: intText (getUTCDate ts)
  | .full => month ++ cp ' ' :: padded 2 (getUTCDate ts).toNat ++ cp ' ' ::
      padded 2 (getUTCHours ts).toNat ++ cp ':' :: padded 2 (getUTCMinutes ts).toNat
  | .iso => toISOString ts

/-! ## Ticks

Three loops, of which one is taken. Each gets a number of turns that is enough for it, so that it is
structural.
-/

/-- A tick and its label. -/
structure Tick where
  ts : ℤ
  label : Str
  deriving DecidableEq

/-- The loop over the months: those after the start are listed, and the first one after the stop ends it.
A `NaN` is neither. -/
def listMonths (start stop : ℤ) : ℕ → ℤ → ℤ → List ℤ
  | 0, _, _ => []
  | iterations + 1, year, month =>
    let ts := dateUTC year month 1
    if ts.any (fun ts => decide (stop < ts)) then []
    else
      ts.toList.filter (fun ts => decide (start < ts)) ++
        if 11 < month + 1 then listMonths start stop iterations (year + 1) 0
        else listMonths start stop iterations year (month + 1)

/-- The elements at an index and every `step` after it. -/
def everyNth (all : List ℤ) (step : ℕ) : ℕ → ℕ → List ℤ
  | 0, _ => []
  | turns + 1, index =>
    match all[index]? with
    | none => []
    | some ts => ts :: everyNth all step turns (index + step)

/-- `while (ts <= end) { …; ts += step; }`. -/
def stepsUpTo (stop step : ℤ) : ℕ → ℤ → List ℤ
  | 0, _ => []
  | turns + 1, ts => if ts ≤ stop then ts :: stepsUpTo stop step turns (ts + step) else []

/-- Turns that are enough to pass the stop. -/
def turnsTo (stop step ts : ℤ) : ℕ := ((stop - ts) / step + 1).toNat

/-- `stepDays`. -/
def stepDays (span : ℤ) : ℤ :=
  if 50 * msPerDay < span then 7 else if 25 * msPerDay < span then 4
  else if 12 * msPerDay < span then 2 else 1

/-- `stepHours`. -/
def stepHours (span : ℤ) : ℤ :=
  if 36 * msPerHour < span then 6 else if 18 * msPerHour < span then 3
  else if 8 * msPerHour < span then 2 else 1

/-- The month starts of `timeTicksUTC`. -/
def monthTicks (start stop : ℤ) : List ℤ :=
  let all := listMonths start stop 60 (getUTCFullYear start) (getUTCMonth start)
  everyNth all (max 1 ((all.length + 11) / 12)) all.length 0

/-- The midnights of `timeTicksUTC`. -/
def dayTicks (start stop : ℤ) : List ℤ :=
  let step := stepDays (max 1 (stop - start)) * msPerDay
  match dateUTC (getUTCFullYear start) (getUTCMonth start) (getUTCDate start) with
  | none => []
  | some ts => (stepsUpTo stop step (turnsTo stop step ts) ts).filter fun ts => decide (start < ts)

/-- The hours of `timeTicksUTC`. -/
def hourTicks (start stop : ℤ) : List ℤ :=
  let step := stepHours (max 1 (stop - start)) * msPerHour
  let ts := ⌈(start : ℚ) / step⌉ * step
  stepsUpTo stop step (turnsTo stop step ts) ts

/-- `timeTicksUTC`. -/
def timeTicksUTC (start stop : ℤ) : List Tick :=
  let span := max 1 (stop - start)
  if 80 * msPerDay ≤ span then
    (monthTicks start stop).map fun ts => ⟨ts, fmtDate ts .month⟩
  else if 3 * msPerDay ≤ span then
    (dayTicks start stop).map fun ts => ⟨ts, fmtDate ts .day⟩
  else
    (hourTicks start stop).map fun ts => ⟨ts, padded 2 (getUTCHours ts).toNat ++ lit ":00"⟩

/-! ## Coverage of an axis

Ticks cover an axis when no stretch of it is longer than the step without one. For months the step is a
number of months, since they differ in length.
-/

/-- A time axis, from one time value to a later one. -/
structure TimeAxis where
  start : ℤ
  stop : ℤ
  start_lt_stop : start < stop
  le_start : -maxTime ≤ start
  stop_le : stop ≤ maxTime

/-- The length of an axis. -/
def TimeAxis.span (axis : TimeAxis) : ℤ := axis.stop - axis.start

/-- The same moment of a later month, or the last one of that month where it has no such moment. -/
def addMonths (ts months : ℤ) : ℤ :=
  min (monthTime (monthIndex ts + months) + (ts - monthTime (monthIndex ts)))
    (monthTime (monthIndex ts + months + 1) - 1)

/-- The number of month starts after the start of an axis, up to its stop. -/
noncomputable def TimeAxis.monthStarts (axis : TimeAxis) : ℕ :=
  Set.ncard {ts | axis.start < ts ∧ ts ≤ axis.stop ∧ ∃ i, ts = monthTime i}

/-- What ticks should be: few, in order, on the axis, aligned, and without a stretch that is not
labelled. -/
structure GoodTicks (axis : TimeAxis) (aligned : ℤ → Prop) (near : ℤ → ℤ → Prop) (ticks : List ℤ) :
    Prop where
  few : ticks.length ≤ 13
  increasing : ticks.Pairwise (· < ·)
  inside : ∀ ts ∈ ticks, axis.start ≤ ts ∧ ts ≤ axis.stop
  aligned : ∀ ts ∈ ticks, aligned ts
  covered : Covered near axis.start ticks axis.stop

/-- The ticks are good for the step that is intended for the span. -/
def TicksCover (axis : TimeAxis) (ticks : List ℤ) : Prop :=
  if 80 * msPerDay ≤ axis.span then
    GoodTicks axis (fun ts => ∃ i, ts = monthTime i)
      (fun a b => b ≤ addMonths a (((axis.monthStarts + 11) / 12 : ℕ) : ℤ)) ticks
  else if 3 * msPerDay ≤ axis.span then
    GoodTicks axis (fun ts => msPerDay ∣ ts) (fun a b => b - a ≤ stepDays axis.span * msPerDay) ticks
  else
    GoodTicks axis (fun ts => msPerHour ∣ ts) (fun a b => b - a ≤ stepHours axis.span * msPerHour) ticks

/-! ## The axes that are covered

The exact condition, by cases on the span as the source has them. For axes of months it says how far the
sixty turns of the loop reach.
-/

/-- The months of an axis are covered: five years and two months where the loop meets no year from 0 to 99,
and hardly anything where it runs into one. -/
def MonthsReach (axis : TimeAxis) : Prop :=
  let first := monthIndex axis.start
  let last := monthIndex axis.stop
  if 0 ≤ first ∧ first < 1200 then False
  else if first < 0 ∧ 0 ≤ first + 59 ∧ 0 ≤ last then
    -- the months before the year 0 that are listed, and the last of them that is labelled
    let listed := -1 - first
    let labelled := first + 1 + (listed - 1) / max 1 ((listed + 11) / 12) * max 1 ((listed + 11) / 12)
    0 < listed ∧ axis.stop ≤ monthTime (labelled + (last - first + 11) / 12)
  else axis.stop ≤ monthTime (first + 62)

/-- The axes that the ticks cover. -/
def TicksReach (axis : TimeAxis) : Prop :=
  if 80 * msPerDay ≤ axis.span then MonthsReach axis
  else if 3 * msPerDay ≤ axis.span then
    ¬(0 ≤ getUTCFullYear axis.start ∧ getUTCFullYear axis.start ≤ 99)
  else True

/-! ## Regular steps

Hours and days are steps of a fixed length, so one lemma serves both: what remains is where the first step
is.
-/

section Steps

variable {stop step ts : ℤ}

/-- The turns are those in which the loop goes on. -/
theorem lt_turnsTo_iff (hstep : 0 < step) {k : ℕ} : k < turnsTo stop step ts ↔ ts + k * step ≤ stop := by
  unfold turnsTo
  rw [Int.lt_toNat, Int.lt_add_one_iff, Int.le_ediv_iff_mul_le hstep]
  omega

/-- As long as the loop goes on, it steps. -/
theorem stepsUpTo_eq {n : ℕ} (h : ∀ k < n, ts + (k : ℕ) * step ≤ stop) :
    stepsUpTo stop step n ts = (List.range n).map fun k : ℕ => ts + k * step := by
  induction n generalizing ts with
  | zero => rfl
  | succ n ih =>
    have hfirst : ts ≤ stop := by simpa using h 0 n.succ_pos
    have hrest : ∀ k < n, ts + step + (k : ℕ) * step ≤ stop := fun k hk => by
      have hle := h (k + 1) (Nat.succ_lt_succ hk)
      push_cast at hle
      linarith
    rw [stepsUpTo, if_pos hfirst, ih hrest, map_range_succ]
    congr 1
    · simp
    · refine List.map_congr_left fun k _ => ?_
      push_cast
      ring

theorem stepsUpTo_eq_nil {n : ℕ} (h : stop < ts) : stepsUpTo stop step n ts = [] := by
  cases n with
  | zero => rfl
  | succ n => rw [stepsUpTo, if_neg (not_le.mpr h)]

/-- Steps that begin on the axis, and not later than a step after its start, are good ticks. -/
theorem goodTicks_steps {axis : TimeAxis} {unit : ℤ} (hstep : 0 < step) (hlo : axis.start ≤ ts)
    (hhi : ts - axis.start ≤ step) (hts : unit ∣ ts) (hunit : unit ∣ step)
    (hfew : axis.stop - ts < 13 * step) :
    GoodTicks axis (fun ts => unit ∣ ts) (fun a b => b - a ≤ step)
      (stepsUpTo axis.stop step (turnsTo axis.stop step ts) ts) := by
  have hturns {k : ℕ} : k < turnsTo axis.stop step ts ↔ ts + k * step ≤ axis.stop :=
    lt_turnsTo_iff hstep
  rw [stepsUpTo_eq fun k hk => hturns.mp hk]
  refine ⟨?_, ?_, ?_, ?_, ?_⟩
  -- a fourteenth tick would be past the end of the axis
  · rw [List.length_map, List.length_range]
    by_contra hmany
    have hle := hturns.mp (not_le.mp hmany)
    push_cast at hle
    linarith
  · rw [List.pairwise_map]
    refine List.pairwise_lt_range.imp fun {a b} hab => ?_
    have hlt : (a : ℤ) * step < b * step := mul_lt_mul_of_pos_right (by exact_mod_cast hab) hstep
    linarith
  · intro x hx
    obtain ⟨k, hk, rfl⟩ := List.mem_map.mp hx
    have hnonneg : 0 ≤ (k : ℤ) * step := by positivity
    exact ⟨by linarith, hturns.mp (List.mem_range.mp hk)⟩
  · intro x hx
    obtain ⟨k, -, rfl⟩ := List.mem_map.mp hx
    exact hts.add (hunit.mul_left k)
  · cases hn : turnsTo axis.stop step ts with
    | zero =>
      have hpast : ¬ts + (0 : ℕ) * step ≤ axis.stop := fun h => by
        have hlt := hturns.mpr h
        rw [hn] at hlt
        exact absurd hlt (Nat.lt_irrefl 0)
      rw [Nat.cast_zero, zero_mul, add_zero, not_le] at hpast
      refine covered_nil.mpr ?_
      linarith
    | succ n =>
      refine (covered_map_range fun k _ => ?_).mpr ⟨?_, ?_⟩
      · push_cast
        linarith
      · rw [Nat.cast_zero, zero_mul, add_zero]
        exact hhi
      · -- the next step is past the stop
        have hpast : ¬ts + (n + 1 : ℕ) * step ≤ axis.stop := fun h => by
          have hlt := hturns.mpr h
          rw [hn] at hlt
          exact absurd hlt (Nat.lt_irrefl _)
        push_cast at hpast
        linarith

end Steps

/-! ## Hours

The first tick is the first multiple of the step from the start on.
-/

/-- The first multiple from the start on. -/
theorem ceil_div_mul (start : ℤ) {step : ℤ} (hstep : 0 < step) :
    start ≤ ⌈(start : ℚ) / step⌉ * step ∧ ⌈(start : ℚ) / step⌉ * step < start + step := by
  have hpos : (0 : ℚ) < step := by exact_mod_cast hstep
  have hle := Int.le_ceil ((start : ℚ) / step)
  have hlt := Int.ceil_lt_add_one ((start : ℚ) / step)
  rw [div_le_iff₀ hpos] at hle
  rw [← sub_lt_iff_lt_add, lt_div_iff₀ hpos, sub_one_mul, sub_lt_iff_lt_add] at hlt
  exact ⟨by exact_mod_cast hle, by exact_mod_cast hlt⟩

theorem max_one_span (axis : TimeAxis) : max 1 (axis.stop - axis.start) = axis.span :=
  max_eq_right (Int.add_one_le_iff.mpr (sub_pos.mpr axis.start_lt_stop))

/-- Whole hours cover every axis of less than three days. -/
theorem goodTicks_hours {axis : TimeAxis} (hspan : axis.span < 3 * msPerDay) :
    GoodTicks axis (fun ts => msPerHour ∣ ts) (fun a b => b - a ≤ stepHours axis.span * msPerHour)
      (hourTicks axis.start axis.stop) := by
  have hsteps : 0 < stepHours axis.span ∧ axis.span < 13 * (stepHours axis.span * msPerHour) := by
    unfold stepHours msPerHour at *
    unfold msPerDay at hspan
    split_ifs <;> omega
  have hpos : 0 < stepHours axis.span * msPerHour := Int.mul_pos hsteps.1 (by decide)
  obtain ⟨hlo, hhi⟩ := ceil_div_mul axis.start hpos
  unfold hourTicks
  rw [max_one_span]
  have hspan_eq : axis.span = axis.stop - axis.start := rfl
  refine goodTicks_steps hpos hlo (by linarith) ?_ (Int.dvd_mul_left _ _) (by linarith)
  exact (Int.dvd_mul_left _ _).mul_left _

/-! ## Days

The first tick is a step after the midnight of the start. `Date.UTC` gives this midnight except in the
years 0 to 99.
-/

/-- The midnight of a day is a time value. -/
theorem dateUTC_today {ts : ℤ} (hlo : -maxTime ≤ ts) (hhi : ts ≤ maxTime)
    (hyear : ¬(0 ≤ getUTCFullYear ts ∧ getUTCFullYear ts ≤ 99)) :
    dateUTC (getUTCFullYear ts) (getUTCMonth ts) (getUTCDate ts) =
      some (ts / msPerDay * msPerDay) := by
  have hshift : shifted (monthIndex ts) = monthIndex ts := by
    unfold shifted
    unfold getUTCFullYear at hyear
    exact if_neg (by omega)
  have hmidnight : monthTime (monthIndex ts) + (getUTCDate ts - 1) * msPerDay =
      ts / msPerDay * msPerDay := by
    unfold monthTime getUTCDate
    ring
  unfold getUTCFullYear getUTCMonth
  rw [dateUTC_month, hshift, hmidnight]
  unfold maxTime msPerDay at *
  exact timeClip_eq (by unfold maxTime; omega) (by unfold maxTime; omega)

/-- The midnights that are listed begin a step after the day of the start. -/
theorem dayTicks_eq {axis : TimeAxis}
    (hyear : ¬(0 ≤ getUTCFullYear axis.start ∧ getUTCFullYear axis.start ≤ 99)) {step : ℤ}
    (hstep : step = stepDays axis.span * msPerDay) (hday : msPerDay ≤ step) :
    dayTicks axis.start axis.stop =
      stepsUpTo axis.stop step (turnsTo axis.stop step (axis.start / msPerDay * msPerDay + step))
        (axis.start / msPerDay * msPerDay + step) := by
  have hpos : 0 < step := lt_of_lt_of_le (by decide) hday
  have hlo : axis.start / msPerDay * msPerDay ≤ axis.start := Int.ediv_mul_le _ (by decide)
  have hhi : axis.start < axis.start / msPerDay * msPerDay + step := by
    unfold msPerDay at *
    omega
  unfold dayTicks
  rw [max_one_span, ← hstep, dateUTC_today axis.le_start
    (axis.start_lt_stop.le.trans axis.stop_le) hyear]
  dsimp only
  set ts := axis.start / msPerDay * msPerDay
  have hturns : turnsTo axis.stop step ts = turnsTo axis.stop step (ts + step) + 1 := by
    have hle : ts ≤ axis.stop := hlo.trans axis.start_lt_stop.le
    have hnonneg : 0 ≤ (axis.stop - ts) / step := Int.ediv_nonneg (by linarith) hpos.le
    have hsub : (axis.stop - (ts + step)) / step = (axis.stop - ts) / step - 1 := by
      rw [← sub_sub, Int.sub_ediv_of_dvd _ (dvd_refl step), Int.ediv_self hpos.ne']
    unfold turnsTo
    omega
  rw [hturns, stepsUpTo, if_pos (hlo.trans axis.start_lt_stop.le),
    List.filter_cons_of_neg (by simpa using hlo)]
  refine List.filter_eq_self.mpr fun x hx => decide_eq_true ?_
  rw [stepsUpTo_eq fun k hk => (lt_turnsTo_iff hpos).mp hk] at hx
  obtain ⟨k, -, rfl⟩ := List.mem_map.mp hx
  have hnonneg : 0 ≤ (k : ℤ) * step := by positivity
  linarith

/-- The step is short enough for the span, and the steps are few. -/
theorem stepDays_bounds {span : ℤ} (hlo : 3 * msPerDay ≤ span) (hhi : span < 80 * msPerDay) :
    1 ≤ stepDays span ∧ stepDays span * msPerDay < span ∧
      span + msPerDay < 14 * (stepDays span * msPerDay) := by
  unfold stepDays
  unfold msPerDay at *
  split_ifs <;> omega

/-- In a year that `Date.UTC` shifts, the day of the start lies past the stop. -/
theorem dayTicks_eq_nil {axis : TimeAxis} (hspan : axis.span < 80 * msPerDay)
    (hyear : 0 ≤ getUTCFullYear axis.start ∧ getUTCFullYear axis.start ≤ 99) :
    dayTicks axis.start axis.stop = [] := by
  set i := monthIndex axis.start with hi
  have hshift : shifted i = i + 1 + (22799 : ℕ) := by
    unfold shifted
    unfold getUTCFullYear at hyear
    rw [if_pos (by omega)]
    push_cast
    ring
  have hdate : 1 ≤ getUTCDate axis.start := by
    have hle := (Calendar.monthOf_spec (axis.start / msPerDay)).1
    unfold getUTCDate monthIndex
    linarith
  have hpast : axis.stop < monthTime (shifted i) + (getUTCDate axis.start - 1) * msPerDay := by
    have hnext : axis.start < monthTime (i + 1) := lt_monthTime_succ axis.start
    have hlate := Calendar.monthStart_add_natCast (i + 1) 22799
    have hspan_eq : axis.span = axis.stop - axis.start := rfl
    rw [hshift]
    unfold monthTime msPerDay at *
    push_cast at hlate ⊢
    linarith
  have hdateUTC := dateUTC_month i (getUTCDate axis.start)
  unfold dayTicks
  unfold getUTCFullYear getUTCMonth
  rw [← hi, hdateUTC]
  cases hclip : timeClip (monthTime (shifted i) + (getUTCDate axis.start - 1) * msPerDay) with
  | none => rfl
  | some ts =>
    rw [← eq_of_timeClip hclip] at hpast
    dsimp only
    rw [stepsUpTo_eq_nil hpast, List.filter_nil]

/-- Midnights cover the axes of three to eighty days that do not begin in the years 0 to 99. -/
theorem goodTicks_days_iff {axis : TimeAxis} (hlo : 3 * msPerDay ≤ axis.span)
    (hhi : axis.span < 80 * msPerDay) :
    GoodTicks axis (fun ts => msPerDay ∣ ts) (fun a b => b - a ≤ stepDays axis.span * msPerDay)
        (dayTicks axis.start axis.stop) ↔
      ¬(0 ≤ getUTCFullYear axis.start ∧ getUTCFullYear axis.start ≤ 99) := by
  obtain ⟨hone, hshort, hfew⟩ := stepDays_bounds hlo hhi
  have hspan_eq : axis.span = axis.stop - axis.start := rfl
  constructor
  · intro hgood hyear
    have hcovered := hgood.covered
    rw [dayTicks_eq_nil hhi hyear, covered_nil] at hcovered
    linarith
  · intro hyear
    have hday : msPerDay ≤ stepDays axis.span * msPerDay :=
      le_mul_of_one_le_left (by decide) hone
    have hmidnight : axis.start / msPerDay * msPerDay ≤ axis.start ∧
        axis.start < axis.start / msPerDay * msPerDay + msPerDay := by
      unfold msPerDay
      omega
    rw [dayTicks_eq hyear rfl hday]
    refine goodTicks_steps (lt_of_lt_of_le (by decide) hday) (by linarith) (by linarith) ?_
      (Int.dvd_mul_left _ _) (by linarith)
    exact (Int.dvd_mul_left _ _).add (Int.dvd_mul_left _ _)

end Ghpulse.Web
