import Mathlib.Data.Int.ConditionallyCompleteOrder
import Mathlib.Order.Monotone.Basic
import Mathlib.Tactic.IntervalCases
import Mathlib.Tactic.Linarith

/-!
# The Gregorian calendar

Months are numbered across years: month `i` is month `i % 12` of the year `i / 12`, counted from zero. The
first days of the months increase strictly, so that every day lies in one month; it is found by the mean
length of a month, which is off by at most one.
-/

namespace Calendar

/-! ## Years

The rule for leap years is applied to every year, also to those before it was introduced.
-/

/-- The first day of a year, in days since the first day of 1970. -/
def yearStart (y : ℤ) : ℤ := 365 * (y - 1970) + (y - 1969) / 4 - (y - 1901) / 100 + (y - 1601) / 400

/-- Leap years have a day more. -/
def leapDay (y : ℤ) : ℤ := if y % 4 = 0 ∧ (y % 100 ≠ 0 ∨ y % 400 = 0) then 1 else 0

theorem leapDay_mem (y : ℤ) : 0 ≤ leapDay y ∧ leapDay y ≤ 1 := by
  unfold leapDay
  split_ifs <;> decide

theorem yearStart_succ (y : ℤ) : yearStart (y + 1) = yearStart y + 365 + leapDay y := by
  unfold yearStart leapDay
  split_ifs with hleap <;> omega

/-! ## Months

Two facts about the lengths of months are used: each is between 28 and 31 days, and together they stay
within five days of the mean.
-/

/-- The days of a common year before a month. -/
def daysBefore (m : ℤ) : ℤ := [0, 31, 59, 90, 120, 151, 181, 212, 243, 273, 304, 334].getD m.toNat 334

/-- The first day of a month. -/
def monthStart (i : ℤ) : ℤ :=
  yearStart (i / 12) + daysBefore (i % 12) + if 2 ≤ i % 12 then leapDay (i / 12) else 0

/-- The first of March in a leap year. -/
example : monthStart (12 * 2000 + 2) = 11017 := by decide

theorem monthStart_eq (y : ℤ) {m : ℤ} (h0 : 0 ≤ m) (h12 : m < 12) :
    monthStart (12 * y + m) = yearStart y + daysBefore m + if 2 ≤ m then leapDay y else 0 := by
  have hyear : (12 * y + m) / 12 = y := by omega
  have hmonth : (12 * y + m) % 12 = m := by omega
  rw [monthStart, hyear, hmonth]

/-- A month has 28 to 31 days. -/
theorem monthStart_succ (i : ℤ) :
    monthStart i + 28 ≤ monthStart (i + 1) ∧ monthStart (i + 1) ≤ monthStart i + 31 := by
  obtain ⟨y, m, h0, h12, rfl⟩ : ∃ y m : ℤ, 0 ≤ m ∧ m < 12 ∧ i = 12 * y + m :=
    ⟨i / 12, i % 12, by omega, by omega, by omega⟩
  rw [monthStart_eq y h0 h12]
  have hleap := leapDay_mem y
  by_cases hlast : m = 11
  · subst hlast
    have hnext : 12 * y + 11 + 1 = 12 * (y + 1) + 0 := by omega
    rw [hnext, monthStart_eq (y + 1) le_rfl (by norm_num), yearStart_succ]
    simp [daysBefore]
    omega
  · rw [add_assoc (12 * y), monthStart_eq y (by omega) (by omega)]
    have h11 : m < 11 := by omega
    interval_cases m <;> simp [daysBefore] <;> omega

theorem monthStart_strictMono : StrictMono monthStart :=
  strictMono_int_of_lt_succ fun i => by
    have h := (monthStart_succ i).1
    omega

/-- Months do not fall behind 28 days each. -/
theorem monthStart_add_natCast (i : ℤ) (n : ℕ) : monthStart i + 28 * n ≤ monthStart (i + n) := by
  induction n with
  | zero => simp
  | succ n ih =>
    have h := (monthStart_succ (i + n)).1
    push_cast
    rw [← add_assoc]
    linarith

/-- The first day of a month differs from the mean by less than five days. -/
theorem monthStart_mean (i : ℤ) :
    146097 * (i - 23640) - 24000 ≤ 4800 * monthStart i ∧
      4800 * monthStart i ≤ 146097 * (i - 23640) + 24000 := by
  obtain ⟨y, m, h0, h12, rfl⟩ : ∃ y m : ℤ, 0 ≤ m ∧ m < 12 ∧ i = 12 * y + m :=
    ⟨i / 12, i % 12, by omega, by omega, by omega⟩
  rw [monthStart_eq y h0 h12]
  have hdays : 146097 * m - 9000 ≤ 4800 * daysBefore m ∧ 4800 * daysBefore m ≤ 146097 * m + 3000 := by
    interval_cases m <;> simp [daysBefore]
  have hyear : 1753164 * (y - 1970) - 7000 ≤ 4800 * yearStart y ∧
      4800 * yearStart y ≤ 1753164 * (y - 1970) + 8000 := by
    unfold yearStart
    omega
  have hleap := leapDay_mem y
  split_ifs <;> omega

/-! ## The month of a day

An estimate from the mean length, corrected by one.
-/

/-- The month in which a day lies. -/
def monthOf (d : ℤ) : ℤ :=
  let i := 4800 * d / 146097 + 23640
  if d < monthStart i then i - 1 else if d < monthStart (i + 1) then i else i + 1

theorem monthOf_spec (d : ℤ) : monthStart (monthOf d) ≤ d ∧ d < monthStart (monthOf d + 1) := by
  have hlo := (monthStart_mean (4800 * d / 146097 + 23640 - 1)).2
  have hhi := (monthStart_mean (4800 * d / 146097 + 23640 + 1 + 1)).1
  unfold monthOf
  dsimp only
  split_ifs with hbefore hwithin
  · rw [sub_add_cancel]
    exact ⟨by omega, hbefore⟩
  · exact ⟨not_lt.mp hbefore, hwithin⟩
  · exact ⟨not_lt.mp hwithin, by omega⟩

/-- A month has begun exactly on the days of this and of later months. -/
theorem le_monthOf_iff {i d : ℤ} : i ≤ monthOf d ↔ monthStart i ≤ d := by
  obtain ⟨hle, hlt⟩ := monthOf_spec d
  constructor
  · intro h
    exact (monthStart_strictMono.monotone h).trans hle
  · intro h
    exact Int.lt_add_one_iff.mp (monthStart_strictMono.lt_iff_lt.mp (h.trans_lt hlt))

end Calendar
