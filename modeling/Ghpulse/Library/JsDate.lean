import Ghpulse.Library.Calendar
import Ghpulse.Library.PyTime

/-!
# JavaScript dates

A time value is a number of milliseconds since the first day of 1970, and is at most a hundred million days
away from it. `Date.UTC` counts a year from 0 to 99 from 1900.
-/

open Python Calendar

namespace Js

/-- The milliseconds of an hour. -/
def msPerHour : ℤ := 3600000

/-- The milliseconds of a day. -/
def msPerDay : ℤ := 86400000

/-- The last time value. -/
def maxTime : ℤ := 8640000000000000

/-- A number of milliseconds as a time value; nothing stands for `NaN`. -/
def timeClip (t : ℤ) : Option ℤ := if |t| ≤ maxTime then some t else none

/-! ## Months

The parts of a date are those of its day. `Date.UTC` may be given a month outside the year, and carries.
-/

/-- The month of a time, counted across years. -/
def monthIndex (t : ℤ) : ℤ := monthOf (t / msPerDay)

/-- The first midnight of a month. -/
def monthTime (i : ℤ) : ℤ := monthStart i * msPerDay

/-- `getUTCFullYear`. -/
def getUTCFullYear (t : ℤ) : ℤ := monthIndex t / 12

/-- `getUTCMonth`. -/
def getUTCMonth (t : ℤ) : ℤ := monthIndex t % 12

/-- `getUTCDate`. -/
def getUTCDate (t : ℤ) : ℤ := t / msPerDay - monthStart (monthIndex t) + 1

/-- `getUTCHours`. -/
def getUTCHours (t : ℤ) : ℤ := t % msPerDay / msPerHour

/-- `getUTCMinutes`. -/
def getUTCMinutes (t : ℤ) : ℤ := t % msPerHour / 60000

/-- The year that `Date.UTC` makes of its first argument. -/
def fullYear (year : ℤ) : ℤ := if 0 ≤ year ∧ year ≤ 99 then 1900 + year else year

/-- `Date.UTC(year, month, date)`. -/
def dateUTC (year month date : ℤ) : Option ℤ :=
  timeClip ((monthStart (12 * fullYear year + month) + date - 1) * msPerDay)

/-- `toISOString`; a year of more than four digits has a sign and six digits. -/
def toISOString (t : ℤ) : Str :=
  let year := getUTCFullYear t
  (if 0 ≤ year ∧ year ≤ 9999 then padded 4 year.toNat
    else cp (if year < 0 then '-' else '+') :: padded 6 year.natAbs) ++
    cp '-' :: padded 2 (getUTCMonth t + 1).toNat ++ cp '-' :: padded 2 (getUTCDate t).toNat ++
    cp 'T' :: padded 2 (getUTCHours t).toNat ++ cp ':' :: padded 2 (getUTCMinutes t).toNat ++
    cp ':' :: padded 2 (t % 60000 / 1000).toNat ++ cp '.' :: padded 3 (t % 1000).toNat ++ [cp 'Z']

example : toISOString (-1) = lit "1969-12-31T23:59:59.999Z" := by decide

/-- A month has begun exactly from its first midnight on. -/
theorem le_monthIndex_iff {i t : ℤ} : i ≤ monthIndex t ↔ monthTime i ≤ t := by
  unfold monthIndex monthTime
  rw [le_monthOf_iff]
  exact Int.le_ediv_iff_mul_le (by decide)

/-- An instant is in an earlier month when it is before the month. -/
theorem monthIndex_lt_iff {i t : ℤ} : monthIndex t < i ↔ t < monthTime i := by
  rw [← not_le, ← not_le, le_monthIndex_iff]

/-- Later months start later. -/
theorem monthTime_strictMono : StrictMono monthTime := fun _ _ h =>
  Int.mul_lt_mul_of_pos_right (monthStart_strictMono h) (by decide)

/-- A month starts no later than its instants. -/
theorem monthTime_monthIndex_le (t : ℤ) : monthTime (monthIndex t) ≤ t := le_monthIndex_iff.mp le_rfl

/-- The next month starts after them. -/
theorem lt_monthTime_succ (t : ℤ) : t < monthTime (monthIndex t + 1) :=
  monthIndex_lt_iff.mp (Int.lt_succ_self _)

/-- A month starts in itself. -/
@[simp] theorem monthIndex_monthTime (i : ℤ) : monthIndex (monthTime i) = i := by
  refine le_antisymm ?_ (le_monthIndex_iff.mpr le_rfl)
  rw [← Int.lt_add_one_iff, monthIndex_lt_iff]
  exact monthTime_strictMono (Int.lt_succ_self i)

/-- A time that is a time value stays one. -/
theorem timeClip_eq {t : ℤ} (hlo : -maxTime ≤ t) (hhi : t ≤ maxTime) : timeClip t = some t :=
  if_pos (abs_le.mpr ⟨hlo, hhi⟩)

/-- Clipping keeps an instant that is in range. -/
theorem eq_of_timeClip {t t' : ℤ} (h : timeClip t = some t') : t' = t := by
  unfold timeClip at h
  split_ifs at h
  exact (Option.some.inj h).symm

/-- The month that `Date.UTC` makes of a month. -/
def shifted (i : ℤ) : ℤ := if 0 ≤ i ∧ i < 1200 then i + 22800 else i

/-- `Date.UTC` counts from the start of the month, shifted for years below 100. -/
theorem dateUTC_month (i date : ℤ) :
    dateUTC (i / 12) (i % 12) date = timeClip (monthTime (shifted i) + (date - 1) * msPerDay) := by
  have hmonth : 12 * fullYear (i / 12) + i % 12 = shifted i := by
    unfold fullYear shifted
    split_ifs <;> omega
  unfold dateUTC monthTime
  rw [hmonth, add_sub_assoc, Int.add_mul]

end Js
