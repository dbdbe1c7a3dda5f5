import Ghpulse.Library.Binary64
import Ghpulse.Library.PyStr

/-!
# Python datetimes

An aware UTC `datetime` is a number of microseconds since the Unix epoch. `total_seconds` is a `float`,
so `int(total_seconds())` is the floor of the seconds only while the fraction survives the rounding to
53 bits: it never falls behind the floor, and it carries to the next second for some instants that are
less than a unit in the last place before it.
-/

namespace Python

/-! ## Text

Only what is needed to know what the text of a datetime starts and ends with.
-/

/-- `d` decimal digits, with leading zeros. -/
def padded : ℕ → ℕ → Str
  | 0, _ => []
  | d + 1, n => padded d (n / 10) ++ [digitChar (n % 10)]

/-- Year, month and day of a day since the epoch, in the proleptic Gregorian calendar. Years start in
March while counting, so that the leap day is the last one. -/
def civil (days : ℤ) : ℤ × ℕ × ℕ :=
  let z := days + 719468
  let era := z / 146097
  let dayOfEra := (z % 146097).toNat
  let yearOfEra := (dayOfEra - dayOfEra / 1460 + dayOfEra / 36524 - dayOfEra / 146096) / 365
  let dayOfYear := dayOfEra - (365 * yearOfEra + yearOfEra / 4 - yearOfEra / 100)
  let m := (5 * dayOfYear + 2) / 153
  let month := if m < 10 then m + 3 else m - 9
  (yearOfEra + era * 400 + (if month ≤ 2 then 1 else 0), month, dayOfYear - (153 * m + 2) / 5 + 1)

/-- `datetime.isoformat()` of a UTC datetime. -/
def isoformat (instant : ℤ) : Str :=
  let seconds := instant / 1000000
  let micros := (instant % 1000000).toNat
  let (year, month, day) := civil (seconds / 86400)
  let ofDay := (seconds % 86400).toNat
  padded 4 year.toNat ++ cp '-' :: padded 2 month ++ cp '-' :: padded 2 day ++
    cp 'T' :: padded 2 (ofDay / 3600) ++ cp ':' :: padded 2 (ofDay / 60 % 60) ++
    cp ':' :: padded 2 (ofDay % 60) ++
    (if micros = 0 then [] else cp '.' :: padded 6 micros) ++ lit "+00:00"

example : isoformat 951868799000001 = lit "2000-02-29T23:59:59.000001+00:00" := by decide

/-! ## Seconds

The rounding to a `float` is where whole seconds can go wrong. The floor is reached exactly below `2 ^ 34`
seconds, and a carry is at most one second.
-/

/-- `timedelta.total_seconds()`. -/
def totalSeconds (delta : ℤ) : ℚ := Binary64.nearest ((delta : ℚ) / 1000000)

/-- `int(delta.total_seconds())`. -/
def wholeSeconds (delta : ℤ) : ℤ := truncate (totalSeconds delta)

section WholeSeconds

variable {delta : ℤ}

theorem abs_seconds_lt (h0 : 0 ≤ delta) {k : ℤ} (h : delta < k * 1000000) :
    |(delta : ℚ) / 1000000| < k := by
  have h0 : (0 : ℚ) ≤ delta := by exact_mod_cast h0
  have h : (delta : ℚ) < k * 1000000 := by exact_mod_cast h
  rw [abs_of_nonneg (by positivity), div_lt_iff₀ (by norm_num)]
  exact h

theorem wholeSeconds_of_nonneg (h0 : 0 ≤ delta) (h : delta < 2 ^ 53 * 1000000) :
    wholeSeconds delta = ⌊totalSeconds delta⌋ := by
  have hq : (0 : ℚ) ≤ delta := by exact_mod_cast h0
  have hx := abs_seconds_lt h0 h
  push_cast at hx
  have hle : ((0 : ℤ) : ℚ) ≤ totalSeconds delta :=
    Binary64.le_nearest hx (by push_cast; positivity)
  unfold wholeSeconds truncate
  rw [if_pos (by exact_mod_cast hle)]

/-- The whole seconds do not fall behind the floor. -/
theorem le_wholeSeconds (h0 : 0 ≤ delta) (h : delta < 2 ^ 53 * 1000000) :
    delta / 1000000 ≤ wholeSeconds delta := by
  have hx := abs_seconds_lt h0 h
  push_cast at hx
  rw [wholeSeconds_of_nonneg h0 h, Int.le_floor]
  refine Binary64.le_nearest hx ?_
  rw [le_div_iff₀ (by norm_num)]
  have hfloor : delta / 1000000 * 1000000 ≤ delta := by omega
  exact_mod_cast hfloor

/-- … and are less than a second ahead. -/
theorem wholeSeconds_lt (h0 : 0 ≤ delta) (h : delta < 2 ^ 53 * 1000000) :
    wholeSeconds delta * 1000000 < delta + 1000000 := by
  have hx := abs_seconds_lt h0 h
  push_cast at hx
  have hceil : (delta : ℚ) / 1000000 ≤ ((delta + 999999) / 1000000 : ℤ) := by
    rw [div_le_iff₀ (by norm_num)]
    have hle : delta ≤ (delta + 999999) / 1000000 * 1000000 := by omega
    exact_mod_cast hle
  have hle : totalSeconds delta ≤ ((delta + 999999) / 1000000 : ℤ) := Binary64.nearest_le hx hceil
  have hfloor : wholeSeconds delta ≤ (delta + 999999) / 1000000 := by
    rw [wholeSeconds_of_nonneg h0 h]
    exact_mod_cast (Int.floor_le _).trans hle
  omega

theorem wholeSeconds_mono {a b : ℤ} (ha : 0 ≤ a) (h : a ≤ b) : wholeSeconds a ≤ wholeSeconds b := by
  refine truncate_mono (Binary64.nearest_mono ?_ ?_)
  · have ha : (0 : ℚ) ≤ a := by exact_mod_cast ha
    positivity
  · have h : (a : ℚ) ≤ b := by exact_mod_cast h
    exact div_le_div_of_nonneg_right h (by norm_num)

/-- Below `2 ^ 34` seconds half a unit is less than a microsecond, and nothing is carried. -/
theorem wholeSeconds_eq (h0 : 0 ≤ delta) (h : delta < 2 ^ 34 * 1000000) :
    wholeSeconds delta = delta / 1000000 := by
  have hsmall : delta < 2 ^ 53 * 1000000 := h.trans (by norm_num)
  refine le_antisymm ?_ (le_wholeSeconds h0 hsmall)
  by_cases hzero : delta = 0
  · subst hzero
    have hlt : wholeSeconds 0 * 1000000 < 0 + 1000000 := wholeSeconds_lt le_rfl (by norm_num)
    omega
  · have hne : (delta : ℚ) / 1000000 ≠ 0 := div_ne_zero (by exact_mod_cast hzero) (by norm_num)
    have hx := abs_seconds_lt h0 h
    push_cast at hx
    have hulp := Binary64.ulp_le (k := 34) hne (by exact_mod_cast hx)
    have herror := (abs_le.mp (Binary64.abs_nearest_sub_le ((delta : ℚ) / 1000000))).2
    norm_num at hulp
    have hnext : (delta : ℚ) / 1000000 ≤ (delta / 1000000 + 1 : ℤ) - 1 / 1000000 := by
      have hlt : delta + 1 ≤ (delta / 1000000 + 1) * 1000000 := by omega
      have hlt : (delta : ℚ) + 1 ≤ ((delta / 1000000 + 1 : ℤ) : ℚ) * 1000000 := by exact_mod_cast hlt
      rw [div_le_iff₀ (by norm_num)]
      linarith
    have hlt : totalSeconds delta < (delta / 1000000 + 1 : ℤ) := by
      unfold totalSeconds
      linarith
    rw [wholeSeconds_of_nonneg h0 hsmall]
    exact Int.lt_add_one_iff.mp (Int.floor_lt.mpr hlt)

/-- In both directions the whole seconds are the floor or the next integer. -/
theorem wholeSeconds_mem (h : |delta| < 2 ^ 53 * 1000000) :
    delta / 1000000 ≤ wholeSeconds delta ∧ wholeSeconds delta ≤ delta / 1000000 + 1 := by
  have hx : |(delta : ℚ) / 1000000| < 2 ^ 53 := by
    have h : |(delta : ℚ)| < 2 ^ 53 * 1000000 := by exact_mod_cast h
    rw [abs_div, div_lt_iff₀ (by norm_num)]
    rwa [abs_of_pos (by norm_num : (0 : ℚ) < 1000000)]
  have hlo : ((delta / 1000000 : ℤ) : ℚ) ≤ (delta : ℚ) / 1000000 := by
    rw [le_div_iff₀ (by norm_num)]
    have hfloor : delta / 1000000 * 1000000 ≤ delta := by omega
    exact_mod_cast hfloor
  have hhi : (delta : ℚ) / 1000000 ≤ (delta / 1000000 + 1 : ℤ) := by
    rw [div_le_iff₀ (by norm_num)]
    have hnext : delta ≤ (delta / 1000000 + 1) * 1000000 := by omega
    exact_mod_cast hnext
  constructor
  · rw [← truncate_intCast (delta / 1000000)]
    exact truncate_mono (Binary64.le_nearest hx hlo)
  · rw [← truncate_intCast (delta / 1000000 + 1)]
    exact truncate_mono (Binary64.nearest_le hx hhi)

/-- Before the epoch `int` drops the fraction towards it: only a whole second stays in its second. -/
theorem wholeSeconds_of_neg (h0 : delta < 0) (h : -(2 ^ 34 * 1000000) < delta) :
    wholeSeconds delta = delta / 1000000 ↔ 1000000 ∣ delta := by
  have hsmall : |delta| < 2 ^ 53 * 1000000 := by
    rw [abs_of_neg h0]
    linarith
  constructor
  · intro heq
    by_contra hdvd
    -- the double is nearer than a microsecond, so it lies above the floor
    have hx : |(delta : ℚ) / 1000000| < 2 ^ (34 : ℤ) := by
      have h : -(2 ^ 34 * 1000000 : ℚ) < delta := by exact_mod_cast h
      have h0 : (delta : ℚ) < 0 := by exact_mod_cast h0
      rw [abs_of_neg (div_neg_of_neg_of_pos h0 (by norm_num)), ← neg_div, div_lt_iff₀ (by norm_num)]
      norm_num at h ⊢
      linarith
    have hne : (delta : ℚ) / 1000000 ≠ 0 := div_ne_zero (by exact_mod_cast h0.ne) (by norm_num)
    have hulp := Binary64.ulp_le hne hx
    norm_num at hulp
    have herror := (abs_le.mp (Binary64.abs_nearest_sub_le ((delta : ℚ) / 1000000))).1
    have habove : ((delta / 1000000 : ℤ) : ℚ) + 1 / 1000000 ≤ (delta : ℚ) / 1000000 := by
      have hlt : delta / 1000000 * 1000000 + 1 ≤ delta := by omega
      have hlt : ((delta / 1000000 : ℤ) : ℚ) * 1000000 + 1 ≤ delta := by exact_mod_cast hlt
      rw [le_div_iff₀ (by norm_num)]
      linarith
    have hgt : ((delta / 1000000 : ℤ) : ℚ) < totalSeconds delta := by
      unfold totalSeconds
      linarith
    have hneg : delta / 1000000 < 0 := by omega
    have hlt : delta / 1000000 < wholeSeconds delta := by
      unfold wholeSeconds truncate
      split_ifs with hpos
      · exact hneg.trans_le (Int.floor_nonneg.mpr hpos)
      · exact Int.lt_ceil.mpr hgt
    exact hlt.ne' heq
  · rintro ⟨k, rfl⟩
    have hmem := wholeSeconds_mem hsmall
    have hhi : wholeSeconds (1000000 * k) ≤ k := by
      unfold wholeSeconds totalSeconds
      refine (truncate_mono (le_of_eq ?_)).trans (truncate_intCast k).le
      have hcast : ((1000000 * k : ℤ) : ℚ) / 1000000 = k := by
        push_cast
        field_simp
      rw [hcast]
      refine Binary64.nearest_intCast ?_
      have hk : |k| < 2 ^ 53 := by
        rw [abs_mul, abs_of_pos (by norm_num : (0 : ℤ) < 1000000)] at hsmall
        linarith
      exact_mod_cast hk
    omega

/-- From `2 ^ 34` seconds on, the last microsecond of a second can carry. -/
example : wholeSeconds 17179869239999999 = 17179869240 := by decide +kernel

end WholeSeconds

end Python
