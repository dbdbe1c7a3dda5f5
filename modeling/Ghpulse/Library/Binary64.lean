import Mathlib.Algebra.Order.Field.Rat
import Mathlib.Data.Int.Log
import Mathlib.Data.Rat.Floor
import Mathlib.Tactic.FieldSimp
import Mathlib.Tactic.Linarith
import Mathlib.Tactic.Ring

/-!
# Rounding to 53 significant bits

The correctly rounded result of an operation on double-precision numbers, as a function of the exact
result: to the nearest number with 53 significant bits, ties to the even one. The exponent is not
bounded, so this is the double result as long as that is neither subnormal nor infinite. Rounding does
not cross an integer below `2 ^ 53`, and it moves a number by at most half a unit in its last place.
-/

namespace Binary64

/-- The nearest integer, the even one of two. -/
def roundEven (x : ℚ) : ℤ :=
  let k := ⌊x + 1 / 2⌋
  if (k : ℚ) - x = 1 / 2 ∧ k % 2 = 1 then k - 1 else k

/-- Rounding moves a number by one half at most. -/
theorem abs_roundEven_sub_le (x : ℚ) : |(roundEven x : ℚ) - x| ≤ 1 / 2 := by
  have hlo := Int.floor_le (x + 1 / 2)
  have hhi := Int.lt_floor_add_one (x + 1 / 2)
  unfold roundEven
  dsimp only
  rw [abs_le]
  split_ifs with htie
  · push_cast
    constructor <;> linarith [htie.1]
  · constructor <;> linarith

/-- Rounding does not cross an integer from above. -/
theorem le_roundEven {m : ℤ} {x : ℚ} (h : (m : ℚ) ≤ x) : m ≤ roundEven x := by
  have hbound := (abs_le.mp (abs_roundEven_sub_le x)).1
  have hlt : (m : ℚ) < (roundEven x : ℚ) + 1 := by linarith
  have hlt : m < roundEven x + 1 := by exact_mod_cast hlt
  omega

/-- Rounding does not cross an integer from below. -/
theorem roundEven_le {m : ℤ} {x : ℚ} (h : x ≤ m) : roundEven x ≤ m := by
  have hbound := (abs_le.mp (abs_roundEven_sub_le x)).2
  have hlt : (roundEven x : ℚ) < (m : ℚ) + 1 := by linarith
  have hlt : roundEven x < m + 1 := by exact_mod_cast hlt
  omega

/-- An integer is not moved. -/
theorem roundEven_intCast (n : ℤ) : roundEven n = n :=
  le_antisymm (roundEven_le le_rfl) (le_roundEven le_rfl)

/-- Rounding keeps the order. -/
theorem roundEven_mono {x y : ℚ} (h : x ≤ y) : roundEven x ≤ roundEven y := by
  by_contra hlt
  have hstep : (roundEven y : ℚ) + 1 ≤ roundEven x := by exact_mod_cast not_le.mp hlt
  have hx := abs_le.mp (abs_roundEven_sub_le x)
  have hy := abs_le.mp (abs_roundEven_sub_le y)
  -- the two errors only leave room for equality
  obtain rfl : x = y := le_antisymm h (by linarith [hx.2, hy.1])
  exact hlt le_rfl

/-! ## Rounding

The unit in the last place depends on the binade of the number alone. Within one binade rounding is that
of integers, and across binades a power of two lies between, which is not moved.
-/

/-- The unit in the last place of a number with 53 significant bits. -/
def ulp (x : ℚ) : ℚ := 2 ^ (Int.log 2 |x| - 52)

/-- The nearest number with 53 significant bits. -/
def nearest (x : ℚ) : ℚ := roundEven (x / ulp x) * ulp x

/-- The unit in the last place is positive. -/
theorem ulp_pos (x : ℚ) : 0 < ulp x := zpow_pos (by norm_num) _

/-- The exponent of a number below a power of two is below its exponent. -/
theorem log_lt {x : ℚ} {k : ℤ} (hx : x ≠ 0) (h : |x| < 2 ^ k) : Int.log 2 |x| < k := by
  have hle : ((2 : ℕ) : ℚ) ^ Int.log 2 |x| ≤ |x| :=
    Int.zpow_log_le_self (by norm_num) (abs_pos.mpr hx)
  have hlt := hle.trans_lt h
  push_cast at hlt
  exact (zpow_lt_zpow_iff_right₀ (by norm_num)).mp hlt

/-- Integers below `2 ^ 53` are multiples of the unit. -/
theorem exists_intCast_eq {x : ℚ} (h : |x| < 2 ^ 53) (n : ℤ) : ∃ m : ℤ, (n : ℚ) = m * ulp x := by
  have hlog : Int.log 2 |x| ≤ 52 := by
    by_cases hx : x = 0
    · subst hx
      norm_num [Int.log_zero_right]
    · have := log_lt hx (k := 53) (by exact_mod_cast h)
      omega
  refine ⟨n * 2 ^ (52 - Int.log 2 |x|).toNat, ?_⟩
  have hexp : ((52 - Int.log 2 |x|).toNat : ℤ) = 52 - Int.log 2 |x| := Int.toNat_of_nonneg (by omega)
  unfold ulp
  push_cast
  rw [mul_assoc, ← zpow_natCast, hexp, ← zpow_add₀ (by norm_num : (2 : ℚ) ≠ 0)]
  norm_num

/-- Rounding does not cross an integer from above. -/
theorem le_nearest {x : ℚ} (hx : |x| < 2 ^ 53) {n : ℤ} (h : (n : ℚ) ≤ x) : (n : ℚ) ≤ nearest x := by
  obtain ⟨m, hm⟩ := exists_intCast_eq hx n
  have hle : (m : ℚ) ≤ x / ulp x := by
    rw [le_div_iff₀ (ulp_pos x), ← hm]
    exact h
  rw [hm]
  exact mul_le_mul_of_nonneg_right (by exact_mod_cast le_roundEven hle) (ulp_pos x).le

/-- Rounding does not cross an integer from below. -/
theorem nearest_le {x : ℚ} (hx : |x| < 2 ^ 53) {n : ℤ} (h : x ≤ n) : nearest x ≤ n := by
  obtain ⟨m, hm⟩ := exists_intCast_eq hx n
  have hle : x / ulp x ≤ m := by
    rw [div_le_iff₀ (ulp_pos x), ← hm]
    exact h
  rw [hm]
  exact mul_le_mul_of_nonneg_right (by exact_mod_cast roundEven_le hle) (ulp_pos x).le

/-- Rounding moves a number by at most half a unit. -/
theorem abs_nearest_sub_le (x : ℚ) : |nearest x - x| ≤ ulp x / 2 := by
  have hpos := ulp_pos x
  have herror := abs_roundEven_sub_le (x / ulp x)
  have hscale : nearest x - x = ((roundEven (x / ulp x) : ℚ) - x / ulp x) * ulp x := by
    unfold nearest
    field_simp
  rw [hscale, abs_mul, abs_of_pos hpos]
  nlinarith

/-- The unit of a number below a power of two. -/
theorem ulp_le {x : ℚ} (hx : x ≠ 0) {k : ℤ} (h : |x| < 2 ^ k) : ulp x ≤ 2 ^ (k - 53) := by
  unfold ulp
  have hlog := log_lt hx h
  exact zpow_le_zpow_right₀ (by norm_num) (by omega)

/-- An integer below `2 ^ 53` is not rounded. -/
theorem nearest_intCast {n : ℤ} (h : |(n : ℚ)| < 2 ^ 53) : nearest n = n :=
  le_antisymm (nearest_le h le_rfl) (le_nearest h le_rfl)

/-- The float nearest to zero is zero. -/
theorem nearest_zero : nearest 0 = 0 := by
  exact_mod_cast nearest_intCast (n := 0) (by norm_num)

/-- A positive number lies between two powers of two, which are multiples of its unit. -/
theorem binade {x : ℚ} (hx : 0 < x) :
    (2 : ℚ) ^ 52 * ulp x ≤ x ∧ x ≤ 2 ^ 53 * ulp x := by
  have hlo := Int.zpow_log_le_self (b := 2) (by norm_num) hx
  have hhi := Int.lt_zpow_succ_log_self (b := 2) (by norm_num) x
  push_cast at hlo hhi
  have hscale (k : ℤ) : (2 : ℚ) ^ k * ulp x = 2 ^ (Int.log 2 x + (k - 52)) := by
    unfold ulp
    rw [abs_of_pos hx, ← zpow_add₀ (by norm_num)]
    congr 1
    ring
  constructor
  · rw [← zpow_ofNat, hscale]
    simpa using hlo
  · rw [← zpow_ofNat, hscale]
    exact hhi.le

/-- Rounding keeps the order. -/
theorem nearest_mono {x y : ℚ} (hx : 0 ≤ x) (h : x ≤ y) : nearest x ≤ nearest y := by
  rcases hx.eq_or_lt with rfl | hx
  · have hround : (0 : ℤ) ≤ roundEven (y / ulp y) :=
      le_roundEven (by exact_mod_cast div_nonneg h (ulp_pos y).le)
    rw [nearest_zero]
    exact mul_nonneg (by exact_mod_cast hround) (ulp_pos y).le
  · have hy : 0 < y := hx.trans_le h
    have hlog : Int.log 2 x ≤ Int.log 2 y := Int.log_mono_right hx h
    by_cases heq : ulp x = ulp y
    · -- one binade: the rounding of the quotients keeps the order
      unfold nearest
      rw [heq]
      have hround := roundEven_mono (div_le_div_of_nonneg_right h (ulp_pos y).le)
      exact mul_le_mul_of_nonneg_right (by exact_mod_cast hround) (ulp_pos y).le
    · -- a power of two lies between the binades
      have hlt : Int.log 2 x < Int.log 2 y := by
        refine lt_of_le_of_ne hlog fun hsame => heq ?_
        unfold ulp
        rw [abs_of_pos hx, abs_of_pos hy, hsame]
      have htop : nearest x ≤ 2 ^ 53 * ulp x := by
        have hround : roundEven (x / ulp x) ≤ 2 ^ 53 := by
          refine roundEven_le ?_
          rw [div_le_iff₀ (ulp_pos x)]
          exact_mod_cast (binade hx).2
        exact mul_le_mul_of_nonneg_right (by exact_mod_cast hround) (ulp_pos x).le
      have hbottom : 2 ^ 52 * ulp y ≤ nearest y := by
        have hround : 2 ^ 52 ≤ roundEven (y / ulp y) := by
          refine le_roundEven ?_
          rw [le_div_iff₀ (ulp_pos y)]
          exact_mod_cast (binade hy).1
        exact mul_le_mul_of_nonneg_right (by exact_mod_cast hround) (ulp_pos y).le
      have hulp : 2 * ulp x ≤ ulp y := by
        unfold ulp
        rw [abs_of_pos hx, abs_of_pos hy]
        calc 2 * (2 : ℚ) ^ (Int.log 2 x - 52) = 2 ^ (1 + (Int.log 2 x - 52)) := by
              rw [zpow_add₀ (by norm_num), zpow_one]
          _ ≤ 2 ^ (Int.log 2 y - 52) := zpow_le_zpow_right₀ (by norm_num) (by omega)
      calc nearest x ≤ 2 ^ 53 * ulp x := htop
        _ ≤ 2 ^ 52 * ulp y := by linarith
        _ ≤ nearest y := hbottom

end Binary64
