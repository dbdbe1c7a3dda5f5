import Ghpulse.Library.Binary64
import Ghpulse.Library.PyStr

/-!
# Python floats

A `float` is a rational number with 53 significant bits, an infinity or NaN; the two zeros are one number
here. `float(s)` reads the text of a number with the white space, the digits and the underscores that `int`
accepts, and rounds its exact value once. A `timedelta` of a number of seconds has whole microseconds, and
fewer than `10 ^ 9` days.
-/

open Binary64 (roundEven)

namespace Python

/-- A number with 53 significant bits. -/
def Significant (q : ℚ) : Prop := ∃ m e : ℤ, |m| ≤ 2 ^ 53 ∧ q = m * 2 ^ e

/-- Zero is a float. -/
theorem significant_zero : Significant 0 := ⟨0, 0, by norm_num, by norm_num⟩

/-- A `float`. -/
inductive Double where
  | finite (q : ℚ) (h : Significant q)
  | inf (negative : Bool)
  | nan

/-- `0.0`. -/
def Double.zero : Double := .finite 0 significant_zero

/-- The exponent of the last place; the smallest numbers share theirs. -/
def lastPlace (x : ℚ) : ℤ := max (Int.log 2 |x| - 52) (-1074)

/-- A number is at most `2 ^ 53` of its last places. -/
theorem abs_le_lastPlace (x : ℚ) : |x| ≤ 2 ^ 53 * 2 ^ lastPlace x := by
  have hlog := Int.lt_zpow_succ_log_self (b := 2) (by norm_num) |x|
  push_cast at hlog
  refine hlog.le.trans ?_
  rw [← zpow_natCast, ← zpow_add₀ (by norm_num : (2 : ℚ) ≠ 0)]
  refine zpow_le_zpow_right₀ (by norm_num) ?_
  have hmax := le_max_left (Int.log 2 |x| - 52) (-1074)
  unfold lastPlace
  push_cast
  omega

/-- A rounded number has 53 significant bits. -/
theorem significant_round (x : ℚ) :
    Significant (roundEven (x / 2 ^ lastPlace x) * 2 ^ lastPlace x) := by
  have hpos : (0 : ℚ) < 2 ^ lastPlace x := zpow_pos (by norm_num) _
  have habs := abs_le.mp (abs_le_lastPlace x)
  refine ⟨_, _, abs_le.mpr ⟨?_, ?_⟩, rfl⟩
  · refine Binary64.le_roundEven ?_
    rw [le_div_iff₀ hpos]
    push_cast
    linarith [habs.1]
  · refine Binary64.roundEven_le ?_
    rw [div_le_iff₀ hpos]
    push_cast
    linarith [habs.2]

/-- The nearest `float`, ties to the even one; infinite if the rounded number is too large. -/
def Double.nearest (x : ℚ) : Double :=
  if 2 ^ 1024 ≤ |roundEven (x / 2 ^ lastPlace x) * (2 : ℚ) ^ lastPlace x| then .inf (decide (x < 0))
  else .finite _ (significant_round x)

/-- `a < b`; NaN is neither less nor greater than anything. -/
def Double.lt : Double → Double → Bool
  | .finite a _, .finite b _ => decide (a < b)
  | .finite _ _, .inf negative => !negative
  | .inf negative, .finite _ _ => negative
  | .inf negative, .inf negative' => negative && !negative'
  | .nan, _ => false
  | _, .nan => false

/-- `max(a, b)`: the second argument only if it is greater. -/
def Double.max (a b : Double) : Double := if a.lt b then b else a

/-! ## Reading a text

The grammar is that of `float`: white space, a sign, then a word for infinity or NaN, or a decimal number
with an optional fraction and exponent. Its exact value is rounded once.
-/

/-- An optional sign, and the text after it. -/
def splitSign : Str → Bool × Str
  | [] => (false, [])
  | c :: cs => if c = cp '-' then (true, cs) else if c = cp '+' then (false, cs) else (false, c :: cs)

/-- `c.lower()` of an ASCII letter. -/
def asciiLower (c : CodePoint) : CodePoint :=
  if cp 'A' ≤ c ∧ c ≤ cp 'Z' then Fin.ofNat 0x110000 (c.val + 0x20) else c

/-- Drop the underscores, each of which must stand between two digits. -/
def dropUnderscores (afterDigit : Bool) : Str → Option Str
  | [] => some []
  | c :: cs =>
    if c = cp '_' then
      match cs with
      | d :: _ => if afterDigit && (digitVal d).isSome then dropUnderscores false cs else none
      | [] => none
    else (dropUnderscores (digitVal c).isSome cs).map (c :: ·)

/-- The digits at the front of a text, and the text after them. -/
def takeDigits : Str → List ℕ × Str
  | [] => ([], [])
  | c :: cs =>
    match digitVal c with
    | some d => (d :: (takeDigits cs).1, (takeDigits cs).2)
    | none => ([], c :: cs)

/-- The digits after a decimal point, if there is one, and the text after them. -/
def takeFraction : Str → List ℕ × Str
  | [] => ([], [])
  | c :: cs => if c = cp '.' then takeDigits cs else ([], c :: cs)

/-- An exponent that ends the text; without one it is 0. -/
def exponent : Str → Option ℤ
  | [] => some 0
  | c :: cs =>
    if c = cp 'e' ∨ c = cp 'E' then
      match takeDigits (splitSign cs).2 with
      | (d :: ds, []) =>
        let e : ℤ := Nat.ofDigits 10 (d :: ds).reverse
        some (if (splitSign cs).1 then -e else e)
      | _ => none
    else none

/-- The exact value of an unsigned decimal number. -/
def decimal (s : Str) : Option ℚ :=
  let whole := takeDigits s
  let fraction := takeFraction whole.2
  let mantissa := whole.1 ++ fraction.1
  if mantissa = [] then none
  else (exponent fraction.2).map fun (e : ℤ) =>
    (Nat.ofDigits 10 mantissa.reverse : ℕ) * (10 : ℚ) ^ (e - (fraction.1.length : ℤ))

/-- `float(s)`; nothing stands for `ValueError`. -/
def float (s : Str) : Option Double :=
  let signed := splitSign (trim isIntSpace s)
  -- names are compared with their underscores, so `in_f` is none
  let name := signed.2.map asciiLower
  if name = lit "inf" ∨ name = lit "infinity" then some (.inf signed.1)
  else if name = lit "nan" then some .nan
  else ((dropUnderscores false signed.2).bind decimal).map fun q =>
    Double.nearest (if signed.1 then -q else q)

/-! ## `timedelta(seconds=x)`

The conversion splits the number into whole seconds and a fraction, and rounds the microseconds of the
fraction to the nearest integer, ties to the even one.
-/

/-- Why a `timedelta` is refused: a `ValueError` for NaN, an `OverflowError` else. -/
inductive Refusal where
  | nan
  | infinite
  | days (d : ℤ)

/-- The microseconds of a number of seconds. The fraction is converted in double precision, and the result
is rounded to a whole number, the even one of two. -/
def micros (seconds : ℚ) : ℤ :=
  truncate seconds * 1000000 +
    roundEven (Binary64.nearest (1000000 * (seconds - truncate seconds)))

/-- `timedelta(seconds=x)`, in microseconds. -/
def timedelta : Double → Except Refusal ℤ
  | .nan => .error .nan
  | .inf _ => .error .infinite
  | .finite q _ =>
    if |micros q / 86400000000| ≤ 999999999 then .ok (micros q)
    else .error (.days (micros q / 86400000000))

/-! ## Integers

What is written as an integer below `2 ^ 53` is read exactly.
-/

/-- Away from the smallest numbers the last place does not depend on their exponent. -/
theorem two_zpow_lastPlace {x : ℚ} (h : -1022 ≤ Int.log 2 |x|) :
    (2 : ℚ) ^ lastPlace x = Binary64.ulp x := by
  rw [lastPlace, max_eq_left (by omega), Binary64.ulp]

/-- Integers of 53 bits are not rounded. -/
theorem Double.nearest_intCast {n : ℤ} (h : |(n : ℚ)| < 2 ^ 53) :
    ∃ hn, Double.nearest n = .finite n hn := by
  have hlog : 0 ≤ Int.log 2 |(n : ℚ)| := by
    by_cases hzero : n = 0
    · simp [hzero]
    · have hone : ((1 : ℕ) : ℚ) ≤ |(n : ℚ)| := by exact_mod_cast Int.one_le_abs hzero
      rw [Int.log_of_one_le_right 2 (by exact_mod_cast hone)]
      exact Int.natCast_nonneg _
  have hround : roundEven ((n : ℚ) / 2 ^ lastPlace n) * (2 : ℚ) ^ lastPlace n = n := by
    rw [two_zpow_lastPlace (by omega)]
    exact Binary64.nearest_intCast h
  have hsmall : ¬ (2 : ℚ) ^ 1024 ≤ |(n : ℚ)| := by
    have hlt : (2 : ℚ) ^ 53 < 2 ^ 1024 := pow_lt_pow_right₀ (by norm_num) (by norm_num)
    exact not_le.mpr (h.trans hlt)
  refine ⟨hround ▸ significant_round n, ?_⟩
  simp only [Double.nearest, hround, hsmall, ↓reduceIte]

/-- Digits are taken to the end. -/
theorem takeDigits_map_digitChar {ds : List ℕ} (h : ∀ d ∈ ds, d < 10) :
    takeDigits (ds.map digitChar) = (ds, []) := by
  induction ds with
  | nil => rfl
  | cons d ds ih =>
    have hd : digitVal (digitChar d) = some d := digitVal_digitChar (h d List.mem_cons_self)
    have hds := ih fun e he => h e (List.mem_cons_of_mem d he)
    simp only [List.map_cons, takeDigits, hd, hds]

/-- A text without underscores stays as it is. -/
theorem dropUnderscores_of_notMem {s : Str} (h : cp '_' ∉ s) (afterDigit : Bool) :
    dropUnderscores afterDigit s = some s := by
  induction s generalizing afterDigit with
  | nil => rfl
  | cons c cs ih =>
    rw [List.mem_cons, not_or] at h
    unfold dropUnderscores
    rw [if_neg (Ne.symm h.1), ih h.2]
    rfl

/-- The text of a natural number is read back. -/
theorem decimal_natText (n : ℕ) : decimal (natText n) = some (n : ℚ) := by
  have htake : takeDigits (natText n) = (decimalDigits n, []) :=
    takeDigits_map_digitChar fun d hd => decimalDigits_lt hd
  have hvalue : (Nat.ofDigits 10 (decimalDigits n).reverse : ℕ) * (10 : ℚ) ^ (0 - ((0 : ℕ) : ℤ)) = n := by
    rw [ofDigits_decimalDigits, Nat.cast_zero, sub_zero, zpow_zero, mul_one]
  simp only [decimal, htake, takeFraction, exponent, List.append_nil, decimalDigits_ne_nil, ↓reduceIte,
    Option.map_some, List.length_nil, hvalue]

/-- `float` reads the text of an integer as the nearest number. -/
theorem float_natText (n : ℕ) : float (natText n) = some (Double.nearest n) := by
  have hunderscore : cp '_' ∉ natText n := by
    intro hc
    obtain ⟨d, hd, heq⟩ := mem_natText hc
    interval_cases d <;> exact absurd heq (by decide)
  have hsign : splitSign (natText n) = (false, natText n) := by
    cases ht : natText n with
    | nil => rfl
    | cons c cs =>
      obtain ⟨d, hd, rfl⟩ := mem_natText (ht ▸ List.mem_cons_self : c ∈ natText n)
      simp only [splitSign, (digitChar_ne hd).2.2.1, (digitChar_ne hd).2.2.2, ↓reduceIte]
  have hname {c : CodePoint} {cs : Str} (hc : ∀ d < 10, asciiLower (digitChar d) ≠ c) :
      (natText n).map asciiLower ≠ c :: cs := by
    intro heq
    cases ht : natText n with
    | nil => exact natText_ne_nil n ht
    | cons c' cs' =>
      obtain ⟨d, hd, rfl⟩ := mem_natText (ht ▸ List.mem_cons_self : c' ∈ natText n)
      rw [ht, List.map_cons] at heq
      exact hc d hd (List.cons.inj heq).1
  have hinf : (natText n).map asciiLower ≠ lit "inf" :=
    hname fun d hd => by interval_cases d <;> decide
  have hinfinity : (natText n).map asciiLower ≠ lit "infinity" :=
    hname fun d hd => by interval_cases d <;> decide
  have hnan : (natText n).map asciiLower ≠ lit "nan" :=
    hname fun d hd => by interval_cases d <;> decide
  simp only [float, trim_natText, hsign, hinf, hinfinity, hnan, or_self, ↓reduceIte,
    dropUnderscores_of_notMem hunderscore, Option.bind_some, decimal_natText, Option.map_some]
  rfl

example : float (lit " -Infinity\n") = some (.inf true) := rfl

example : float (lit "1_e5") = none := rfl

/-! ## Microseconds

The bounds that show which numbers are refused. Near the limit numbers are far apart, so none is rounded
across it.
-/

/-- Above a power of two, numbers with 53 significant bits are multiples of the last place there. -/
theorem Significant.exists_intCast {q : ℚ} (h : Significant q) {k : ℤ} (hk : 2 ^ k < |q|) :
    ∃ m : ℤ, q = m * 2 ^ (k - 52) := by
  obtain ⟨m, e, hm, rfl⟩ := h
  have hpos : (0 : ℚ) < 2 ^ e := zpow_pos (by norm_num) e
  have hm : |(m : ℚ)| ≤ 2 ^ (53 : ℤ) := by exact_mod_cast hm
  have hlt : (2 : ℚ) ^ k < 2 ^ (53 + e) :=
    calc (2 : ℚ) ^ k < |(m : ℚ)| * 2 ^ e := by rwa [abs_mul, abs_of_pos hpos] at hk
      _ ≤ 2 ^ (53 : ℤ) * 2 ^ e := mul_le_mul_of_nonneg_right hm hpos.le
      _ = 2 ^ (53 + e) := (zpow_add₀ (by norm_num) _ _).symm
  have hexp : k < 53 + e := (zpow_lt_zpow_iff_right₀ (by norm_num)).mp hlt
  have hshift : ((e - (k - 52)).toNat : ℤ) = e - (k - 52) := Int.toNat_of_nonneg (by omega)
  refine ⟨m * 2 ^ (e - (k - 52)).toNat, ?_⟩
  push_cast
  rw [mul_assoc, ← zpow_natCast, hshift, ← zpow_add₀ (by norm_num)]
  congr 2
  ring

section Micros

variable {q : ℚ}

/-- The fraction of a number of seconds, in microseconds. -/
theorem fraction_bounds (h : 0 ≤ q) :
    0 ≤ 1000000 * (q - truncate q) ∧ 1000000 * (q - truncate q) ≤ 1000000 := by
  have hlo := Int.floor_le q
  have hhi := Int.lt_floor_add_one q
  rw [truncate, if_pos h]
  constructor <;> linarith

/-- A whole number of seconds is reached by as many microseconds. -/
theorem le_micros {n : ℤ} (h0 : 0 ≤ q) (h : (n : ℚ) ≤ q) : n * 1000000 ≤ micros q := by
  obtain ⟨hlo, hhi⟩ := fraction_bounds h0
  have hfloor : n ≤ truncate q := by
    rw [truncate, if_pos h0]
    exact Int.le_floor.mpr h
  have hround : 0 ≤ roundEven (Binary64.nearest (1000000 * (q - truncate q))) := by
    refine Binary64.le_roundEven (Binary64.le_nearest ?_ (by exact_mod_cast hlo))
    rw [abs_of_nonneg hlo]
    linarith
  have hscale := Int.mul_le_mul_of_nonneg_right hfloor (by norm_num : (0 : ℤ) ≤ 1000000)
  unfold micros
  omega

/-- The microseconds of a positive duration are not negative. -/
theorem micros_nonneg (h0 : 0 ≤ q) : 0 ≤ micros q := by
  simpa using le_micros (n := 0) h0 (by exact_mod_cast h0)

/-- The microseconds are bounded by the whole seconds and a bound of the fraction. -/
theorem micros_le {m : ℤ} (h0 : 0 ≤ q) (h : 1000000 * (q - truncate q) ≤ m) :
    micros q ≤ truncate q * 1000000 + m := by
  obtain ⟨hlo, hhi⟩ := fraction_bounds h0
  have hsmall : |1000000 * (q - truncate q)| < 2 ^ 53 := by
    rw [abs_of_nonneg hlo]
    linarith
  have hround := Binary64.roundEven_le (Binary64.nearest_le hsmall h)
  unfold micros
  omega

/-- Whole seconds are so many million microseconds. -/
theorem micros_intCast (n : ℤ) : micros n = n * 1000000 := by
  have hround : roundEven 0 = 0 := by exact_mod_cast Binary64.roundEven_intCast 0
  rw [micros, truncate_intCast, sub_self, mul_zero, Binary64.nearest_zero, hround, add_zero]

/-- A number that is not positive has no positive microseconds. -/
theorem micros_of_nonpos (h : q ≤ 0) : micros q ≤ 0 := by
  have htruncate : truncate q ≤ 0 := by
    have hmono := truncate_mono h
    rwa [← Int.cast_zero, truncate_intCast] at hmono
  have hceil : q ≤ truncate q ∧ (truncate q : ℚ) < q + 1 := by
    by_cases hq : 0 ≤ q
    · obtain rfl : q = 0 := le_antisymm h hq
      simp [truncate]
    · rw [truncate, if_neg hq]
      exact ⟨Int.le_ceil q, Int.ceil_lt_add_one q⟩
  have hsmall : |1000000 * (q - truncate q)| < 2 ^ 53 := by
    rw [abs_lt]
    constructor <;> linarith [hceil.1, hceil.2]
  have hround : roundEven (Binary64.nearest (1000000 * (q - truncate q))) ≤ 0 := by
    refine Binary64.roundEven_le (Binary64.nearest_le hsmall ?_)
    push_cast
    linarith [hceil.1]
  unfold micros
  omega

/-- The microseconds are the nearest ones, up to a rounding error of the conversion. -/
theorem abs_micros_sub_le (h0 : 0 ≤ q) : |(micros q : ℚ) - 1000000 * q| ≤ 1 / 2 + 1 / 2 ^ 34 := by
  obtain ⟨hlo, hhi⟩ := fraction_bounds h0
  generalize hx : 1000000 * (q - truncate q) = x at hlo hhi
  have hnearest : |Binary64.nearest x - x| ≤ 1 / 2 ^ 34 := by
    rcases hlo.eq_or_lt with rfl | hpos
    · rw [Binary64.nearest_zero]
      norm_num
    · have hlt : |x| < 2 ^ (20 : ℤ) := by
        rw [abs_of_pos hpos]
        norm_num
        linarith
      have hulp := Binary64.ulp_le hpos.ne' hlt
      have herror := Binary64.abs_nearest_sub_le x
      norm_num at hulp
      linarith
  have hround := Binary64.abs_roundEven_sub_le (Binary64.nearest x)
  have hsum : (micros q : ℚ) - 1000000 * q =
      (roundEven (Binary64.nearest x) - Binary64.nearest x) + (Binary64.nearest x - x) := by
    rw [micros, hx, ← hx]
    push_cast
    ring
  rw [hsum]
  exact (abs_add_le _ _).trans (add_le_add hround hnearest)

/-- Less than `10 ^ 9` days stay less when they are converted. -/
theorem micros_lt (h : Significant q) (h0 : 0 ≤ q) (hlt : q < 86400000000000) :
    micros q < 86400000000000000000 := by
  obtain ⟨-, hhi⟩ := fraction_bounds h0
  have hle : truncate q ≤ q := by
    rw [truncate, if_pos h0]
    exact Int.floor_le q
  have hwhole : truncate q < 86400000000000 := by
    have hcast : (truncate q : ℚ) < 86400000000000 := hle.trans_lt hlt
    exact_mod_cast hcast
  by_cases hlast : truncate q < 86399999999999
  · have hmicros := micros_le h0 (m := 1000000) (by exact_mod_cast hhi)
    omega
  · -- in the last second the numbers are a 64th apart
    have hq : (86399999999999 : ℚ) ≤ q := by
      have hcast : (86399999999999 : ℚ) ≤ truncate q := by exact_mod_cast not_lt.mp hlast
      exact hcast.trans hle
    have hbinade : (2 : ℚ) ^ (46 : ℤ) < |q| := by
      rw [abs_of_nonneg h0]
      norm_num
      linarith
    obtain ⟨m, hm⟩ := h.exists_intCast hbinade
    norm_num at hm
    have hmlt : m < 64 * 86400000000000 := by
      have hcast : (m : ℚ) < 64 * 86400000000000 := by linarith
      exact_mod_cast hcast
    have hmle : (m : ℚ) ≤ 64 * 86400000000000 - 1 := by exact_mod_cast Int.le_sub_one_of_lt hmlt
    have hfraction : 1000000 * (q - truncate q) ≤ (984375 : ℤ) := by
      have hcast : (86399999999999 : ℚ) ≤ truncate q := by exact_mod_cast not_lt.mp hlast
      push_cast
      linarith
    have hmicros := micros_le h0 hfraction
    omega

end Micros

/-- A `timedelta` holds the numbers of seconds that are less than `10 ^ 9` days. -/
theorem timedelta_of_nonneg {q : ℚ} (h : Significant q) (h0 : 0 ≤ q) :
    timedelta (.finite q h) =
      if q < 86400000000000 then .ok (micros q) else .error (.days (micros q / 86400000000)) := by
  have hpos := micros_nonneg h0
  have hdays : |micros q / 86400000000| ≤ 999999999 ↔ micros q < 86400000000000000000 := by
    rw [abs_of_nonneg (by omega)]
    omega
  have hiff : micros q < 86400000000000000000 ↔ q < 86400000000000 := by
    refine ⟨fun hlt => ?_, micros_lt h h0⟩
    by_contra hge
    have hle := le_micros (n := 86400000000000) h0 (by exact_mod_cast not_lt.mp hge)
    omega
  simp only [timedelta, hdays, hiff]

/-- Zero seconds are no duration. -/
theorem timedelta_zero : timedelta .zero = .ok 0 := by
  have hmicros : micros 0 = 0 := by exact_mod_cast micros_intCast 0
  rw [Double.zero, timedelta_of_nonneg _ le_rfl, if_pos (by norm_num), hmicros]

/-- The larger of zero and a number. -/
theorem Double.zero_max_finite {q : ℚ} (h : Significant q) :
    Double.zero.max (.finite q h) = if 0 < q then .finite q h else .zero := by
  simp only [Double.max, Double.zero, Double.lt, decide_eq_true_eq]

/-- The `timedelta` of a number of seconds of which the negative ones count as none. -/
theorem timedelta_max_zero {q : ℚ} (h : Significant q) :
    timedelta (Double.zero.max (.finite q h)) =
      if q < 86400000000000 then .ok (max 0 (micros q)) else .error (.days (micros q / 86400000000)) := by
  rw [Double.zero_max_finite]
  by_cases hq : 0 < q
  · rw [if_pos hq, timedelta_of_nonneg h hq.le, max_eq_right (micros_nonneg hq.le)]
  · have hle : q ≤ 0 := not_lt.mp hq
    rw [if_neg hq, timedelta_zero, if_pos (hle.trans_lt (by norm_num)), max_eq_left (micros_of_nonpos hle)]

end Python
