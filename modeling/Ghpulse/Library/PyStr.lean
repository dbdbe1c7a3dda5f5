import Mathlib.Data.Nat.Digits.Defs
import Mathlib.Data.Nat.Digits.Lemmas
import Mathlib.Data.List.DropRight
import Mathlib.Data.List.Forall2
import Mathlib.Data.Rat.Floor

/-!
# Python text and integers

A `str` is a sequence of Unicode code points, lone surrogates included. `int` and `str` of an integer
follow CPython: surrounding white space, a sign, decimal digits of every script and single underscores
are accepted, and a text of more than 4300 digits is refused in both directions.
-/

namespace Python

/-- A Unicode code point; unlike `Char`, it may be a surrogate. -/
abbrev CodePoint := Fin 0x110000

/-- A Python `str`. -/
abbrev Str := List CodePoint

instance instNeZeroCodePoint : NeZero 0x110000 := ⟨by decide⟩

instance instLawfulBEqStr : LawfulBEq Str := inferInstance

/-- The code point of a character. -/
def cp (c : Char) : CodePoint := Fin.ofNat 0x110000 c.toNat

/-- A string literal of the source. -/
def lit (s : String) : Str := s.toList.map cp

/-- The code points of a literal, from its characters; the kernel reads them off without decoding. -/
theorem lit_eq_map {s : String} {cs : List Char} (h : s = String.ofList cs) : lit s = cs.map cp := by
  rw [h, lit, String.toList_ofList]

/-- The characters for which `str.isspace` is true. -/
def spaces : List ℕ :=
  [0x9, 0xa, 0xb, 0xc, 0xd, 0x1c, 0x1d, 0x1e, 0x1f, 0x20, 0x85, 0xa0, 0x1680, 0x2000, 0x2001, 0x2002,
    0x2003, 0x2004, 0x2005, 0x2006, 0x2007, 0x2008, 0x2009, 0x200a, 0x2028, 0x2029, 0x202f, 0x205f,
    0x3000]

/-- `str.isspace` of one character. -/
def isSpace (c : CodePoint) : Bool := decide (c.val ∈ spaces)

/-- Remove a class of characters from both ends. -/
def trim (p : CodePoint → Bool) (s : Str) : Str := (s.dropWhile p).rdropWhile p

/-- `str.strip()`. -/
def strip (s : Str) : Str := trim isSpace s

/-- `str.isascii()`. -/
def isAscii (s : Str) : Bool := s.all fun c => decide (c.val < 0x80)

/-- Whether `str.encode("utf-8")` succeeds: no lone surrogate. -/
def encodable (s : Str) : Bool := s.all fun c => decide (c.val < 0xd800 ∨ 0xdfff < c.val)

/-- `str.startswith`. -/
def startsWith (s pre : Str) : Bool := pre.isPrefixOf s

/-! ## Trimming

`strip` with a set of characters, in the one form that is needed.
-/

/-- A text whose first and last characters stay is not changed by `trim`. -/
theorem trim_eq_self {p : CodePoint → Bool} {s : Str} (hhead : ∀ c ∈ s.head?, p c = false)
    (hlast : ∀ c ∈ s.getLast?, p c = false) : trim p s = s := by
  have hdrop : s.dropWhile p = s := by
    cases s with
    | nil => rfl
    | cons c cs => rw [List.dropWhile_cons_of_neg (by simpa using hhead c rfl)]
  rw [trim, hdrop, List.rdropWhile_eq_self_iff]
  intro hs
  simpa using hlast (s.getLast hs) (List.getLast?_eq_some_getLast hs)

/-- Text without any of the trimmed characters is not changed by `trim`. -/
theorem trim_eq_self_of_forall {p : CodePoint → Bool} {s : Str} (h : ∀ c ∈ s, p c = false) :
    trim p s = s :=
  trim_eq_self (fun c hc => h c (List.mem_of_mem_head? hc))
    fun c hc => h c (List.mem_of_mem_getLast? hc)

/-- Trimming leaves nothing exactly when every character is of the class. -/
theorem trim_eq_nil_iff {p : CodePoint → Bool} {s : Str} : trim p s = [] ↔ ∀ c ∈ s, p c = true := by
  rw [trim, List.rdropWhile_eq_nil_iff]
  constructor
  · intro h
    cases hd : s.dropWhile p with
    | nil => exact List.dropWhile_eq_nil_iff.mp hd
    | cons c cs =>
      have hhead : p c ≠ true := by
        have := List.head?_dropWhile_not p s
        rw [hd] at this
        simpa using this
      exact absurd (h c (hd ▸ List.mem_cons_self)) hhead
  · intro h c hc
    exact h c ((List.dropWhile_sublist p).subset hc)

/-! ## Cutting

A text is cut at the first occurrence of a separator.
-/

/-- What stands before the first separator, and what stands after it. -/
def cut (separator : CodePoint) (s : Str) : Str × Str :=
  (s.takeWhile (· ≠ separator), (s.dropWhile (· ≠ separator)).drop 1)

/-- A text is cut at the first separator. -/
theorem cut_append {separator : CodePoint} {a : Str} (h : separator ∉ a) (b : Str) :
    cut separator (a ++ separator :: b) = (a, b) := by
  have hne : ∀ c ∈ a, decide (c ≠ separator) = true := by
    intro c hc
    refine decide_eq_true ?_
    rintro rfl
    exact h hc
  rw [cut, List.takeWhile_append_of_pos hne, List.dropWhile_append_of_pos hne,
    List.takeWhile_cons_of_neg (by simp), List.dropWhile_cons_of_neg (by simp), List.append_nil]
  rfl

/-- Texts that are cut at the first occurrence of a character are cut at the same place. -/
theorem append_cons_inj {c : CodePoint} {a b x y : Str} (ha : c ∉ a) (hb : c ∉ b)
    (h : a ++ c :: x = b ++ c :: y) : a = b ∧ x = y := by
  induction a generalizing b with
  | nil =>
    cases b with
    | nil => exact ⟨rfl, (List.cons.inj h).2⟩
    | cons e b => exact absurd ((List.cons.inj h).1 ▸ List.mem_cons_self) hb
  | cons d a ih =>
    cases b with
    | nil => exact absurd ((List.cons.inj h).1.symm ▸ List.mem_cons_self) ha
    | cons e b =>
      obtain ⟨rfl, hrest⟩ := List.cons.inj h
      rw [List.mem_cons, not_or] at ha hb
      obtain ⟨rfl, hxy⟩ := ih ha.2 hb.2 hrest
      exact ⟨rfl, hxy⟩

/-! ## Integers

`int` and `str` are inverse to each other within the digit limit. The limit counts digits, not the value,
and is checked in both directions.
-/

/-- The zeros of the blocks of ten decimal digits (general category `Nd`). -/
def decimalZeros : List ℕ :=
  [0x30, 0x660, 0x6f0, 0x7c0, 0x966, 0x9e6, 0xa66, 0xae6, 0xb66, 0xbe6, 0xc66, 0xce6, 0xd66, 0xde6,
    0xe50, 0xed0, 0xf20, 0x1040, 0x1090, 0x17e0, 0x1810, 0x1946, 0x19d0, 0x1a80, 0x1a90, 0x1b50,
    0x1bb0, 0x1c40, 0x1c50, 0xa620, 0xa8d0, 0xa900, 0xa9d0, 0xa9f0, 0xaa50, 0xabf0, 0xff10, 0x104a0,
    0x10d30, 0x11066, 0x110f0, 0x11136, 0x111d0, 0x112f0, 0x11450, 0x114d0, 0x11650, 0x116c0,
    0x11730, 0x118e0, 0x11950, 0x11c50, 0x11d50, 0x11da0, 0x11f50, 0x16a60, 0x16ac0, 0x16b50,
    0x1d7ce, 0x1d7d8, 0x1d7e2, 0x1d7ec, 0x1d7f6, 0x1e140, 0x1e2f0, 0x1e4f0, 0x1e950, 0x1fbf0]

/-- The value of a decimal digit of any script. -/
def digitVal (c : CodePoint) : Option ℕ :=
  decimalZeros.findSome? fun z => if z ≤ c.val ∧ c.val < z + 10 then some (c.val - z) else none

/-- The white space `int` skips: the separators `\x1c` to `\x1f` are not among it. -/
def isIntSpace (c : CodePoint) : Bool := isSpace c && !decide (0x1c ≤ c.val ∧ c.val ≤ 0x1f)

/-- The digits after the first one; an underscore must stand between two digits. -/
def digitsTail : Str → Option (List ℕ)
  | [] => some []
  | c :: cs =>
    match digitVal c with
    | some d => (digitsTail cs).map (d :: ·)
    | none =>
      match cs with
      | [] => none
      | c' :: cs' =>
        if c = cp '_' then (digitVal c').bind fun d => (digitsTail cs').map (d :: ·) else none

/-- The digits of an unsigned integer literal, most significant first. -/
def digits : Str → Option (List ℕ)
  | [] => none
  | c :: cs => (digitVal c).bind fun d => (digitsTail cs).map (d :: ·)

/-- `sys.get_int_max_str_digits()`. -/
def maxStrDigits : ℕ := 4300

/-- The value of an unsigned integer literal within the digit limit. -/
def natOfText (s : Str) : Option ℕ :=
  (digits s).bind fun ds =>
    if ds.length ≤ maxStrDigits then some (Nat.ofDigits 10 ds.reverse) else none

/-- `int(s)`; nothing stands for `ValueError`. -/
def int (s : Str) : Option ℤ :=
  match trim isIntSpace s with
  | [] => none
  | c :: cs =>
    if c = cp '-' then (natOfText cs).map fun (n : ℕ) => -(n : ℤ)
    else if c = cp '+' then (natOfText cs).map fun (n : ℕ) => (n : ℤ)
    else (natOfText (c :: cs)).map fun (n : ℕ) => (n : ℤ)

/-- The ASCII digit of a value below ten. -/
def digitChar (d : ℕ) : CodePoint := Fin.ofNat 0x110000 (0x30 + d)

/-- The decimal digits of a number, most significant first. -/
def decimalDigits (n : ℕ) : List ℕ := if n = 0 then [0] else (Nat.digits 10 n).reverse

/-- The decimal text of a natural number. -/
def natText (n : ℕ) : Str := (decimalDigits n).map digitChar

/-- The decimal text of an integer. -/
def intText (z : ℤ) : Str := if z < 0 then cp '-' :: natText z.natAbs else natText z.natAbs

/-- `str(z)`; nothing stands for the `ValueError` of an integer above the digit limit. -/
def strInt (z : ℤ) : Option Str :=
  if (decimalDigits z.natAbs).length ≤ maxStrDigits then some (intText z) else none

/-! ## Reading what was written

Digit by digit. Nothing in the text of a number can be trimmed, or mistaken for a separator.
-/

/-- The character of a digit is read back. -/
theorem digitVal_digitChar {d : ℕ} (hd : d < 10) : digitVal (digitChar d) = some d := by
  interval_cases d <;> rfl

/-- The value of a digit is below ten. -/
theorem digitVal_lt {c : CodePoint} {d : ℕ} (h : digitVal c = some d) : d < 10 := by
  obtain ⟨z, -, hz⟩ := List.exists_of_findSome?_eq_some h
  split at hz
  · cases hz
    omega
  · cases hz

/-- The decimal digits are below ten. -/
theorem decimalDigits_lt {n d : ℕ} (hd : d ∈ decimalDigits n) : d < 10 := by
  unfold decimalDigits at hd
  split at hd
  · simp only [List.mem_singleton] at hd
    omega
  · exact Nat.digits_lt_base (by decide) (List.mem_reverse.mp hd)

/-- Every number has a digit. -/
theorem decimalDigits_ne_nil (n : ℕ) : decimalDigits n ≠ [] := by
  unfold decimalDigits
  split
  · simp
  · rename_i hn
    simpa [Nat.digits_eq_nil_iff_eq_zero] using hn

/-- The decimal digits determine the number. -/
theorem ofDigits_decimalDigits (n : ℕ) : Nat.ofDigits 10 (decimalDigits n).reverse = n := by
  unfold decimalDigits
  split
  · rename_i hn
    simp [hn]
  · rw [List.reverse_reverse, Nat.ofDigits_digits]

/-- The characters of digits are read back as the digits. -/
theorem digitsTail_map_digitChar {ds : List ℕ} (h : ∀ d ∈ ds, d < 10) :
    digitsTail (ds.map digitChar) = some ds := by
  induction ds with
  | nil => rfl
  | cons d ds ih =>
    have hd : digitVal (digitChar d) = some d := digitVal_digitChar (h d (by simp))
    have hds := ih fun e he => h e (List.mem_cons_of_mem d he)
    rw [List.map_cons]
    unfold digitsTail
    simp only [hd, hds, Option.map_some]

/-- Reading the decimal text of a number back. -/
theorem digits_natText (n : ℕ) : digits (natText n) = some (decimalDigits n) := by
  have hlt : ∀ d ∈ decimalDigits n, d < 10 := fun d hd => decimalDigits_lt hd
  unfold natText
  cases hds : decimalDigits n with
  | nil => exact absurd hds (decimalDigits_ne_nil n)
  | cons d ds =>
    rw [hds] at hlt
    have hd : digitVal (digitChar d) = some d := digitVal_digitChar (hlt d (by simp))
    have htail := digitsTail_map_digitChar fun e he => hlt e (List.mem_cons_of_mem d he)
    simp only [List.map_cons, digits, hd, htail, Option.bind_some, Option.map_some]

/-- The text of a natural number determines it. -/
theorem natText_injective : Function.Injective natText := by
  intro m n h
  have hdigits : some (decimalDigits m) = some (decimalDigits n) := by
    rw [← digits_natText, ← digits_natText, h]
  rw [← ofDigits_decimalDigits m, ← ofDigits_decimalDigits n, Option.some.inj hdigits]

/-- The text of a number of at most `maxStrDigits` digits is read back. -/
theorem natOfText_natText {n : ℕ} (h : (decimalDigits n).length ≤ maxStrDigits) :
    natOfText (natText n) = some n := by
  rw [natOfText, digits_natText, Option.bind_some, if_pos h, ofDigits_decimalDigits]

/-- What a decimal digit is not. -/
theorem digitChar_ne {d : ℕ} (hd : d < 10) :
    isSpace (digitChar d) = false ∧ digitChar d ≠ cp '.' ∧ digitChar d ≠ cp '-' ∧
      digitChar d ≠ cp '+' := by
  interval_cases d <;> decide

/-- The text of a natural number has digits only. -/
theorem mem_natText {n : ℕ} {c : CodePoint} (hc : c ∈ natText n) : ∃ d < 10, c = digitChar d := by
  obtain ⟨d, hd, rfl⟩ := List.mem_map.mp hc
  exact ⟨d, decimalDigits_lt hd, rfl⟩

/-- The text of an integer has digits and perhaps a minus sign. -/
theorem mem_intText {z : ℤ} {c : CodePoint} (hc : c ∈ intText z) :
    c = cp '-' ∨ ∃ d < 10, c = digitChar d := by
  unfold intText at hc
  split at hc
  · rcases List.mem_cons.mp hc with rfl | hc
    · exact Or.inl rfl
    · exact Or.inr (mem_natText hc)
  · exact Or.inr (mem_natText hc)

/-- The text of an integer has no dot. -/
theorem dot_notMem_intText (z : ℤ) : cp '.' ∉ intText z := by
  intro hc
  rcases mem_intText hc with h | ⟨d, hd, h⟩
  · exact absurd h (by decide)
  · exact (digitChar_ne hd).2.1 h.symm

/-- The text of an integer has no blank. -/
theorem isSpace_intText {z : ℤ} {c : CodePoint} (hc : c ∈ intText z) : isSpace c = false := by
  rcases mem_intText hc with rfl | ⟨d, hd, rfl⟩
  · decide
  · exact (digitChar_ne hd).1

/-- The text of a number is not empty. -/
theorem natText_ne_nil (n : ℕ) : natText n ≠ [] := by
  simpa [natText] using decimalDigits_ne_nil n

/-- There is nothing to trim from the text of a number. -/
theorem trim_natText (n : ℕ) : trim isIntSpace (natText n) = natText n := by
  refine trim_eq_self_of_forall fun c hc => ?_
  obtain ⟨d, hd, rfl⟩ := mem_natText hc
  simp [isIntSpace, (digitChar_ne hd).1]

/-- `int` reads the text of a natural number back, within the digit limit. -/
theorem int_natText (n : ℕ) :
    int (natText n) = if (decimalDigits n).length ≤ maxStrDigits then some (n : ℤ) else none := by
  have hnat : natOfText (natText n) =
      if (decimalDigits n).length ≤ maxStrDigits then some n else none := by
    rw [natOfText, digits_natText, Option.bind_some, ofDigits_decimalDigits]
  rw [int, trim_natText]
  cases ht : natText n with
  | nil => exact absurd ht (natText_ne_nil n)
  | cons c cs =>
    obtain ⟨d, hd, hc⟩ := mem_natText (ht ▸ List.mem_cons_self : c ∈ natText n)
    have hne := digitChar_ne hd
    rw [ht] at hnat
    simp only [hnat, hc ▸ hne.2.2.1, hc ▸ hne.2.2.2, ↓reduceIte]
    split_ifs <;> rfl

/-- `int(str(z)) == z` within the digit limit. -/
theorem int_intText {z : ℤ} (h : (decimalDigits z.natAbs).length ≤ maxStrDigits) :
    int (intText z) = some z := by
  have hint := int_natText z.natAbs
  rw [if_pos h] at hint
  rw [intText]
  by_cases hz : z < 0
  · have htrim : trim isIntSpace (cp '-' :: natText z.natAbs) = cp '-' :: natText z.natAbs := by
      refine trim_eq_self_of_forall fun c hc => ?_
      have hc : c ∈ intText z := by rwa [intText, if_pos hz]
      simp [isIntSpace, isSpace_intText hc]
    rw [if_pos hz, int, htrim]
    simp only [natOfText_natText h, ↓reduceIte, Option.map_some, Option.some.injEq]
    omega
  · rw [if_neg hz, hint, Option.some.injEq]
    omega

/-- The text of an integer determines it. -/
theorem strInt_injective {a b : ℤ} {t : Str} (ha : strInt a = some t) (hb : strInt b = some t) :
    a = b := by
  simp only [strInt, Option.ite_none_right_eq_some, Option.some.injEq] at ha hb
  have h : some a = some b := by
    rw [← int_intText ha.1, ← int_intText hb.1, ha.2, hb.2]
  exact Option.some.inj h

/-- `int` reads what `str` has written. -/
theorem int_of_strInt {z : ℤ} {t : Str} (h : strInt z = some t) : int t = some z := by
  simp only [strInt, Option.ite_none_right_eq_some, Option.some.injEq] at h
  rw [← h.2, int_intText h.1]

/-- What `str` writes of an integer has no dot. -/
theorem dot_notMem_of_strInt {z : ℤ} {t : Str} (h : strInt z = some t) : cp '.' ∉ t := by
  simp only [strInt, Option.ite_none_right_eq_some, Option.some.injEq] at h
  exact h.2 ▸ dot_notMem_intText z

/-! ## Writing what was read

The text may be another one, since spaces, signs, leading zeros and other scripts are read as well. But
there is one: a number that was read is within the digit limit.
-/

/-- The digits that are read are below ten. -/
theorem digitsTail_lt {s : Str} {ds : List ℕ} (h : digitsTail s = some ds) : ∀ d ∈ ds, d < 10 := by
  induction s using digitsTail.induct generalizing ds with
  | case1 =>
    cases h
    simp
  | case2 c cs d hd ih =>
    unfold digitsTail at h
    simp only [hd, Option.map_eq_some_iff] at h
    obtain ⟨ds', hds', rfl⟩ := h
    intro e he
    rcases List.mem_cons.mp he with rfl | he
    · exact digitVal_lt hd
    · exact ih hds' e he
  | case3 c hd => simp [digitsTail, hd] at h
  | case4 c' cs' hd ih =>
    unfold digitsTail at h
    simp only [hd, ↓reduceIte, Option.bind_eq_some_iff, Option.map_eq_some_iff] at h
    obtain ⟨d, hd', ds', hds', rfl⟩ := h
    intro e he
    rcases List.mem_cons.mp he with rfl | he
    · exact digitVal_lt hd'
    · exact ih hds' e he
  | case5 c hd c' cs' hc =>
    unfold digitsTail at h
    simp [hd, hc] at h

/-- The digits of a text are below ten. -/
theorem digits_lt {s : Str} {ds : List ℕ} (h : digits s = some ds) : ∀ d ∈ ds, d < 10 := by
  cases s with
  | nil => cases h
  | cons c cs =>
    simp only [digits, Option.bind_eq_some_iff, Option.map_eq_some_iff] at h
    obtain ⟨d, hd, ds', hds', rfl⟩ := h
    intro e he
    rcases List.mem_cons.mp he with rfl | he
    · exact digitVal_lt hd
    · exact digitsTail_lt hds' e he

/-- A number below a power of ten has at most so many digits. -/
theorem length_decimalDigits_le {n k : ℕ} (hk : 0 < k) (h : n < 10 ^ k) :
    (decimalDigits n).length ≤ k := by
  unfold decimalDigits
  split
  · exact hk
  · rw [List.length_reverse]
    exact (Nat.digits_length_le_iff (by decide) n).mpr h

/-- A number that was read has at most `maxStrDigits` digits. -/
theorem length_decimalDigits_of_natOfText {s : Str} {n : ℕ} (h : natOfText s = some n) :
    (decimalDigits n).length ≤ maxStrDigits := by
  simp only [natOfText, Option.bind_eq_some_iff, Option.ite_none_right_eq_some,
    Option.some.injEq] at h
  obtain ⟨ds, hds, hlen, rfl⟩ := h
  refine length_decimalDigits_le (by decide) ?_
  have hlt : Nat.ofDigits 10 ds.reverse < 10 ^ ds.reverse.length :=
    Nat.ofDigits_lt_base_pow_length (by decide) fun d hd =>
      digits_lt hds d (List.mem_reverse.mp hd)
  rw [List.length_reverse] at hlt
  exact lt_of_lt_of_le hlt (Nat.pow_le_pow_right (by decide) hlen)

/-- An integer read from text is within the digit limit, so it has a text again. -/
theorem strInt_of_int {s : Str} {z : ℤ} (h : int s = some z) : strInt z = some (intText z) := by
  refine if_pos ?_
  unfold int at h
  split at h
  · cases h
  · split at h
    · obtain ⟨n, hn, rfl⟩ := Option.map_eq_some_iff.mp h
      simpa using length_decimalDigits_of_natOfText hn
    · split at h
      all_goals
        obtain ⟨n, hn, rfl⟩ := Option.map_eq_some_iff.mp h
        simpa using length_decimalDigits_of_natOfText hn

/-! ## Exceptions

A computation that may raise is an `Except`; these lemmas take a sequence of them apart.
-/

/-- The kinds of exception that the modelled library calls raise. -/
inductive Error where
  | valueError
  | typeError
  | attributeError
  | unicodeEncodeError
  | databaseError
  deriving DecidableEq, Repr

/-- A computation in sequence returns when both of its parts do. -/
theorem bind_eq_ok {ε α β : Type} {x : Except ε α} {f : α → Except ε β} {b : β} :
    x >>= f = .ok b ↔ ∃ a, x = .ok a ∧ f a = .ok b := by
  cases x with
  | error e => simp [bind, Except.bind]
  | ok a => simp [bind, Except.bind]

/-- A sequence fails where its first part does, or else its second one. -/
theorem bind_eq_error {ε α β : Type} {x : Except ε α} {f : α → Except ε β} {e : ε} :
    x >>= f = .error e ↔ x = .error e ∨ ∃ a, x = .ok a ∧ f a = .error e := by
  cases x with
  | error e => simp [bind, Except.bind]
  | ok a => simp [bind, Except.bind]

/-- A loop returns exactly what its turns return. -/
theorem mapM_eq_ok_iff {ε α β : Type} {f : α → Except ε β} {items : List α} {results : List β} :
    items.mapM f = .ok results ↔ List.Forall₂ (fun x y => f x = .ok y) items results := by
  induction items generalizing results with
  | nil =>
    rw [List.mapM_nil, List.forall₂_nil_left_iff]
    exact ⟨fun h => (Except.ok.inj h).symm, fun h => congrArg Except.ok h.symm⟩
  | cons x items ih =>
    rw [List.mapM_cons, bind_eq_ok, List.forall₂_cons_left_iff]
    constructor
    · rintro ⟨y, hy, h⟩
      obtain ⟨rest, hrest, h⟩ := bind_eq_ok.mp h
      cases h
      exact ⟨y, rest, hy, ih.mp hrest, rfl⟩
    · rintro ⟨y, rest, hy, hrest, rfl⟩
      exact ⟨y, hy, bind_eq_ok.mpr ⟨rest, ih.mpr hrest, rfl⟩⟩

/-- A loop returns exactly when all its turns do. -/
theorem mapM_returns {ε α β : Type} {f : α → Except ε β} {items : List α} :
    (∃ results, items.mapM f = .ok results) ↔ ∀ x ∈ items, ∃ y, f x = .ok y := by
  induction items with
  | nil => exact iff_of_true ⟨[], rfl⟩ (by simp)
  | cons x items ih =>
    rw [List.forall_mem_cons, ← ih, List.mapM_cons]
    constructor
    · rintro ⟨results, h⟩
      obtain ⟨y, hy, h⟩ := bind_eq_ok.mp h
      obtain ⟨rest, hrest, -⟩ := bind_eq_ok.mp h
      exact ⟨⟨y, hy⟩, rest, hrest⟩
    · rintro ⟨⟨y, hy⟩, rest, hrest⟩
      exact ⟨y :: rest, bind_eq_ok.mpr ⟨y, hy, bind_eq_ok.mpr ⟨rest, hrest, rfl⟩⟩⟩

/-- A loop whose turns all return returns their results. -/
theorem mapM_eq_ok {ε α β : Type} {f : α → Except ε β} {g : α → β} {items : List α}
    (h : ∀ x ∈ items, f x = .ok (g x)) : items.mapM f = .ok (items.map g) := by
  induction items with
  | nil => rfl
  | cons x items ih =>
    rw [List.mapM_cons, h x List.mem_cons_self, ih fun y hy => h y (List.mem_cons_of_mem x hy)]
    rfl

/-! ## Clock readings

A clock reading is a rational number of seconds, and what is stored of it is its truncation.
-/

/-- `int(x)` of a float: the fraction is dropped. -/
def truncate (x : ℚ) : ℤ := if 0 ≤ x then ⌊x⌋ else ⌈x⌉

/-- An integer is its own truncation. -/
theorem truncate_intCast (n : ℤ) : truncate n = n := by
  simp [truncate]

/-- Truncation keeps the order. -/
theorem truncate_mono {x y : ℚ} (h : x ≤ y) : truncate x ≤ truncate y := by
  unfold truncate
  by_cases hx : 0 ≤ x
  · rw [if_pos hx, if_pos (hx.trans h)]
    exact Int.floor_mono h
  · rw [if_neg hx]
    by_cases hy : 0 ≤ y
    · rw [if_pos hy]
      have hle : ⌈x⌉ ≤ 0 := Int.ceil_le.mpr (by exact_mod_cast (not_le.mp hx).le)
      exact hle.trans (Int.floor_nonneg.mpr hy)
    · rw [if_neg hy]
      exact Int.ceil_mono h

/-- Moving a clock reading by whole seconds into the future moves its truncation at most as far. -/
theorem truncate_add_natCast_le (x : ℚ) (n : ℕ) : truncate (x + n) ≤ truncate x + n := by
  unfold truncate
  by_cases hx : 0 ≤ x
  · have hxn : 0 ≤ x + n := add_nonneg hx (Nat.cast_nonneg n)
    rw [if_pos hx, if_pos hxn, Int.floor_add_natCast]
  · rw [if_neg hx, ← Int.ceil_add_natCast]
    split
    · exact Int.floor_le_ceil _
    · exact le_refl _

end Python
