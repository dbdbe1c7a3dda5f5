import Ghpulse.Library.Quoting
import Ghpulse.Library.Runs

/-!
# The text of a value

`repr` of `None`, integers, strings, and of lists of pairs of a string and a value. The texts are read
from the left: an escape gives its character back, so a quoted string ends where its text does, and
from there on a list has one reading.

A scanner that knows no more than the quotes shows that a list does not begin inside of another one:
two scanners that start in different states at the same place never agree again.
-/

namespace Python

variable (printable : CodePoint → Bool)

/-- The two quotes. -/
def IsQuote (q : CodePoint) : Prop := q = cp '\'' ∨ q = cp '"'

instance (q : CodePoint) : Decidable (IsQuote q) := inferInstanceAs (Decidable (_ ∨ _))

/-- `repr` puts a text between quotation marks of one of the two kinds. -/
theorem isQuote_reprQuote (s : Str) : IsQuote (reprQuote s) := by
  unfold reprQuote
  split
  · exact Or.inr rfl
  · exact Or.inl rfl

/-! ## Reading an escape back

The escapes of `repr` are a backslash and a character, or a code in two, four or eight hexadecimal digits.
-/

/-- The value of a lower-case hexadecimal digit. -/
def hexDigitVal (c : CodePoint) : ℕ := if c.val < 0x3a then c.val - 0x30 else c.val - 0x57

/-- The value of a text of hexadecimal digits. -/
def hexVal (s : Str) : ℕ := s.foldl (fun acc c => 16 * acc + hexDigitVal c) 0

/-- The character at the start of a quoted text, and the text after it. -/
def unescape : Str → Option (CodePoint × Str)
  | [] => none
  | c :: r =>
    if c ≠ cp '\\' then some (c, r)
    else
      match r with
      | [] => none
      | l :: r =>
        if l = cp 't' then some (Fin.ofNat 0x110000 0x9, r)
        else if l = cp 'n' then some (Fin.ofNat 0x110000 0xa, r)
        else if l = cp 'r' then some (Fin.ofNat 0x110000 0xd, r)
        else if l = cp 'x' then some (Fin.ofNat 0x110000 (hexVal (r.take 2)), r.drop 2)
        else if l = cp 'u' then some (Fin.ofNat 0x110000 (hexVal (r.take 4)), r.drop 4)
        else if l = cp 'U' then some (Fin.ofNat 0x110000 (hexVal (r.take 8)), r.drop 8)
        else some (l, r)

/-- A hexadecimal digit is read back, and is neither a backslash nor a quotation mark. -/
theorem hexDigit_spec {d : ℕ} (hd : d < 16) :
    hexDigitVal (hexDigit d) = d ∧ hexDigit d ≠ cp '\\' ∧ ¬ IsQuote (hexDigit d) := by
  interval_cases d <;> decide

/-- A number is written with the width that is asked for. -/
theorem length_hexText (width n : ℕ) : (hexText width n).length = width := by
  induction width generalizing n with
  | zero => rfl
  | succ width ih => rw [hexText, List.length_append, ih, List.length_singleton]

/-- It is read back up to that width. -/
theorem hexVal_hexText (width n : ℕ) : hexVal (hexText width n) = n % 16 ^ width := by
  induction width generalizing n with
  | zero => rw [pow_zero, Nat.mod_one]; rfl
  | succ width ih =>
    have hd := (hexDigit_spec (Nat.mod_lt n (by decide : 0 < 16))).1
    have hval := ih (n / 16)
    unfold hexVal at hval ⊢
    rw [hexText, List.foldl_append, hval, List.foldl_cons, List.foldl_nil, hd, pow_succ', Nat.mod_mul]
    omega

/-- The digits of a character are read back. -/
theorem hexVal_append {width : ℕ} {c : CodePoint} (hc : c.val < 16 ^ width) (r : Str) :
    Fin.ofNat 0x110000 (hexVal ((hexText width c.val ++ r).take width)) = c ∧
      (hexText width c.val ++ r).drop width = r := by
  have hlen := length_hexText width c.val
  refine ⟨?_, List.drop_left' hlen⟩
  rw [List.take_left' hlen, hexVal_hexText, Nat.mod_eq_of_lt hc]
  exact Fin.ofNat_val_eq_self c

/-- The escape of a character is read back to the character. -/
theorem unescape_reprEscape {q : CodePoint} (hq : IsQuote q) (c : CodePoint) (r : Str) :
    unescape (reprEscape printable q c ++ r) = some (c, r) := by
  have hpoint (n : ℕ) (h : c.val = n) : Fin.ofNat 0x110000 n = c := h ▸ Fin.ofNat_val_eq_self c
  have hhex (l : CodePoint) (width : ℕ) (hc : c.val < 16 ^ width)
      (hl : ∀ r, unescape (cp '\\' :: l :: r) =
        some (Fin.ofNat 0x110000 (hexVal (r.take width)), r.drop width)) :
      unescape (cp '\\' :: l :: hexText width c.val ++ r) = some (c, r) := by
    obtain ⟨hval, hrest⟩ := hexVal_append hc r
    rw [List.cons_append, List.cons_append, hl, hval, hrest]
  have hmax : c.val < 0x110000 := c.isLt
  unfold reprEscape
  split_ifs with hself htab hline hreturn hcontrol hplain hx hu
  · have hc : c = cp '\'' ∨ c = cp '"' ∨ c = cp '\\' := by
      rcases hself with rfl | rfl
      · rcases hq with rfl | rfl
        · exact Or.inl rfl
        · exact Or.inr (Or.inl rfl)
      · exact Or.inr (Or.inr rfl)
    rcases hc with rfl | rfl | rfl <;> rfl
  · show some (Fin.ofNat 0x110000 0x9, r) = _
    rw [hpoint _ htab]
  · show some (Fin.ofNat 0x110000 0xa, r) = _
    rw [hpoint _ hline]
  · show some (Fin.ofNat 0x110000 0xd, r) = _
    rw [hpoint _ hreturn]
  · exact hhex (cp 'x') 2 (by omega) fun _ => rfl
  · rw [not_or] at hself
    exact if_pos hself.2
  · exact hhex (cp 'x') 2 (by omega) fun _ => rfl
  · exact hhex (cp 'u') 4 (by omega) fun _ => rfl
  · exact hhex (cp 'U') 8 (by omega) fun _ => rfl

/-! ## Strings

The closing quote is the first quote that is not part of an escape.
-/

/-- An escape does not start with the quote. -/
theorem reprEscape_ne_quote {q : CodePoint} (hq : IsQuote q) (c : CodePoint) (x y : Str) :
    reprEscape printable q c ++ x ≠ q :: y := by
  intro h
  rcases reprEscape_eq printable q c with ⟨hplain, hne, -⟩ | ⟨t, ht⟩
  · rw [hplain] at h
    exact hne (List.cons.inj h).1
  · rw [ht] at h
    rw [← (List.cons.inj h).1] at hq
    revert hq
    decide

/-- The characters between the quotes end where the text does. -/
theorem flatMap_reprEscape_cut {q : CodePoint} (hq : IsQuote q) {s s' r r' : Str}
    (h : s.flatMap (reprEscape printable q) ++ q :: r =
      s'.flatMap (reprEscape printable q) ++ q :: r') : s = s' ∧ r = r' := by
  induction s generalizing s' with
  | nil =>
    cases s' with
    | nil => exact ⟨rfl, (List.cons.inj h).2⟩
    | cons c' s' =>
      rw [List.flatMap_cons, List.append_assoc] at h
      exact absurd h.symm (reprEscape_ne_quote printable hq _ _ _)
  | cons c s ih =>
    rw [List.flatMap_cons, List.append_assoc] at h
    cases s' with
    | nil => exact absurd h (reprEscape_ne_quote printable hq _ _ _)
    | cons c' s' =>
      rw [List.flatMap_cons, List.append_assoc] at h
      have hread := congrArg unescape h
      rw [unescape_reprEscape printable hq, unescape_reprEscape printable hq,
        Option.some.injEq, Prod.mk.injEq] at hread
      obtain ⟨rfl, htail⟩ := hread
      obtain ⟨rfl, hr⟩ := ih htail
      exact ⟨rfl, hr⟩

/-- The `repr` of a string determines it, whatever text comes after. -/
theorem repr_cut {s s' r r' : Str} (h : repr printable s ++ r = repr printable s' ++ r') :
    s = s' ∧ r = r' := by
  unfold repr at h
  simp only [List.cons_append, List.append_assoc, List.nil_append, List.cons.injEq] at h
  obtain ⟨hquote, hbody⟩ := h
  rw [← hquote] at hbody
  exact flatMap_reprEscape_cut printable (isQuote_reprQuote s) hbody

/-! ## Values

The three kinds of values start with different characters, so a reader knows which one it has before it.
-/

/-- `None`, an `int` or a `str`. -/
inductive Scalar where
  | none
  | int (z : ℤ)
  | str (s : Str)
  deriving DecidableEq

/-- `repr(value)` has a text: an integer is within the digit limit. -/
def Scalar.HasRepr : Scalar → Prop
  | .int z => (decimalDigits z.natAbs).length ≤ maxStrDigits
  | _ => True

instance : DecidablePred Scalar.HasRepr := fun v => by
  cases v <;> unfold Scalar.HasRepr <;> infer_instance

/-- The text of `repr(value)`. -/
def Scalar.repr : Scalar → Str
  | .none => lit "None"
  | .int z => intText z
  | .str s => Python.repr printable s

/-- Different integers have different texts. -/
theorem intText_injective : Function.Injective intText := by
  intro a b h
  have hminus (n : ℕ) (t : Str) : natText n ≠ cp '-' :: t := by
    intro ht
    obtain ⟨d, hd, hc⟩ := mem_natText (ht ▸ List.mem_cons_self : cp '-' ∈ natText n)
    exact (digitChar_ne hd).2.2.1 hc.symm
  unfold intText at h
  split_ifs at h with ha hb hb
  · have := natText_injective (List.cons.inj h).2
    omega
  · exact absurd h.symm (hminus _ _)
  · exact absurd h (hminus _ _)
  · have := natText_injective h
    omega

/-- How the text of a value starts. -/
theorem Scalar.repr_eq_cons (v : Scalar) : ∃ c t, v.repr printable = c :: t ∧
    match v with
    | .none => c = cp 'N'
    | .int _ => c = cp '-' ∨ ∃ d < 10, c = digitChar d
    | .str _ => IsQuote c := by
  cases v with
  | none => exact ⟨_, _, rfl, rfl⟩
  | str s => exact ⟨_, _, rfl, isQuote_reprQuote s⟩
  | int z =>
    cases ht : intText z with
    | nil =>
      unfold intText at ht
      split_ifs at ht
      exact absurd ht (natText_ne_nil _)
    | cons c t =>
      exact ⟨c, t, ht, mem_intText (ht ▸ List.mem_cons_self : c ∈ intText z)⟩

/-- The first characters of the texts of an integer, of a string and of `None` differ. -/
theorem digit_ne {c : CodePoint} (hc : c = cp '-' ∨ ∃ d < 10, c = digitChar d) :
    c ≠ cp 'N' ∧ c ≠ cp ')' ∧ ¬ IsQuote c := by
  rcases hc with rfl | ⟨d, hd, rfl⟩
  · decide
  · interval_cases d <;> decide

/-- The text of a value before a bracket determines it. -/
theorem Scalar.repr_cut {v v' : Scalar} {r r' : Str}
    (h : v.repr printable ++ cp ')' :: r = v'.repr printable ++ cp ')' :: r') : v = v' ∧ r = r' := by
  obtain ⟨c, t, hv, hc⟩ := v.repr_eq_cons printable
  obtain ⟨c', t', hv', hc'⟩ := v'.repr_eq_cons printable
  obtain rfl : c = c' := by
    rw [hv, hv'] at h
    exact (List.cons.inj h).1
  have hnone : ¬ IsQuote (cp 'N') := by decide
  cases v with
  | none =>
    cases v' with
    | none => exact ⟨rfl, List.cons.inj (List.append_cancel_left h) |>.2⟩
    | int z => exact absurd hc (digit_ne hc').1
    | str s => exact absurd (hc ▸ hc') hnone
  | int z =>
    cases v' with
    | none => exact absurd hc' (digit_ne hc).1
    | int z' =>
      have hbracket (z : ℤ) : cp ')' ∉ intText z := fun hmem => (digit_ne (mem_intText hmem)).2.1 rfl
      obtain ⟨htext, hr⟩ := append_cons_inj (hbracket z) (hbracket z') h
      rw [intText_injective htext]
      exact ⟨rfl, hr⟩
    | str s => exact absurd hc' (digit_ne hc).2.2
  | str s =>
    cases v' with
    | none => exact absurd (hc' ▸ hc) hnone
    | int z => exact absurd hc (digit_ne hc').2.2
    | str s' =>
      obtain ⟨rfl, hr⟩ := Python.repr_cut printable h
      exact ⟨rfl, (List.cons.inj hr).2⟩

/-! ## Lists of pairs

The separators are fixed texts, and each item can be cut off before it.
-/

/-- `repr` of a pair. -/
def reprItem (item : Str × Scalar) : Str :=
  cp '(' :: (repr printable item.1 ++ lit ", " ++ item.2.repr printable ++ [cp ')'])

/-- The text of a list after its first item. -/
def reprTail : List (Str × Scalar) → Str
  | [] => [cp ']']
  | item :: items => lit ", " ++ reprItem printable item ++ reprTail items

/-- `repr` of a list of pairs. -/
def reprList : List (Str × Scalar) → Str
  | [] => lit "[]"
  | item :: items => cp '[' :: (reprItem printable item ++ reprTail printable items)

/-- An item is cut off in one way only. -/
theorem reprItem_cut {a b : Str × Scalar} {r r' : Str}
    (h : reprItem printable a ++ r = reprItem printable b ++ r') : a = b ∧ r = r' := by
  unfold reprItem at h
  simp only [List.cons_append, List.append_assoc, List.nil_append, List.cons.injEq, true_and] at h
  obtain ⟨hname, h⟩ := repr_cut printable h
  obtain ⟨hvalue, hr⟩ := Scalar.repr_cut printable (List.append_cancel_left h)
  exact ⟨Prod.ext hname hvalue, hr⟩

/-- The rest of a list determines its items. -/
theorem reprTail_injective : Function.Injective (reprTail printable) := by
  intro a b h
  induction a generalizing b with
  | nil =>
    cases b with
    | nil => rfl
    | cons y b => exact absurd (List.cons.inj h).1 (by decide)
  | cons x a ih =>
    cases b with
    | nil => exact absurd (List.cons.inj h).1 (by decide)
    | cons y b =>
      rw [reprTail, reprTail, List.append_assoc, List.append_assoc] at h
      obtain ⟨rfl, htail⟩ := reprItem_cut printable (List.append_cancel_left h)
      rw [ih htail]

/-- The text of a list of pairs determines it. -/
theorem reprList_injective : Function.Injective (reprList printable) := by
  intro a b h
  cases a with
  | nil =>
    cases b with
    | nil => rfl
    | cons y b => exact absurd (List.cons.inj (List.cons.inj h).2).1 (by decide)
  | cons x a =>
    cases b with
    | nil => exact absurd (List.cons.inj (List.cons.inj h).2).1 (by decide)
    | cons y b =>
      obtain ⟨rfl, htail⟩ := reprItem_cut printable (List.cons.inj h).2
      rw [reprTail_injective printable htail]

/-! ## Scanning for quotes

A list could be preceded by any name. That a name, a colon and a list can still be taken apart needs a
different argument, since nothing is known about the name: the scanner is run from the end of one list and
from within the other.
-/

/-- Where a scanner is: between strings, in a string, or after a backslash in it. -/
inductive Scan where
  | out
  | inside (q : CodePoint)
  | escaped (q : CodePoint)

/-- Reading one character; neither a colon nor a backslash stands between strings. -/
def Scan.next : Scan → CodePoint → Option Scan
  | .out, c =>
    if IsQuote c then some (.inside c) else if c = cp ':' ∨ c = cp '\\' then none else some .out
  | .inside q, c =>
    if c = q then some .out else if c = cp '\\' then some (.escaped q) else some (.inside q)
  | .escaped q, _ => some (.inside q)

/-- Two scanners that disagree, one of which is in a string. -/
def Scan.Apart : Scan → Scan → Prop
  | .out, .inside q => IsQuote q
  | .inside q, .out => IsQuote q
  | .inside q, .inside r => IsQuote q ∧ IsQuote r ∧ q ≠ r
  | .escaped q, .escaped r => IsQuote q ∧ IsQuote r ∧ q ≠ r
  | _, _ => False

/-- Being apart is symmetric. -/
theorem Scan.Apart.symm {a b : Scan} (h : a.Apart b) : b.Apart a := by
  cases a <;> cases b <;> simp only [Scan.Apart] at h ⊢
  all_goals first
    | exact h
    | exact ⟨h.2.1, h.1, h.2.2.symm⟩

/-- A quotation mark is no backslash. -/
theorem IsQuote.ne_backslash {q : CodePoint} (hq : IsQuote q) : q ≠ cp '\\' := by
  rintro rfl
  revert hq
  decide

/-- Between strings against inside of one. -/
theorem Scan.apart_of_out {q c : CodePoint} {a' b' : Scan} (hq : IsQuote q)
    (ha : Scan.out.next c = some a') (hb : (Scan.inside q).next c = some b') : a'.Apart b' := by
  simp only [Scan.next] at ha hb
  by_cases hc : IsQuote c
  · rw [if_pos hc] at ha
    obtain rfl := Option.some.inj ha
    by_cases hcq : c = q
    · rw [if_pos hcq] at hb
      obtain rfl := Option.some.inj hb
      exact hc
    · rw [if_neg hcq, if_neg hc.ne_backslash] at hb
      obtain rfl := Option.some.inj hb
      exact ⟨hc, hq, hcq⟩
  · have hcq : c ≠ q := fun h => hc (h ▸ hq)
    rw [if_neg hc] at ha
    split_ifs at ha with hother
    obtain rfl := Option.some.inj ha
    rw [if_neg hcq, if_neg fun h => hother (Or.inr h)] at hb
    obtain rfl := Option.some.inj hb
    exact hq

/-- Scanners that disagree go on to disagree. -/
theorem Scan.Apart.next {a b a' b' : Scan} {c : CodePoint} (h : a.Apart b)
    (ha : a.next c = some a') (hb : b.next c = some b') : a'.Apart b' := by
  cases a with
  | out =>
    cases b with
    | inside q => exact Scan.apart_of_out h ha hb
    | out => exact h.elim
    | escaped q => exact h.elim
  | escaped q =>
    cases b with
    | escaped r =>
      cases ha
      cases hb
      exact h
    | out => exact h.elim
    | inside r => exact h.elim
  | inside q =>
    cases b with
    | out => exact (Scan.apart_of_out h hb ha).symm
    | escaped r => exact h.elim
    | inside r =>
      obtain ⟨hq, hr, hne⟩ := h
      simp only [Scan.next] at ha hb
      by_cases hcq : c = q
      · subst hcq
        rw [if_pos rfl] at ha
        rw [if_neg hne, if_neg hq.ne_backslash] at hb
        cases ha
        cases hb
        exact hr
      · rw [if_neg hcq] at ha
        by_cases hcr : c = r
        · subst hcr
          rw [if_neg hr.ne_backslash] at ha
          rw [if_pos rfl] at hb
          cases ha
          cases hb
          exact hq
        · rw [if_neg hcr] at hb
          split_ifs at ha hb <;> cases ha <;> cases hb <;> exact ⟨hq, hr, hne⟩

/-- Two scans that are apart stay so over the same text. -/
theorem Scan.Apart.run {a b a' b' : Scan} {s : Str} (h : a.Apart b)
    (ha : Runs.run Scan.next a s = some a') (hb : Runs.run Scan.next b s = some b') :
    a'.Apart b' := by
  induction s generalizing a b with
  | nil =>
    cases ha
    cases hb
    exact h
  | cons c s ih =>
    obtain ⟨m, hm, ha⟩ := Runs.run_cons.mp ha
    obtain ⟨n, hn, hb⟩ := Runs.run_cons.mp hb
    exact ih (h.next hm hn) ha hb

/-- A text that leaves the scanner where it was. -/
def Neutral (a : Scan) (s : Str) : Prop := Runs.run Scan.next a s = some a

/-- Two texts that leave a scan where it was do so together. -/
theorem Neutral.append {a : Scan} {s t : Str} (hs : Neutral a s) (ht : Neutral a t) :
    Neutral a (s ++ t) := Runs.run_append.mpr ⟨a, hs, ht⟩

/-- So do the texts of a list of items. -/
theorem neutral_flatMap {α : Type} {a : Scan} {f : α → Str} (hf : ∀ x, Neutral a (f x))
    (items : List α) : Neutral a (items.flatMap f) := by
  induction items with
  | nil => exact rfl
  | cons x items ih =>
    rw [List.flatMap_cons]
    exact (hf x).append ih

/-- Characters that a step leaves the scanner at. -/
theorem neutral_of_forall {a : Scan} {s : Str} (h : ∀ c ∈ s, a.next c = some a) : Neutral a s := by
  induction s with
  | nil => exact rfl
  | cons c s ih =>
    obtain ⟨hc, hs⟩ := List.forall_mem_cons.mp h
    exact Runs.run_cons.mpr ⟨a, hc, ih hs⟩

/-- The digits of an escape are neither backslash nor quotation mark. -/
theorem hexText_plain {width n : ℕ} {c : CodePoint} (hc : c ∈ hexText width n) :
    c ≠ cp '\\' ∧ ¬ IsQuote c := by
  obtain ⟨d, hd, rfl⟩ := mem_hexText hc
  exact (hexDigit_spec hd).2

/-- An escape stays in its string. -/
theorem neutral_reprEscape {q : CodePoint} (hq : IsQuote q) (c : CodePoint) :
    Neutral (.inside q) (reprEscape printable q c) := by
  have hstay {c : CodePoint} (hslash : c ≠ cp '\\') (hne : c ≠ q) :
      (Scan.inside q).next c = some (.inside q) := by
    simp only [Scan.next, if_neg hne, if_neg hslash]
  have hescape (l : CodePoint) {t : Str} (ht : Neutral (.inside q) t) :
      Neutral (.inside q) (cp '\\' :: l :: t) := by
    refine Runs.run_cons.mpr ⟨.escaped q, ?_, Runs.run_cons.mpr ⟨.inside q, rfl, ht⟩⟩
    simp only [Scan.next, if_neg hq.ne_backslash.symm, ↓reduceIte]
  have hnil : Neutral (.inside q) [] := rfl
  have hhex (width : ℕ) : Neutral (.inside q) (hexText width c.val) :=
    neutral_of_forall fun d hd => hstay (hexText_plain hd).1 fun h => (hexText_plain hd).2 (h ▸ hq)
  unfold reprEscape
  split_ifs with hself
  · exact hescape c hnil
  · exact hescape _ hnil
  · exact hescape _ hnil
  · exact hescape _ hnil
  · exact hescape _ (hhex 2)
  · rw [not_or] at hself
    exact Runs.run_cons.mpr ⟨_, hstay hself.2 hself.1, rfl⟩
  · exact hescape _ (hhex 2)
  · exact hescape _ (hhex 4)
  · exact hescape _ (hhex 8)

/-- A quoted string is read as a whole. -/
theorem neutral_repr (s : Str) : Neutral .out (repr printable s) := by
  have hq := isQuote_reprQuote s
  refine Runs.run_cons.mpr ⟨.inside (reprQuote s), if_pos hq,
    Runs.run_append.mpr ⟨.inside (reprQuote s), ?_, ?_⟩⟩
  · exact neutral_flatMap (neutral_reprEscape printable hq) s
  · exact Runs.run_cons.mpr ⟨.out, if_pos rfl, rfl⟩

/-- The `repr` of a scalar ends outside of every literal. -/
theorem Scalar.neutral_repr (v : Scalar) : Neutral .out (v.repr printable) := by
  cases v with
  | none => exact rfl
  | str s => exact Python.neutral_repr printable s
  | int z =>
    refine neutral_of_forall fun c hc => ?_
    rcases mem_intText hc with rfl | ⟨d, hd, rfl⟩
    · rfl
    · interval_cases d <;> rfl

/-- So does that of an item. -/
theorem neutral_reprItem (item : Str × Scalar) : Neutral .out (reprItem printable item) := by
  have hname := neutral_repr printable item.1
  have hvalue := item.2.neutral_repr printable
  have hcomma : Neutral .out (lit ", ") := rfl
  have hclose : Neutral .out [cp ')'] := rfl
  have hopen : Neutral .out [cp '('] := rfl
  exact hopen.append (((hname.append hcomma).append hvalue).append hclose)

/-- So does the rest of a list. -/
theorem neutral_reprTail (items : List (Str × Scalar)) : Neutral .out (reprTail printable items) := by
  induction items with
  | nil => exact rfl
  | cons x items ih =>
    have hcomma : Neutral .out (lit ", ") := rfl
    exact (hcomma.append (neutral_reprItem printable x)).append ih

/-- So does a list. -/
theorem neutral_reprList (items : List (Str × Scalar)) : Neutral .out (reprList printable items) := by
  cases items with
  | nil => exact rfl
  | cons x items =>
    have hopen : Neutral .out [cp '['] := rfl
    exact hopen.append ((neutral_reprItem printable x).append (neutral_reprTail printable items))

/-- A scanner inside of a string knows its quote. -/
def Scan.Quoted : Scan → Prop
  | .out => True
  | .inside q => IsQuote q
  | .escaped q => IsQuote q

/-- A scan inside of a literal that goes on stays in one of its states. -/
theorem Scan.Quoted.next {a a' : Scan} {c : CodePoint} (h : a.Quoted) (ha : a.next c = some a') :
    a'.Quoted := by
  cases a with
  | out =>
    simp only [Scan.next] at ha
    split_ifs at ha with hc
    · obtain rfl := Option.some.inj ha
      exact hc
    · obtain rfl := Option.some.inj ha
      trivial
  | inside q =>
    simp only [Scan.next] at ha
    split_ifs at ha <;> obtain rfl := Option.some.inj ha
    · trivial
    · exact h
    · exact h
  | escaped q =>
    obtain rfl := Option.some.inj ha
    exact h

/-- After a colon the scanner is in a string. -/
theorem Scan.Quoted.next_colon {a a' : Scan} (h : a.Quoted) (ha : a.next (cp ':') = some a') :
    ∃ q, IsQuote q ∧ a' = .inside q := by
  cases a with
  | out => cases ha
  | inside q =>
    have hcolon : ¬ IsQuote (cp ':') := by decide
    have hne : cp ':' ≠ q := fun heq => hcolon (heq ▸ h)
    simp only [Scan.next, if_neg hne] at ha
    exact ⟨q, h, (Option.some.inj ha).symm⟩
  | escaped q => exact ⟨q, h, (Option.some.inj ha).symm⟩

/-- A list does not end with a colon and another list: the colon would stand in a string, and the
scanner that has read the string so far disagrees with the one that starts there. -/
theorem reprList_ne_append (p : Str) (a b : List (Str × Scalar)) :
    reprList printable a ≠ p ++ cp ':' :: reprList printable b := by
  intro h
  have ha := neutral_reprList printable a
  rw [h] at ha
  obtain ⟨m, hp, hrest⟩ := Runs.run_append.mp ha
  obtain ⟨m', hcolon, hrest⟩ := Runs.run_cons.mp hrest
  have hout : Scan.out.Quoted := trivial
  have hm : m.Quoted := Runs.run_preserves (fun _ _ _ => Scan.Quoted.next) hout hp
  obtain ⟨q, hq, rfl⟩ := hm.next_colon hcolon
  have hapart : (Scan.inside q).Apart .out := hq
  exact hapart.run hrest (neutral_reprList printable b)

/-- A name, a colon and a list determine the name and the list. -/
theorem append_reprList_injective {p q : Str} {a b : List (Str × Scalar)}
    (h : p ++ cp ':' :: reprList printable a = q ++ cp ':' :: reprList printable b) :
    p = q ∧ a = b := by
  rcases List.append_eq_append_iff.mp h with ⟨t, hq, ha⟩ | ⟨t, hp, hb⟩
  · cases t with
    | nil =>
      rw [List.append_nil] at hq
      exact ⟨hq.symm, reprList_injective printable (List.cons.inj ha).2⟩
    | cons c t =>
      exact absurd (List.cons.inj ha).2 (reprList_ne_append printable t a b)
  · cases t with
    | nil =>
      rw [List.append_nil] at hp
      exact ⟨hp, reprList_injective printable (List.cons.inj hb).2.symm⟩
    | cons c t =>
      exact absurd (List.cons.inj hb).2 (reprList_ne_append printable t b a)

end Python
