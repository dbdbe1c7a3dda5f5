import Ghpulse.Library.PyStr

/-!
# Textual replacement

Python's `str.replace` and what leaves a part of a text alone: a replacement changes nothing before the
first place at which the searched text starts, so a part in which it never starts can be split off.
`Clear` is a check of one part alone, whatever text follows it.
-/

namespace Python

/-- `replace` after the first `skip` characters, which belong to an occurrence already replaced. -/
def replaceFrom (old new : Str) : ℕ → Str → Str
  | _, [] => []
  | skip + 1, _ :: s => replaceFrom old new skip s
  | 0, c :: s =>
    if old.isPrefixOf (c :: s) then new ++ replaceFrom old new (old.length - 1) s
    else c :: replaceFrom old new 0 s

/-- `s.replace(old, new)` for a non-empty `old`: every occurrence, from the left, without overlaps. -/
def replace (old new s : Str) : Str := replaceFrom old new 0 s

/-- No occurrence of `old` starts inside `a` when `b` follows. -/
def NoStart (old a b : Str) : Prop := ∀ v, v <:+ a → v ≠ [] → ¬ old <+: v ++ b

/-- No occurrence of `old` starts inside `a`, whatever follows: `old` neither occurs in `a` nor starts
with an end of `a`. -/
def clear (old a : Str) : Bool :=
  a.tails.all fun v => v.isEmpty || (!old.isPrefixOf v && !v.isPrefixOf old)

variable {old new a b c : Str}

/-! ## Where an occurrence can start

An occurrence that starts in a part of a text may reach beyond it. `NoStart` takes the text after the part
into account, and `clear` does not need it.
-/

theorem NoStart.nil : NoStart old [] b := fun _ hv hne => absurd (List.suffix_nil.mp hv) hne

/-- An occurrence that starts in a concatenation starts in one of its two parts. -/
theorem NoStart.append (ha : NoStart old a (b ++ c)) (hb : NoStart old b c) :
    NoStart old (a ++ b) c := by
  intro v hv hne hp
  rcases List.suffix_or_suffix_of_suffix hv (List.suffix_append a b) with h | ⟨t, rfl⟩
  · exact hb v h hne hp
  · have ht : t <:+ a := by
      obtain ⟨u, hu⟩ := hv
      exact ⟨u, List.append_cancel_right (by rw [List.append_assoc, hu])⟩
    by_cases hnil : t = []
    · subst hnil
      exact hb b (List.suffix_refl b) hne hp
    · exact ha t ht hnil (by rwa [← List.append_assoc])

/-- A longer text starts only where its beginning does. -/
theorem NoStart.mono {p : Str} (hp : p <+: old) (h : NoStart p a b) : NoStart old a b :=
  fun v hv hne hold => h v hv hne (hp.trans hold)

theorem noStart_of_clear (h : clear old a = true) : NoStart old a b := by
  intro v hv hne hp
  have hall := List.all_eq_true.mp h v ((List.mem_tails v a).mpr hv)
  have hv' : ¬ old <+: v ∧ ¬ v <+: old := by
    simpa [hne, List.isPrefixOf_iff_prefix, ← Bool.not_eq_true] using hall
  rcases List.prefix_or_prefix_of_prefix hp (List.prefix_append v b) with h | h
  · exact hv'.1 h
  · exact hv'.2 h

/-! ## What a replacement does

A text is taken apart into pieces in which no occurrence starts, and occurrences.
-/

theorem replaceFrom_length (s t : Str) : replaceFrom old new s.length (s ++ t) = replace old new t := by
  induction s with
  | nil => rfl
  | cons x s ih => exact ih

/-- A part in which no occurrence starts stays as it is. -/
theorem replace_append (h : NoStart old a b) : replace old new (a ++ b) = a ++ replace old new b := by
  induction a with
  | nil => rfl
  | cons x a ih =>
    have hx : ¬ old <+: x :: a ++ b := h _ (List.suffix_refl _) (List.cons_ne_nil x a)
    have hstep : replace old new (x :: a ++ b) = x :: replace old new (a ++ b) := by
      rw [replace, List.cons_append, replaceFrom, if_neg]
      · rfl
      · rwa [List.isPrefixOf_iff_prefix]
    rw [hstep, ih fun v hv hne => h v (hv.trans (List.suffix_cons x a)) hne]
    rfl

/-- An occurrence at the front is replaced. -/
theorem replace_occurrence (hne : old ≠ []) : replace old new (old ++ b) = new ++ replace old new b := by
  obtain ⟨x, s, rfl⟩ := List.exists_cons_of_ne_nil hne
  rw [replace, List.cons_append, replaceFrom, if_pos]
  · congr 1
    exact replaceFrom_length s b
  · rw [List.isPrefixOf_iff_prefix]
    exact List.prefix_append _ _

/-- A text in which no occurrence starts stays as it is. -/
theorem replace_of_noStart (h : NoStart old a []) : replace old new a = a := by
  have hsplit : replace old new (a ++ []) = a ++ replace old new [] := replace_append h
  rw [List.append_nil] at hsplit
  exact hsplit.trans (List.append_nil a)

/-- A text with one occurrence: the occurrence is replaced, and the text after goes on by itself. -/
theorem replace_once (hne : old ≠ []) (ha : ∀ rest, NoStart old a rest) (hb : ∀ rest, NoStart old b rest) :
    replace old new (a ++ old ++ b ++ c) = a ++ new ++ b ++ replace old new c := by
  simp only [List.append_assoc]
  rw [replace_append (ha _), replace_occurrence hne, replace_append (hb _)]

/-- No occurrence starts in a text without the first character of what is searched for. -/
theorem noStart_of_notMem {x : CodePoint} {p : Str} (h : x ∉ a) : NoStart (x :: p) a b := by
  intro v hv hne hp
  obtain ⟨y, t, rfl⟩ := List.exists_cons_of_ne_nil hne
  obtain ⟨z, hz⟩ := hp
  obtain ⟨rfl, -⟩ := List.cons.inj hz
  exact h (hv.subset List.mem_cons_self)

/-- Replacing one character changes each character by itself. -/
theorem replace_singleton (x : CodePoint) (s : Str) :
    replace [x] new s = s.flatMap fun y => if y = x then new else [y] := by
  induction s with
  | nil => rfl
  | cons y s ih =>
    rw [List.flatMap_cons, ← ih]
    by_cases hy : y = x
    · subst hy
      rw [if_pos rfl]
      exact replace_occurrence (List.cons_ne_nil y [])
    · rw [if_neg hy]
      have hclear : clear [x] [y] = true := by simp [clear, hy, Ne.symm hy, List.isPrefixOf]
      exact replace_append (noStart_of_clear hclear)

end Python
