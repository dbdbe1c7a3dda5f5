import Mathlib.Data.List.Basic

/-!
# Wrapped text

A text laid out in lines: the lines follow one another in the text, and between two of them either one
separator is left out or, after a full line, nothing. Splitting a long word into full lines and joining
two short lines with a separator both keep this, so a greedy filling of lines does.
-/

namespace Wrapping

variable {α : Type} {sep : α} {limit : ℕ}

/-- The lines are consecutive pieces of the text: a separator between two of them is left out, and without
one the first of them is full. -/
inductive Laid (sep : α) (limit : ℕ) : List (List α) → List α → Prop where
  | last (line : List α) : Laid sep limit [line] line
  | full {line text : List α} {lines : List (List α)} : limit ≤ line.length → Laid sep limit lines text →
      Laid sep limit (line :: lines) (line ++ text)
  | gap {line text : List α} {lines : List (List α)} : Laid sep limit lines text →
      Laid sep limit (line :: lines) (line ++ sep :: text)

/-- The slices of a text at the multiples of a length. -/
def slices (limit : ℕ) (text : List α) : List (List α) :=
  (List.range ((text.length + limit - 1) / limit)).map fun k => (text.drop (k * limit)).take limit

variable {line text text' : List α} {lines lines' rest : List (List α)}

/-! ## Building a layout

Long words are cut into slices, of which all but the last are full; other words are kept whole.
-/

/-- Two laid texts, with a separator between them. -/
theorem Laid.append (h : Laid sep limit lines text) (h' : Laid sep limit lines' text') :
    Laid sep limit (lines ++ lines') (text ++ sep :: text') := by
  induction h with
  | last line => exact .gap h'
  | full hfull _ ih =>
    rw [List.append_assoc]
    exact .full hfull ih
  | gap _ ih =>
    rw [List.append_assoc]
    exact .gap ih

/-- Words with their own lines, separated by one separator each. -/
theorem laid_intercalate {pieces : List α → List (List α)} {words : List (List α)} (hne : words ≠ [])
    (h : ∀ word ∈ words, Laid sep limit (pieces word) word) :
    Laid sep limit (words.flatMap pieces) ([sep].intercalate words) := by
  induction words with
  | nil => exact absurd rfl hne
  | cons word words ih =>
    rw [List.forall_mem_cons] at h
    cases words with
    | nil =>
      rw [List.flatMap_cons, List.flatMap_nil, List.append_nil, List.intercalate_singleton]
      exact h.1
    | cons next words =>
      rw [List.flatMap_cons, List.intercalate_cons_cons, List.append_assoc]
      exact h.1.append (ih (List.cons_ne_nil next words) h.2)

/-- The first slice, and the slices of what is left. -/
theorem slices_of_lt (hpos : 0 < limit) (h : limit < text.length) :
    slices limit text = text.take limit :: slices limit (text.drop limit) := by
  have hcount : (text.length + limit - 1) / limit =
      ((text.drop limit).length + limit - 1) / limit + 1 := by
    rw [List.length_drop, ← Nat.add_div_right _ hpos]
    congr 1
    omega
  rw [slices, hcount, List.range_succ_eq_map, List.map_cons, List.map_map, Nat.zero_mul, List.drop_zero,
    slices]
  congr 1
  refine List.map_congr_left fun k _ => ?_
  rw [List.drop_drop, Function.comp_apply, Nat.succ_mul, Nat.add_comm]

/-- A text no longer than the limit is one slice. -/
theorem slices_of_le (hne : text ≠ []) (h : text.length ≤ limit) : slices limit text = [text] := by
  have hpos : 0 < text.length := List.length_pos_iff.mpr hne
  have hcount : (text.length + limit - 1) / limit = 1 := by
    rw [Nat.div_eq_iff (by omega)]
    omega
  rw [slices, hcount]
  simp [List.take_of_length_le h]

/-- The slices of a word lay it out: all but the last of them are full. -/
theorem laid_slices (hpos : 0 < limit) (hne : text ≠ []) : Laid sep limit (slices limit text) text := by
  induction hn : text.length using Nat.strongRecOn generalizing text with
  | _ n ih =>
    by_cases hle : text.length ≤ limit
    · rw [slices_of_le hne hle]
      exact .last text
    · rw [slices_of_lt hpos (by omega)]
      have hdrop : (text.drop limit).length = text.length - limit := List.length_drop
      have hrest : Laid sep limit (slices limit (text.drop limit)) (text.drop limit) := by
        refine ih (text.drop limit).length (by omega) (fun h => ?_) rfl
        rw [h, List.length_nil] at hdrop
        omega
      have hfull : limit ≤ (text.take limit).length := by rw [List.length_take]; omega
      have hlaid := Laid.full hfull hrest
      rwa [List.take_append_drop] at hlaid

theorem length_of_mem_slices (h : line ∈ slices limit text) : line.length ≤ limit := by
  obtain ⟨k, -, rfl⟩ := List.mem_map.mp h
  exact List.length_take_le _ _

/-! ## Joining two lines

The greedy step: the separator that was left out between two lines is put back.
-/

/-- Two consecutive lines that fit into one with a separator are separated by one in the text. -/
theorem Laid.join {before : List (List α)} (h : Laid sep limit (before ++ line :: text :: rest) text')
    (hfit : line.length + 1 + text.length ≤ limit) :
    Laid sep limit (before ++ (line ++ sep :: text) :: rest) text' := by
  induction before generalizing text' with
  | nil =>
    cases h with
    | full hfull _ => omega
    | gap h =>
      cases h with
      | last => exact .last _
      | full hfull _ => omega
      | @gap _ t _ h =>
        have hlaid : Laid sep limit _ ((line ++ sep :: text) ++ sep :: t) := .gap h
        rwa [List.append_assoc, List.cons_append] at hlaid
  | cons first before ih =>
    rw [List.cons_append] at h ⊢
    generalize hrest : before ++ line :: text :: rest = others at h
    cases h with
    | last => simp at hrest
    | full hfull h => exact .full hfull (ih (hrest ▸ h))
    | gap h => exact .gap (ih (hrest ▸ h))

/-! ## What a layout keeps

Nothing but separators is lost.
-/

/-- The characters of a class without the separator are in the lines as they are in the text. -/
theorem Laid.filter_flatten {p : α → Bool} (hsep : p sep = false) (h : Laid sep limit lines text) :
    lines.flatten.filter p = text.filter p := by
  induction h with
  | last line => simp
  | full _ _ ih => rw [List.flatten_cons, List.filter_append, List.filter_append, ih]
  | gap _ ih =>
    rw [List.flatten_cons, List.filter_append, List.filter_append,
      List.filter_cons_of_neg (by rw [hsep]; exact Bool.false_ne_true), ih]

end Wrapping
