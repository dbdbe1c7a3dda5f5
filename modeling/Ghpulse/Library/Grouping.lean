import Mathlib.Data.List.Dedup
import Mathlib.Data.List.Count
import Mathlib.Algebra.BigOperators.Group.List.Basic
import Mathlib.Algebra.Ring.Nat

/-!
# Counting by key

`GROUP BY` with `COUNT(*)`: each key that occurs, once, with the number of its occurrences. Adding up
the counts of the groups that satisfy a condition counts the occurrences that satisfy it, and so does
adding up over any list of distinct keys.
-/

namespace Grouping

variable {κ : Type} [DecidableEq κ]

/-- `SELECT key, COUNT(*) … GROUP BY key`. -/
def groups (keys : List κ) : List (κ × ℕ) := keys.dedup.map fun k => (k, keys.count k)

/-- Summing the counts over distinct keys counts the occurrences of all of them. -/
theorem sum_count {ks : List κ} (hks : ks.Nodup) (p : κ → Bool) (keys : List κ) :
    (ks.map fun k => if p k then keys.count k else 0).sum =
      keys.countP fun x => p x && decide (x ∈ ks) := by
  induction ks with
  | nil => simp
  | cons k ks ih =>
    obtain ⟨hk, hks⟩ := List.nodup_cons.mp hks
    rw [List.map_cons, List.sum_cons, ih hks]
    clear ih
    induction keys with
    | nil => simp
    | cons x keys ih =>
      rw [List.countP_cons, List.countP_cons, List.count_cons, ← ih]
      by_cases hx : x = k
      · subst hx
        by_cases hp : p x = true <;> simp [hp, hk]
        omega
      · by_cases hp : p k = true <;> simp [hp, hx]
        omega

/-- The groups of a condition add up to the occurrences that satisfy it. -/
theorem sum_groups (p : κ → Bool) (keys : List κ) :
    ((groups keys).map fun g => if p g.1 then g.2 else 0).sum = keys.countP p := by
  rw [groups, List.map_map]
  refine (sum_count keys.nodup_dedup p keys).trans (List.countP_congr fun x hx => ?_)
  simp [List.mem_dedup.mpr hx]

/-- If each element of a kind is of exactly one of some kinds, and no other element is of any, the
numbers of these add up to its number. -/
theorem sum_countP {α : Type} (items : List α) (p : α → Bool) (parts : List (α → Bool))
    (h : ∀ x ∈ items, (parts.countP fun q => q x) = if p x then 1 else 0) :
    (parts.map fun q => items.countP q).sum = items.countP p := by
  induction items with
  | nil => simp
  | cons x items ih =>
    have hhead := h x List.mem_cons_self
    have hrest := ih fun y hy => h y (List.mem_cons_of_mem x hy)
    have hsplit : (parts.map fun q => (x :: items).countP q).sum =
        (parts.map fun q => items.countP q).sum + parts.countP fun q => q x := by
      clear h ih hhead hrest
      induction parts with
      | nil => rfl
      | cons q parts ih =>
        rw [List.map_cons, List.sum_cons, ih, List.map_cons, List.sum_cons, List.countP_cons,
          List.countP_cons]
        omega
    rw [hsplit, hhead, hrest, List.countP_cons]

end Grouping
