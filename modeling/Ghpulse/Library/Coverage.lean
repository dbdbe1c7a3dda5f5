import Mathlib.Data.List.Basic
import Mathlib.Tactic.Linarith

/-!
# Coverage

A list covers the way from a start to a stop when the start, its items and the stop follow each other
closely. What it means to be close is a parameter.
-/

namespace Coverage

variable {α : Type} {near : α → α → Prop} {start stop : α}

/-- Each item is near to the one before it, the first one to the start, and the stop to the last one. -/
def Covered (near : α → α → Prop) (start : α) (items : List α) (stop : α) : Prop :=
  List.IsChain near (start :: (items ++ [stop]))

theorem covered_nil : Covered near start [] stop ↔ near start stop := by
  unfold Covered
  simp

theorem covered_cons {x : α} {items : List α} :
    Covered near start (x :: items) stop ↔ near start x ∧ Covered near x items stop :=
  List.isChain_cons_cons

theorem map_range_succ (f : ℕ → α) (n : ℕ) :
    (List.range (n + 1)).map f = f 0 :: (List.range n).map fun k => f (k + 1) := by
  rw [List.range_succ_eq_map, List.map_cons, List.map_map]
  rfl

/-- A sequence whose items follow each other closely has to begin and to end well. -/
theorem covered_map_range {f : ℕ → α} {n : ℕ} (hnear : ∀ k < n, near (f k) (f (k + 1))) :
    Covered near start ((List.range (n + 1)).map f) stop ↔ near start (f 0) ∧ near (f n) stop := by
  induction n generalizing start f with
  | zero =>
    rw [List.range_one, List.map_singleton, covered_cons, covered_nil]
  | succ n ih =>
    have hrest : ∀ k < n, near (f (k + 1)) (f (k + 1 + 1)) := fun k hk =>
      hnear (k + 1) (Nat.succ_lt_succ hk)
    rw [map_range_succ, covered_cons]
    refine (and_congr_right fun _ => ih hrest).trans ?_
    exact ⟨fun h => ⟨h.1, h.2.2⟩, fun h => ⟨h.1, hnear 0 n.succ_pos, h.2⟩⟩

/-- Near items have near ranks, so no stretch of ranks between the start and the stop is left out. -/
theorem Covered.exists_mem {rank : α → ℤ} {width lo : ℤ} {items : List α}
    (hnear : ∀ a b, near a b → rank b ≤ rank a + width) (h : Covered near start items stop)
    (hstart : rank start < lo) (hstop : lo + width ≤ rank stop) :
    ∃ x ∈ items, lo ≤ rank x ∧ rank x < lo + width := by
  induction items generalizing start with
  | nil =>
    have hle := hnear _ _ (covered_nil.mp h)
    linarith
  | cons x items ih =>
    obtain ⟨hfirst, hrest⟩ := covered_cons.mp h
    have hle := hnear _ _ hfirst
    by_cases hx : rank x < lo
    · obtain ⟨y, hy, hwindow⟩ := ih hrest hx
      exact ⟨y, List.mem_cons_of_mem x hy, hwindow⟩
    · exact ⟨x, List.mem_cons_self, not_lt.mp hx, by linarith⟩

end Coverage
