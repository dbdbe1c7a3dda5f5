import Mathlib.Algebra.Order.Group.Defs
import Mathlib.Algebra.Order.Monoid.Unbundled.Basic
import Mathlib.Tactic.Common

/-!
# Rows of rectangles

Rectangles of varying heights placed in rows from left to right, a new row below the highest rectangle of
the one before. `Shelved` is what holds after any number of them: they are in reading order, so no two
overlap, and they lie in the strip down to the bottom of the row that is open.
-/

namespace Shelf

variable {K : Type} [AddCommGroup K] [LinearOrder K]

/-- A rectangle by its upper left corner and its size. -/
structure Rect (K : Type) where
  x : K
  y : K
  width : K
  height : K

/-- A place for the next rectangle: where it goes, and how high the row is so far. -/
structure Cursor (K : Type) where
  x : K
  y : K
  rowHeight : K

/-- The first rectangle is to the left of the second one in the same row, or in a row above it. -/
def Before (r s : Rect K) : Prop := (r.y = s.y ∧ r.x + r.width < s.x) ∨ r.y + r.height ≤ s.y

/-- No point belongs to both rectangles, right and lower edges excluded. -/
def Disjoint (r s : Rect K) : Prop :=
  ∀ x y : K, ¬((r.x ≤ x ∧ x < r.x + r.width ∧ r.y ≤ y ∧ y < r.y + r.height) ∧
    (s.x ≤ x ∧ x < s.x + s.width ∧ s.y ≤ y ∧ y < s.y + s.height))

/-- Rectangles in reading order are disjoint. -/
theorem Before.disjoint {r s : Rect K} (h : Before r s) : Disjoint r s := by
  rintro x y ⟨⟨-, hx, -, hy⟩, ⟨hx', -, hy', -⟩⟩
  rcases h with ⟨-, h⟩ | h
  · exact absurd (hx.trans (h.trans_le hx')) (lt_irrefl x)
  · exact absurd (hy.trans_le (h.trans hy')) (lt_irrefl y)

/-- The rectangle lies in the strip of a width, above a bottom line. -/
structure Within (total bottom : K) (r : Rect K) : Prop where
  left : 0 ≤ r.x
  right : r.x + r.width ≤ total
  top : 0 ≤ r.y
  above : r.y + r.height ≤ bottom

/-- The rectangles placed so far, with the cursor after them. -/
structure Shelved (total : K) (c : Cursor K) (rects : List (Rect K)) : Prop where
  x_nonneg : 0 ≤ c.x
  y_nonneg : 0 ≤ c.y
  rowHeight_nonneg : 0 ≤ c.rowHeight
  ordered : rects.Pairwise Before
  within : ∀ r ∈ rects, Within total (c.y + c.rowHeight) r
  closed : ∀ r ∈ rects, (r.y = c.y ∧ r.x + r.width < c.x) ∨ r.y + r.height ≤ c.y

variable {total gap width height rowHeight : K} {c : Cursor K} {rects : List (Rect K)}

theorem shelved_nil (h : 0 ≤ rowHeight) : Shelved total ⟨0, 0, rowHeight⟩ [] :=
  ⟨le_refl 0, le_refl 0, h, List.Pairwise.nil, fun _ hr => absurd hr List.not_mem_nil,
    fun _ hr => absurd hr List.not_mem_nil⟩

variable [IsOrderedAddMonoid K]

/-- A new row starts below everything that was placed. -/
theorem Shelved.newRow (h : Shelved total c rects) (hrow : 0 ≤ rowHeight) :
    Shelved total ⟨0, c.y + c.rowHeight, rowHeight⟩ rects where
  x_nonneg := le_refl 0
  y_nonneg := add_nonneg h.y_nonneg h.rowHeight_nonneg
  rowHeight_nonneg := hrow
  ordered := h.ordered
  within := fun r hr =>
    { h.within r hr with above := (h.within r hr).above.trans (le_add_of_nonneg_right hrow) }
  closed := fun r hr => Or.inr (h.within r hr).above

/-- A rectangle that fits into the row is placed at the cursor. -/
theorem Shelved.place (h : Shelved total c rects) (hgap : 0 < gap) (hwidth : 0 ≤ width)
    (hfit : c.x + width ≤ total) :
    Shelved total ⟨c.x + (width + gap), c.y, max c.rowHeight height⟩
      (rects ++ [⟨c.x, c.y, width, height⟩]) where
  x_nonneg := add_nonneg h.x_nonneg (add_nonneg hwidth hgap.le)
  y_nonneg := h.y_nonneg
  rowHeight_nonneg := h.rowHeight_nonneg.trans (le_max_left _ _)
  ordered := by
    rw [List.pairwise_append]
    refine ⟨h.ordered, List.pairwise_singleton _ _, fun r hr s hs => ?_⟩
    obtain rfl := List.mem_singleton.mp hs
    exact h.closed r hr
  within := by
    intro r hr
    rcases List.mem_append.mp hr with hr | hr
    · have hin := h.within r hr
      have hbottom : c.y + c.rowHeight ≤ c.y + max c.rowHeight height :=
        (add_le_add_iff_left _).mpr (le_max_left _ _)
      exact { hin with above := hin.above.trans hbottom }
    · obtain rfl := List.mem_singleton.mp hr
      exact ⟨h.x_nonneg, hfit, h.y_nonneg, (add_le_add_iff_left _).mpr (le_max_right _ _)⟩
  closed := by
    intro r hr
    rcases List.mem_append.mp hr with hr | hr
    · rcases h.closed r hr with ⟨hy, hx⟩ | hy
      · exact Or.inl ⟨hy, hx.trans_le (le_add_of_nonneg_right (add_nonneg hwidth hgap.le))⟩
      · exact Or.inr hy
    · obtain rfl := List.mem_singleton.mp hr
      refine Or.inl ⟨rfl, ?_⟩
      rw [← add_assoc]
      exact lt_add_of_pos_right _ hgap

end Shelf
