import Mathlib.Order.Lattice
import Mathlib.Order.Monotone.Basic

/-!
# Tilings

Lists of half-open intervals that cover an interval in order, without gap or overlap. A `Fills` list may
have empty intervals in between; removing them leaves a tiling, also after a monotone map of the ends,
which may make more of them empty.
-/

namespace Tiling

variable {α β : Type*} [LinearOrder α] [LinearOrder β]

/-- Consecutive non-empty intervals from `a` to `b`. -/
def Tiles (a b : α) : List (α × α) → Prop
  | [] => a = b
  | p :: rest => p.1 = a ∧ p.1 < p.2 ∧ Tiles p.2 b rest

/-- Consecutive intervals from `a` to `b`, with empty ones in between. -/
def Fills (a b : α) : List (α × α) → Prop
  | [] => a = b
  | p :: rest => (p.1 < p.2 → p.1 = a ∧ Fills p.2 b rest) ∧ (p.2 ≤ p.1 → Fills a b rest)

section

variable {a b c d : α} {intervals : List (α × α)}

theorem Tiles.le (h : Tiles a b intervals) : a ≤ b := by
  induction intervals generalizing a with
  | nil => exact le_of_eq h
  | cons p rest ih =>
    obtain ⟨rfl, hlt, hrest⟩ := h
    exact hlt.le.trans (ih hrest)

theorem Tiles.lt_of_mem (h : Tiles a b intervals) {p : α × α} (hp : p ∈ intervals) : p.1 < p.2 := by
  induction intervals generalizing a with
  | nil => cases hp
  | cons q rest ih =>
    rcases List.mem_cons.mp hp with rfl | hp
    · exact h.2.1
    · exact ih h.2.2 hp

/-- The intervals lie between the ends. -/
theorem Tiles.mem_le (h : Tiles a b intervals) {p : α × α} (hp : p ∈ intervals) : a ≤ p.1 ∧ p.2 ≤ b := by
  induction intervals generalizing a with
  | nil => cases hp
  | cons q rest ih =>
    obtain ⟨rfl, hlt, hrest⟩ := h
    rcases List.mem_cons.mp hp with rfl | hp
    · exact ⟨le_rfl, hrest.le⟩
    · exact ⟨hlt.le.trans (ih hrest hp).1, (ih hrest hp).2⟩

/-- An interval ends before every later one starts. -/
theorem Tiles.pairwise (h : Tiles a b intervals) : intervals.Pairwise fun p q => p.2 ≤ q.1 := by
  induction intervals generalizing a with
  | nil => exact List.Pairwise.nil
  | cons p rest ih =>
    apply List.Pairwise.cons _ (ih h.2.2)
    intro q hq
    exact (h.2.2.mem_le hq).1

/-- A tiling is empty exactly when its ends meet. -/
theorem Tiles.eq_nil_iff (h : Tiles a b intervals) : intervals = [] ↔ a = b := by
  cases intervals with
  | nil => exact iff_of_true rfl h
  | cons p rest =>
    obtain ⟨rfl, hlt, hrest⟩ := h
    exact iff_of_false (List.cons_ne_nil p rest) (hlt.trans_le hrest.le).ne

theorem Tiles.right_unique (hc : Tiles a b intervals) (hd : Tiles a d intervals) : b = d := by
  induction intervals generalizing a with
  | nil => exact hc.symm.trans hd
  | cons p rest ih => exact ih hc.2.2 hd.2.2

/-- The intervals determine the ends. -/
theorem Tiles.iff (h : Tiles a b intervals) (hne : intervals ≠ []) :
    Tiles c d intervals ↔ a = c ∧ b = d := by
  constructor
  · intro hcd
    obtain ⟨p, rest, rfl⟩ := List.exists_cons_of_ne_nil hne
    exact ⟨h.1.symm.trans hcd.1, h.2.2.right_unique hcd.2.2⟩
  · rintro ⟨rfl, rfl⟩
    exact h

/-- Without the empty intervals a filling is a tiling. -/
theorem Fills.tiles (h : Fills a b intervals) :
    Tiles a b (intervals.filter fun p => decide (p.1 < p.2)) := by
  induction intervals generalizing a with
  | nil => exact h
  | cons p rest ih =>
    by_cases hlt : p.1 < p.2
    · rw [List.filter_cons_of_pos (by simpa using hlt)]
      exact ⟨(h.1 hlt).1, hlt, ih (h.1 hlt).2⟩
    · rw [List.filter_cons_of_neg (by simpa using hlt)]
      exact ih (h.2 (not_lt.mp hlt))

theorem Fills.tiles_of_forall (h : Fills a b intervals) (hlt : ∀ p ∈ intervals, p.1 < p.2) :
    Tiles a b intervals := by
  have htiles := h.tiles
  rwa [List.filter_eq_self.mpr fun p hp => decide_eq_true (hlt p hp)] at htiles

/-- A monotone map keeps a filling; an interval that it collapses is one of the empty ones. -/
theorem Fills.map {f : α → β} (hf : Monotone f) (h : Fills a b intervals) :
    Fills (f a) (f b) (intervals.map fun p => (f p.1, f p.2)) := by
  induction intervals generalizing a with
  | nil => exact congrArg f h
  | cons p rest ih =>
    rcases lt_or_ge p.1 p.2 with hlt | hle
    · obtain ⟨rfl, hrest⟩ := h.1 hlt
      refine ⟨fun _ => ⟨rfl, ih hrest⟩, fun hcollapsed => ?_⟩
      rw [le_antisymm (hf hlt.le) hcollapsed]
      exact ih hrest
    · exact ⟨fun hmapped => absurd hmapped (hf hle).not_gt, fun _ => ih (h.2 hle)⟩

end

/-! ## Points

Each point belongs to one interval; the end of the last interval belongs to it as well.
-/

/-- A point lies in the interval of an index; the last interval is closed. -/
def LiesIn (intervals : List (α × α)) (t : α) (i : ℕ) : Prop :=
  ∃ p, intervals[i]? = some p ∧ p.1 ≤ t ∧ (t < p.2 ∨ i + 1 = intervals.length ∧ t = p.2)

section

variable {a b t : α} {intervals : List (α × α)}

/-- A point between the ends of a tiling lies in an interval. -/
theorem Tiles.exists_liesIn (h : Tiles a b intervals) (hne : intervals ≠ []) (hat : a ≤ t) (htb : t ≤ b) :
    ∃ i, LiesIn intervals t i := by
  induction intervals generalizing a with
  | nil => exact absurd rfl hne
  | cons p rest ih =>
    obtain ⟨rfl, hlt, hrest⟩ := h
    rcases lt_or_ge t p.2 with hbefore | hafter
    · exact ⟨0, p, rfl, hat, Or.inl hbefore⟩
    · rcases eq_or_ne rest [] with rfl | hrest'
      · exact ⟨0, p, rfl, hat, Or.inr ⟨rfl, le_antisymm (htb.trans_eq hrest.symm) hafter⟩⟩
      · obtain ⟨i, q, hq, hle, hlast⟩ := ih hrest hrest' hafter
        refine ⟨i + 1, q, hq, hle, hlast.imp_right fun hend => ⟨?_, hend.2⟩⟩
        rw [List.length_cons, hend.1]

/-- The last interval ends where the tiling does. -/
theorem Tiles.snd_eq_of_last (h : Tiles a b intervals) {i : ℕ} {p : α × α} (hp : intervals[i]? = some p)
    (hlast : i + 1 = intervals.length) : p.2 = b := by
  induction intervals generalizing a i with
  | nil => cases hp
  | cons q rest ih =>
    cases i with
    | zero =>
      obtain rfl := List.eq_nil_of_length_eq_zero (Nat.succ.inj hlast).symm
      cases hp
      exact h.2.2
    | succ i => exact ih h.2.2 hp (Nat.succ.inj hlast)

/-- Only in one. -/
theorem Tiles.liesIn_unique (h : Tiles a b intervals) {i j : ℕ} (hi : LiesIn intervals t i)
    (hj : LiesIn intervals t j) : i = j := by
  -- the earlier of two intervals is not the last one, so it ends before the other one starts
  have hle {i j : ℕ} (hi : LiesIn intervals t i) (hj : LiesIn intervals t j) : ¬ i < j := by
    intro hij
    obtain ⟨p, hp, -, hbefore⟩ := hi
    obtain ⟨q, hq, hqt, -⟩ := hj
    obtain ⟨hilt, rfl⟩ := List.getElem?_eq_some_iff.mp hp
    obtain ⟨hjlt, rfl⟩ := List.getElem?_eq_some_iff.mp hq
    have hends := List.pairwise_iff_getElem.mp h.pairwise i j hilt hjlt hij
    rcases hbefore with hlt | ⟨hlast, -⟩
    · exact absurd (hends.trans hqt) (not_le.mpr hlt)
    · omega
  have := hle hi hj
  have := hle hj hi
  omega

end

/-! ## Sorted points

Taking from the front of a sorted list up to the end of each interval is a way to distribute its points.
-/

section

variable {ε : Type*} {key : ε → α}

/-- A sorted list is cut at a value. -/
theorem takeWhile_lt_eq_filter {l : List ε} (h : l.Pairwise fun x y => key x ≤ key y) (c : α) :
    l.takeWhile (fun x => decide (key x < c)) = l.filter (fun x => decide (key x < c)) ∧
      l.dropWhile (fun x => decide (key x < c)) = l.filter (fun x => decide (c ≤ key x)) := by
  induction l with
  | nil => exact ⟨rfl, rfl⟩
  | cons x l ih =>
    obtain ⟨hx, hl⟩ := List.pairwise_cons.mp h
    rcases lt_or_ge (key x) c with hlt | hge
    · have hnot : ¬ c ≤ key x := not_le.mpr hlt
      simp only [List.takeWhile_cons, List.dropWhile_cons, List.filter_cons, hlt, hnot, decide_true,
        decide_false, if_true, Bool.false_eq_true, if_false, ih hl, true_and]
    · -- all that follows is at least as large
      have hall : ∀ y ∈ x :: l, c ≤ key y :=
        List.forall_mem_cons.mpr ⟨hge, fun y hy => hge.trans (hx y hy)⟩
      have hnone : (x :: l).filter (fun x => decide (key x < c)) = [] :=
        List.filter_eq_nil_iff.mpr fun y hy => by simpa using hall y hy
      have hself : (x :: l).filter (fun x => decide (c ≤ key x)) = x :: l :=
        List.filter_eq_self.mpr fun y hy => decide_eq_true (hall y hy)
      rw [hnone, hself, List.takeWhile_cons, List.dropWhile_cons, if_neg (by simpa using hge),
        if_neg (by simpa using hge)]
      exact ⟨rfl, rfl⟩

/-- What the intervals take from the front of a list, one after the other, each up to its end. -/
def cuts (key : ε → α) : List (α × α) → List ε → List (List ε)
  | [], _ => []
  | p :: rest, l =>
    l.takeWhile (fun x => decide (key x < p.2)) ::
      cuts key rest (l.dropWhile fun x => decide (key x < p.2))

/-- From a sorted list the intervals of a tiling take what lies in them. -/
theorem Tiles.cuts_eq {a b : α} {intervals : List (α × α)} (h : Tiles a b intervals) {l : List ε}
    (hsorted : l.Pairwise fun x y => key x ≤ key y) (hge : ∀ x ∈ l, a ≤ key x) :
    cuts key intervals l =
      intervals.map fun p => l.filter fun x => decide (p.1 ≤ key x ∧ key x < p.2) := by
  induction intervals generalizing a l with
  | nil => rfl
  | cons p rest ih =>
    obtain ⟨rfl, hlt, hrest⟩ := h
    obtain ⟨htake, hdrop⟩ := takeWhile_lt_eq_filter hsorted p.2
    rw [cuts, htake, hdrop, List.map_cons]
    congr 1
    · apply List.filter_congr
      intro x hx
      exact decide_eq_decide.mpr (and_iff_right (hge x hx)).symm
    · rw [ih hrest (hsorted.filter _) fun x hx => of_decide_eq_true (List.mem_filter.mp hx).2]
      apply List.map_congr_left
      intro q hq
      rw [List.filter_filter]
      apply List.filter_congr
      intro x _
      have hle : p.2 ≤ q.1 := (hrest.mem_le hq).1
      rw [← Bool.decide_and]
      exact decide_eq_decide.mpr (and_iff_left_of_imp fun hin => hle.trans hin.1)

end

end Tiling
