import Mathlib.Data.Finset.Card
import Mathlib.Logic.Function.Basic

/-!
# Ownership

A table says which party owns a resource, and each party holds at most one resource. `Tracks` says that
the table and the parties agree: then no resource is held twice, and a resource is free exactly when
nobody holds it. Taking a free resource, giving it back and handing it over keep the agreement.

`Counts` says that a counter agrees with the number of parties that are inside something.
-/

namespace Ownership

variable {κ τ : Type*}

/-- A party owns a resource in the table exactly when it holds it. -/
def Tracks (owner : κ → Option τ) (holds : τ → Option κ) : Prop :=
  ∀ k t, owner k = some t ↔ holds t = some k

theorem tracks_empty : Tracks (fun _ : κ => (none : Option τ)) fun _ => none := by
  intro k t
  simp

variable {owner : κ → Option τ} {holds : τ → Option κ}

/-- A resource has one holder. -/
theorem Tracks.unique (h : Tracks owner holds) {k : κ} {t t' : τ} (ht : holds t = some k)
    (ht' : holds t' = some k) : t = t' := by
  have hsome : some t = some t' := by rw [← (h k t).mpr ht, ← (h k t').mpr ht']
  exact Option.some.inj hsome

/-- A resource is free exactly when nobody holds it. -/
theorem Tracks.eq_none_iff (h : Tracks owner holds) {k : κ} :
    owner k = none ↔ ∀ t, holds t ≠ some k := by
  rw [Option.eq_none_iff_forall_ne_some]
  exact forall_congr' fun t => not_congr (h k t)

variable [DecidableEq κ] [DecidableEq τ]

/-- A party that holds nothing takes a free resource. -/
theorem Tracks.acquire (h : Tracks owner holds) {k : κ} {t : τ} (hfree : owner k = none)
    (hnone : holds t = none) :
    Tracks (Function.update owner k (some t)) (Function.update holds t (some k)) := by
  intro k' t'
  by_cases hk : k' = k
  · subst hk
    rw [Function.update_self]
    by_cases ht : t' = t
    · subst ht
      rw [Function.update_self]
      exact iff_of_true rfl rfl
    · rw [Function.update_of_ne ht]
      refine iff_of_false (fun heq => ht (Option.some.inj heq).symm) ?_
      exact h.eq_none_iff.mp hfree t'
  · rw [Function.update_of_ne hk]
    by_cases ht : t' = t
    · subst ht
      rw [Function.update_self, h, hnone]
      exact iff_of_false (by simp) fun heq => hk (Option.some.inj heq).symm
    · rw [Function.update_of_ne ht]
      exact h k' t'

/-- The holder of a resource gives it back. -/
theorem Tracks.release (h : Tracks owner holds) {k : κ} {t : τ} (hheld : holds t = some k) :
    Tracks (Function.update owner k none) (Function.update holds t none) := by
  intro k' t'
  by_cases hk : k' = k
  · subst hk
    rw [Function.update_self]
    refine iff_of_false (by simp) ?_
    by_cases ht : t' = t
    · rw [ht, Function.update_self]
      simp
    · rw [Function.update_of_ne ht]
      exact fun heq => ht (h.unique heq hheld)
  · rw [Function.update_of_ne hk, h]
    by_cases ht : t' = t
    · subst ht
      rw [Function.update_self, hheld]
      exact iff_of_false (fun heq => hk (Option.some.inj heq).symm) (by simp)
    · rw [Function.update_of_ne ht]

/-- The holder of a resource hands it over to a party that holds nothing. -/
theorem Tracks.handOver (h : Tracks owner holds) {k : κ} {t t' : τ} (hheld : holds t = some k)
    (hnone : holds t' = none) :
    Tracks (Function.update owner k (some t'))
      (Function.update (Function.update holds t none) t' (some k)) := by
  have hne : t' ≠ t := by
    rintro rfl
    rw [hheld] at hnone
    cases hnone
  have hfree := (h.release hheld).acquire (k := k) (t := t') (Function.update_self k none owner)
    (by rw [Function.update_of_ne hne, hnone])
  rwa [Function.update_idem] at hfree

omit [DecidableEq τ] in
/-- Flags that show which resources are taken follow a change of owner. -/
theorem marked_update {owner : κ → Option τ} {marked : κ → Bool}
    (h : ∀ k, marked k = (owner k).isSome) (k : κ) (o : Option τ) (k' : κ) :
    Function.update marked k o.isSome k' = (Function.update owner k o k').isSome := by
  by_cases hk : k' = k
  · rw [hk, Function.update_self, Function.update_self]
  · rw [Function.update_of_ne hk, Function.update_of_ne hk, h]

/-! ## Counters

A counter is right when some finite set of that size has exactly the parties with the property.
-/

/-- There are `n` parties with a property. -/
def Counts (n : ℕ) (P : τ → Prop) : Prop := ∃ S : Finset τ, S.card = n ∧ ∀ t, t ∈ S ↔ P t

variable {n : ℕ} {P P' : τ → Prop}

omit [DecidableEq τ] in
theorem counts_zero (h : ∀ t, ¬ P t) : Counts 0 P :=
  ⟨∅, Finset.card_empty, fun t => iff_of_false (Finset.notMem_empty t) (h t)⟩

omit [DecidableEq τ] in
theorem Counts.not_of_zero (h : Counts 0 P) (t : τ) : ¬ P t := by
  obtain ⟨S, hcard, hmem⟩ := h
  rw [← hmem, Finset.card_eq_zero.mp hcard]
  exact Finset.notMem_empty t

omit [DecidableEq τ] in
/-- A counter of at most one leaves room for one party. -/
theorem Counts.unique (h : Counts n P) (hn : n ≤ 1) {t t' : τ} (ht : P t) (ht' : P t') : t = t' := by
  obtain ⟨S, rfl, hmem⟩ := h
  exact Finset.card_le_one.mp hn t ((hmem t).mpr ht) t' ((hmem t').mpr ht')

omit [DecidableEq τ] in
theorem Counts.congr (h : Counts n P) (hP : ∀ t, P' t ↔ P t) : Counts n P' := by
  obtain ⟨S, hcard, hmem⟩ := h
  exact ⟨S, hcard, fun t => (hmem t).trans (hP t).symm⟩

/-- A party enters. -/
theorem Counts.enter (h : Counts n P) {t : τ} (ht : ¬ P t) (hP : ∀ t', P' t' ↔ t' = t ∨ P t') :
    Counts (n + 1) P' := by
  obtain ⟨S, rfl, hmem⟩ := h
  refine ⟨insert t S, Finset.card_insert_of_notMem fun hin => ht ((hmem t).mp hin), fun t' => ?_⟩
  rw [Finset.mem_insert, hmem, hP]

/-- A party leaves. -/
theorem Counts.leave (h : Counts n P) {t : τ} (ht : P t) (hP : ∀ t', P' t' ↔ t' ≠ t ∧ P t') :
    Counts (n - 1) P' := by
  obtain ⟨S, rfl, hmem⟩ := h
  refine ⟨S.erase t, Finset.card_erase_of_mem ((hmem t).mpr ht), fun t' => ?_⟩
  rw [Finset.mem_erase, hmem, hP]

end Ownership
