import Mathlib.Tactic.Common

/-!
# Checked computations

What a computation with errors must satisfy so that it returns only good values and raises only errors of
an allowed kind. `Passes` is the weakest precondition of that: it distributes over sequencing as an
equivalence, so a chain of checks is read off one check at a time, in both directions.
-/

namespace Checks

variable {ε α β : Type} {allowed : ε → Prop} {x : Except ε α} {f : α → Except ε β}

/-- The computation returns a value with the property, or raises an allowed error. -/
def Passes (allowed : ε → Prop) (x : Except ε α) (Q : α → Prop) : Prop :=
  match x with
  | .ok a => Q a
  | .error e => allowed e

theorem passes_pure {a : α} {Q : α → Prop} : Passes allowed (pure a) Q ↔ Q a := Iff.rfl

/-- A sequence passes exactly when its first part leads to values from which its second part does. -/
theorem passes_bind {Q : β → Prop} :
    Passes allowed (x >>= f) Q ↔ Passes allowed x fun a => Passes allowed (f a) Q := by
  cases x with
  | ok a => exact Iff.rfl
  | error e => exact Iff.rfl

theorem Passes.mono {P Q : α → Prop} (h : Passes allowed x P) (hPQ : ∀ a, x = .ok a → P a → Q a) :
    Passes allowed x Q := by
  cases x with
  | ok a => exact hPQ a rfl h
  | error e => exact h

/-- Passing, split into what is returned and what is raised. -/
theorem passes_iff {Q : α → Prop} :
    Passes allowed x Q ↔ (∀ a, x = .ok a → Q a) ∧ ∀ e, x = .error e → allowed e := by
  cases x with
  | ok a =>
    refine ⟨fun h => ⟨fun b hb => ?_, fun e he => ?_⟩, fun h => h.1 a rfl⟩
    · cases hb
      exact h
    · cases he
  | error e =>
    refine ⟨fun h => ⟨fun b hb => ?_, fun e' he => ?_⟩, fun h => h.2 e rfl⟩
    · cases hb
    · cases he
      exact h

end Checks
