import Mathlib.Logic.Basic

/-!
# Programs with exceptions over a shared state

A program maps a state to an outcome and the state it leaves; unlike a transaction, the state survives
an exception. `Keeps` is the frame rule: a program that does not touch a part of the state leaves it as
it was, whether it returns or raises.
-/

namespace Effect

/-- A program over the state `σ` that returns an `α` or raises an `ε`. -/
def Prog (ε σ α : Type) : Type := σ → Except ε α × σ

namespace Prog

variable {ε σ τ α β : Type}

instance : Monad (Prog ε σ) where
  pure a := fun s => (.ok a, s)
  bind x f := fun s =>
    match x s with
    | (.ok a, s') => f a s'
    | (.error e, s') => (.error e, s')

/-- Raise an exception. -/
def raise (e : ε) : Prog ε σ α := fun s => (.error e, s)

/-- Read the state. -/
def get : Prog ε σ σ := fun s => (.ok s, s)

/-- Change the state. -/
def modify (f : σ → σ) : Prog ε σ Unit := fun s => (.ok (), f s)

/-- A computation that does not touch the state. -/
def ofExcept (x : Except ε α) : Prog ε σ α := fun s => (x, s)

/-- `try: x` with `except Exception as e: handler(e)`. -/
def tryExcept (x : Prog ε σ α) (handler : ε → Prog ε σ α) : Prog ε σ α := fun s =>
  match x s with
  | (.ok a, s') => (.ok a, s')
  | (.error e, s') => handler e s'

/-- `try: x` with a `finally` block that only changes the state. -/
def tryFinally (x : Prog ε σ α) (cleanup : σ → σ) : Prog ε σ α := fun s => ((x s).1, cleanup (x s).2)

/-! ## Running

A lemma for each construct and each way it can end. They are used from the end of a program to its start:
from the fact that the whole has returned one learns that each part has, and in which state.
-/

/-- A sequence returns when both parts do, the second from where the first one left off. -/
theorem bind_eq_ok {x : Prog ε σ α} {f : α → Prog ε σ β} {s s'' : σ} {b : β} :
    (x >>= f) s = (.ok b, s'') ↔ ∃ a s', x s = (.ok a, s') ∧ f a s' = (.ok b, s'') := by
  simp only [bind]
  constructor
  · intro h
    split at h
    · rename_i a s' hx
      exact ⟨a, s', hx, h⟩
    · cases h
  · rintro ⟨a, s', hx, hf⟩
    rw [hx]
    exact hf

/-- A sequence raises in its first part, or in its second part after the first returned. -/
theorem bind_eq_error {x : Prog ε σ α} {f : α → Prog ε σ β} {s s'' : σ} {e : ε} :
    (x >>= f) s = (.error e, s'') ↔
      x s = (.error e, s'') ∨ ∃ a s', x s = (.ok a, s') ∧ f a s' = (.error e, s'') := by
  simp only [bind]
  constructor
  · intro h
    split at h
    · rename_i a s' hx
      exact Or.inr ⟨a, s', hx, h⟩
    · rename_i e' s' hx
      cases h
      exact Or.inl hx
  · rintro (hx | ⟨a, s', hx, hf⟩)
    · rw [hx]
    · rw [hx]
      exact hf

/-- A value that is returned leaves the state. -/
@[simp] theorem pure_run (a : α) (s : σ) : (pure a : Prog ε σ α) s = (.ok a, s) := rfl

/-- A raise leaves the state. -/
@[simp] theorem raise_run (e : ε) (s : σ) : (raise e : Prog ε σ α) s = (.error e, s) := rfl

/-- Reading returns the state and leaves it. -/
@[simp] theorem get_run (s : σ) : (get : Prog ε σ σ) s = (.ok s, s) := rfl

/-- A modification applies its function to the state. -/
@[simp] theorem modify_run (f : σ → σ) (s : σ) : (modify f : Prog ε σ Unit) s = (.ok (), f s) := rfl

/-- A pure computation leaves the state, whether it returns or raises. -/
@[simp] theorem ofExcept_run (x : Except ε α) (s : σ) : ofExcept x s = (x, s) := rfl

/-- What follows a pure computation that returned starts in the same state. -/
theorem ofExcept_bind_eq_ok {x : Except ε α} {f : α → Prog ε σ β} {s s' : σ} {b : β} :
    (ofExcept x >>= f) s = (.ok b, s') ↔ ∃ a, x = .ok a ∧ f a s = (.ok b, s') := by
  cases x with
  | error e => simp [bind_eq_ok]
  | ok a =>
    show f a s = (.ok b, s') ↔ _
    simp

/-- What follows a modification starts in the modified state. -/
theorem modify_bind {g : σ → σ} {f : Unit → Prog ε σ β} {s : σ} {r : Except ε β × σ} :
    (modify g >>= f) s = r ↔ f () (g s) = r := Iff.rfl

/-- What follows a read is given the state it starts in. -/
theorem get_bind {f : σ → Prog ε σ β} {s : σ} {r : Except ε β × σ} :
    (get >>= f) s = r ↔ f s s = r := Iff.rfl

/-- A block that returns never enters its handler. -/
theorem tryExcept_ok {x : Prog ε σ α} {handler : ε → Prog ε σ α} {s s' : σ} {a : α}
    (h : x s = (.ok a, s')) : tryExcept x handler s = (.ok a, s') := by
  rw [tryExcept, h]

/-- A guarded block returns because its body did, or because its handler did after a raise. -/
theorem of_tryExcept_ok {x : Prog ε σ α} {handler : ε → Prog ε σ α} {s s' : σ} {a : α}
    (h : tryExcept x handler s = (.ok a, s')) :
    x s = (.ok a, s') ∨ ∃ e s₁, x s = (.error e, s₁) ∧ handler e s₁ = (.ok a, s') := by
  unfold tryExcept at h
  split at h
  · rename_i b s₁ hx
    exact Or.inl (hx.trans h)
  · rename_i e s₁ hx
    exact Or.inr ⟨e, s₁, hx, h⟩

/-- A guarded block raises only if its handler does, after the body has raised. -/
theorem of_tryExcept_error {x : Prog ε σ α} {handler : ε → Prog ε σ α} {s s' : σ} {e' : ε}
    (h : tryExcept x handler s = (.error e', s')) :
    ∃ e s₁, x s = (.error e, s₁) ∧ handler e s₁ = (.error e', s') := by
  unfold tryExcept at h
  split at h
  · cases h
  · rename_i e s₁ hx
    exact ⟨e, s₁, hx, h⟩

/-- The `finally` block runs on either exit and keeps the result. -/
@[simp] theorem tryFinally_run (x : Prog ε σ α) (cleanup : σ → σ) (s : σ) :
    tryFinally x cleanup s = ((x s).1, cleanup (x s).2) := rfl

/-! ## Frames

A view is any function of the state. What no part of a program touches, the program keeps.
-/

/-- The program leaves a part of the state as it was, whether it returns or raises. -/
def Keeps (view : σ → τ) (x : Prog ε σ α) : Prop := ∀ s, view (x s).2 = view s

variable {view : σ → τ}

/-- A value that is returned keeps every view. -/
theorem keeps_pure (a : α) : Keeps view (pure a : Prog ε σ α) := fun _ => rfl

/-- A raise keeps every view. -/
theorem keeps_raise (e : ε) : Keeps view (raise e : Prog ε σ α) := fun _ => rfl

/-- Reading keeps every view. -/
theorem keeps_get : Keeps view (get : Prog ε σ σ) := fun _ => rfl

/-- A pure computation keeps every view. -/
theorem keeps_ofExcept (x : Except ε α) : Keeps view (ofExcept x) := fun _ => rfl

/-- A modification keeps a view that its function keeps. -/
theorem keeps_modify {f : σ → σ} (h : ∀ s, view (f s) = view s) :
    Keeps view (modify f : Prog ε σ Unit) := h

/-- A sequence keeps a view that both parts keep. -/
theorem Keeps.bind {x : Prog ε σ α} {f : α → Prog ε σ β} (hx : Keeps view x)
    (hf : ∀ a, Keeps view (f a)) : Keeps view (x >>= f) := by
  intro s
  have hs := hx s
  simp only [Bind.bind]
  split
  · rename_i a s' h
    rw [h] at hs
    exact (hf a s').trans hs
  · rename_i e s' h
    rw [h] at hs
    exact hs

/-- A guarded block keeps a view that the body and the handler keep. -/
theorem Keeps.tryExcept {x : Prog ε σ α} {handler : ε → Prog ε σ α} (hx : Keeps view x)
    (hhandler : ∀ e, Keeps view (handler e)) : Keeps view (tryExcept x handler) := by
  intro s
  have hs := hx s
  unfold Prog.tryExcept
  split
  · rename_i a s' h
    rw [h] at hs
    exact hs
  · rename_i e s' h
    rw [h] at hs
    exact (hhandler e s').trans hs

/-- The program never raises. -/
def Returns (x : Prog ε σ α) : Prop := ∀ s, ∃ a s', x s = (.ok a, s')

/-- The program leaves a part of the state as it was whenever it raises: it is atomic there. -/
def KeepsOnError (view : σ → τ) (x : Prog ε σ α) : Prop :=
  ∀ s e s', x s = (.error e, s') → view s' = view s

/-- What keeps a view keeps it in particular when it raises. -/
theorem Keeps.onError {x : Prog ε σ α} (hx : Keeps view x) : KeepsOnError view x := by
  intro s e s' h
  have hs := hx s
  rw [h] at hs
  exact hs

/-- What never raises keeps every view when it raises. -/
theorem Returns.onError {x : Prog ε σ α} (hx : Returns x) : KeepsOnError view x := by
  intro s e s' h
  obtain ⟨a, s'', hok⟩ := hx s
  rw [hok] at h
  cases h

/-- A frame followed by an atomic program is atomic. -/
theorem Keeps.bind_onError {x : Prog ε σ α} {f : α → Prog ε σ β} (hx : Keeps view x)
    (hf : ∀ a, KeepsOnError view (f a)) : KeepsOnError view (x >>= f) := by
  intro s e s' h
  rcases bind_eq_error.mp h with hraise | ⟨a, s₁, hreturn, hraise⟩
  · exact hx.onError s e s' hraise
  · have hs := hx s
    rw [hreturn] at hs
    exact (hf a s₁ e s' hraise).trans hs

/-- An atomic program followed by one that never raises is atomic. -/
theorem KeepsOnError.bind_returns {x : Prog ε σ α} {f : α → Prog ε σ β} (hx : KeepsOnError view x)
    (hf : ∀ a, Returns (f a)) : KeepsOnError view (x >>= f) := by
  intro s e s' h
  rcases bind_eq_error.mp h with hraise | ⟨a, s₁, -, hraise⟩
  · exact hx s e s' hraise
  · obtain ⟨b, s₂, hok⟩ := hf a s₁
    rw [hok] at hraise
    cases hraise

/-- A value that is returned is no raise. -/
theorem returns_pure (a : α) : Returns (pure a : Prog ε σ α) := fun s => ⟨a, s, rfl⟩

/-- A modification never raises. -/
theorem returns_modify (f : σ → σ) : Returns (modify f : Prog ε σ Unit) := fun s => ⟨(), f s, rfl⟩

/-- A sequence of parts that never raise never raises. -/
theorem Returns.bind {x : Prog ε σ α} {f : α → Prog ε σ β} (hx : Returns x)
    (hf : ∀ a, Returns (f a)) : Returns (x >>= f) := by
  intro s
  obtain ⟨a, s₁, ha⟩ := hx s
  obtain ⟨b, s₂, hb⟩ := hf a s₁
  exact ⟨b, s₂, bind_eq_ok.mpr ⟨a, s₁, ha, hb⟩⟩

/-! ## Programs that return alike

For programs that may raise different exceptions and do different things on the way there.
-/

/-- Two programs return the same values and leave the same states then; where they raise they may differ. -/
def ReturnAlike (x y : Prog ε σ α) : Prop := ∀ s a s', x s = (.ok a, s') ↔ y s = (.ok a, s')

/-- A program returns what it returns. -/
theorem ReturnAlike.refl (x : Prog ε σ α) : ReturnAlike x x := fun _ _ _ => Iff.rfl

/-- Two pure computations with the same values return alike. -/
theorem returnAlike_ofExcept {x y : Except ε α} (h : ∀ a, x = .ok a ↔ y = .ok a) :
    ReturnAlike (ofExcept x : Prog ε σ α) (ofExcept y) := by
  intro s a s'
  simp only [ofExcept_run, Prod.mk.injEq, h]

/-- Sequences of parts that return alike return alike. -/
theorem ReturnAlike.bind {x y : Prog ε σ α} {f g : α → Prog ε σ β} (hx : ReturnAlike x y)
    (hf : ∀ a, ReturnAlike (f a) (g a)) : ReturnAlike (x >>= f) (y >>= g) := by
  intro s b s'
  rw [bind_eq_ok, bind_eq_ok]
  exact exists₂_congr fun a s₁ => and_congr (hx s a s₁) (hf a s₁ b s')

/-- Handlers that never return make no difference. -/
theorem ReturnAlike.tryExcept {x y : Prog ε σ α} {handler handler' : ε → Prog ε σ α}
    (hx : ReturnAlike x y) (hraises : ∀ e s a s', handler e s ≠ (.ok a, s'))
    (hraises' : ∀ e s a s', handler' e s ≠ (.ok a, s')) :
    ReturnAlike (tryExcept x handler) (tryExcept y handler') := by
  intro s a s'
  constructor
  · intro h
    rcases of_tryExcept_ok h with hreturn | ⟨e, s₁, -, hhandler⟩
    · exact tryExcept_ok ((hx s a s').mp hreturn)
    · exact absurd hhandler (hraises e s₁ a s')
  · intro h
    rcases of_tryExcept_ok h with hreturn | ⟨e, s₁, -, hhandler⟩
    · exact tryExcept_ok ((hx s a s').mpr hreturn)
    · exact absurd hhandler (hraises' e s₁ a s')

/-- A block with a `finally` returns when its body does, in the state after the cleanup. -/
theorem tryFinally_eq_ok {x : Prog ε σ α} {cleanup : σ → σ} {s s' : σ} {a : α} :
    tryFinally x cleanup s = (.ok a, s') ↔ ∃ s₁, x s = (.ok a, s₁) ∧ cleanup s₁ = s' := by
  rw [tryFinally_run, Prod.mk.injEq]
  constructor
  · exact fun ⟨hvalue, hstate⟩ => ⟨(x s).2, Prod.ext hvalue rfl, hstate⟩
  · rintro ⟨s₁, hx, hstate⟩
    rw [hx]
    exact ⟨rfl, hstate⟩

/-- The same cleanup after bodies that return alike. -/
theorem ReturnAlike.tryFinally {x y : Prog ε σ α} (hx : ReturnAlike x y) (cleanup : σ → σ) :
    ReturnAlike (tryFinally x cleanup) (tryFinally y cleanup) := by
  intro s a s'
  rw [tryFinally_eq_ok, tryFinally_eq_ok]
  exact exists_congr fun s₁ => and_congr_left' (hx s a s₁)

end Prog

end Effect
