import Ghpulse.Library.Effect
import Ghpulse.Library.Runs
import Mathlib.Logic.Function.Basic

/-!
# Interleaved programs

A program as the list of its atomic operations on a state that it shares with others. After each of
them every other thread may act, so what the next operation meets is what the threads have made of the
state by then. `run` executes a program alone, which is what `Effect.Prog` describes; `Serial` is the
rule that threads which exclude each other behave as if they had been run alone, one after the other.

An operation can fail silently: the program goes on, and `succeeds` tells. `Sound` says that no
operation of a program that is run alone does.
-/

open Effect

namespace Interleave

/-! ## Programs

The operations of a program are functions of the shared state, and which one comes next may depend on what
the last one has read. An operation may have to wait for a condition.
-/

/-- One atomic operation on the shared state. -/
structure Op (σ : Type) where
  /-- Whether the operation can be executed; a thread waits until it can. -/
  ready : σ → Bool
  /-- Whether the operation does what it is for. -/
  succeeds : σ → Bool
  change : σ → σ

/-- A program: it has a result, or goes on after an operation, with what this has read. -/
inductive Program (ε σ α : Type) where
  | done (result : Except ε α)
  | step (op : Op σ) (next : σ → Program ε σ α)

variable {ε σ τ α β ι : Type}

/-- An operation that never waits and never fails. -/
def Op.of (change : σ → σ) : Op σ := ⟨fun _ => true, fun _ => true, change⟩

namespace Program

/-- Sequential composition. -/
def bind : Program ε σ α → (α → Program ε σ β) → Program ε σ β
  | .done (.ok a), f => f a
  | .done (.error e), _ => .done (.error e)
  | .step op next, f => .step op fun s => (next s).bind f

instance : Monad (Program ε σ) where
  pure a := .done (.ok a)
  bind := Program.bind

/-- A computation that does not touch the state. -/
def ofExcept (x : Except ε α) : Program ε σ α := .done x

/-- Raise an exception. -/
def raise (e : ε) : Program ε σ α := .done (.error e)

/-- A whole program as one operation. -/
def atomic (x : Prog ε σ α) : Program ε σ α := .step (.of fun s => (x s).2) fun s => .done (x s).1

/-- Change the state. -/
def modify (f : σ → σ) : Program ε σ Unit := .step (.of f) fun _ => .done (.ok ())

/-- Read the state. -/
def read (f : σ → α) : Program ε σ α := .step (.of id) fun s => .done (.ok (f s))

/-- Change the state, with an operation that can fail silently. -/
def attempt (succeeds : σ → Bool) (f : σ → σ) : Program ε σ Unit :=
  .step ⟨fun _ => true, succeeds, f⟩ fun _ => .done (.ok ())

/-- Change the state as soon as a condition holds. -/
def await (ready : σ → Bool) (f : σ → σ) : Program ε σ Unit :=
  .step ⟨ready, fun _ => true, f⟩ fun _ => .done (.ok ())

/-- `try: x` with `except Exception as e: handler(e)`. -/
def tryExcept : Program ε σ α → (ε → Program ε σ α) → Program ε σ α
  | .done (.ok a), _ => .done (.ok a)
  | .done (.error e), handler => handler e
  | .step op next, handler => .step op fun s => (next s).tryExcept handler

/-- The operations of a `finally` block, then the result. -/
def finish : List (σ → σ) → Except ε α → Program ε σ α
  | [], result => .done result
  | f :: fs, result => .step (.of f) fun _ => finish fs result

/-- `try: x` with a `finally` block that only changes the state. -/
def tryFinally : Program ε σ α → List (σ → σ) → Program ε σ α
  | .done result, cleanup => finish cleanup result
  | .step op next, cleanup => .step op fun s => (next s).tryFinally cleanup

/-- A call that is skipped while the lock is held; the test and the acquisition are one operation. -/
def tryLock (held : σ → Bool) (lock : σ → σ) (skipped : α) (body : Program ε σ α) : Program ε σ α :=
  .step (.of fun s => if held s then s else lock s) fun s =>
    if held s then .done (.ok skipped) else body

/-- A program over a part of the state. -/
def zoom (get : τ → σ) (set : σ → τ → τ) : Program ε σ α → Program ε τ α
  | .done result => .done result
  | .step op next =>
    .step ⟨fun t => op.ready (get t), fun t => op.succeeds (get t), fun t => set (op.change (get t)) t⟩
      fun t => (next (get t)).zoom get set

/-! ## Running alone

`run` forgets where one operation ends and the next begins. The lemmas relate the constructs of the two
kinds of programs.
-/

/-- The program executed alone, where no operation has to wait. -/
def run : Program ε σ α → Prog ε σ α
  | .done result => fun s => (result, s)
  | .step op next => fun s => (next s).run (op.change s)

/-- A sequence that is left alone runs its parts one after the other. -/
theorem run_bind (x : Program ε σ α) (f : α → Program ε σ β) :
    run (x >>= f) = run x >>= fun a => run (f a) := by
  show run (x.bind f) = _
  funext s
  induction x generalizing s with
  | done result => cases result <;> rfl
  | step op next ih => exact ih s (op.change s)

/-- Sequences whose parts run alike run alike. -/
theorem run_bind_congr {x : Program ε σ α} {f : α → Program ε σ β} {y : Prog ε σ α}
    {g : α → Prog ε σ β} (hx : run x = y) (hf : ∀ a, run (f a) = g a) : run (x >>= f) = y >>= g := by
  rw [run_bind, hx, funext hf]

/-- A guarded block that is left alone is the guarded block of its run. -/
theorem run_tryExcept (x : Program ε σ α) (handler : ε → Program ε σ α) :
    run (x.tryExcept handler) = Prog.tryExcept (run x) fun e => run (handler e) := by
  funext s
  induction x generalizing s with
  | done result => cases result <;> rfl
  | step op next ih => exact ih s (op.change s)

/-- The cleanup is applied step by step, and the result is kept. -/
theorem run_finish (cleanup : List (σ → σ)) (result : Except ε α) (s : σ) :
    run (finish cleanup result) s = (result, cleanup.foldl (fun s f => f s) s) := by
  induction cleanup generalizing s with
  | nil => rfl
  | cons f fs ih => exact ih (f s)

/-- A block with a cleanup that is left alone applies the whole cleanup. -/
theorem run_tryFinally (x : Program ε σ α) (cleanup : List (σ → σ)) :
    run (x.tryFinally cleanup) =
      Prog.tryFinally (run x) fun s => cleanup.foldl (fun s f => f s) s := by
  funext s
  induction x generalizing s with
  | done result => exact run_finish cleanup result s
  | step op next ih => exact ih s (op.change s)

/-- A call that finds the lock held is skipped. -/
theorem run_tryLock_of_held {held : σ → Bool} {lock : σ → σ} {skipped : α} {body : Program ε σ α}
    {s : σ} (h : held s = true) : run (tryLock held lock skipped body) s = (.ok skipped, s) := by
  show run (if held s then _ else _) (if held s then s else lock s) = _
  rw [if_pos h, if_pos h]
  rfl

/-- A call that finds the lock free runs its body with it. -/
theorem run_tryLock_of_free {held : σ → Bool} {lock : σ → σ} {skipped : α} {body : Program ε σ α}
    {s : σ} (h : held s = false) : run (tryLock held lock skipped body) s = run body (lock s) := by
  show run (if held s then _ else _) (if held s then s else lock s) = _
  rw [h, if_neg Bool.false_ne_true, if_neg Bool.false_ne_true]

/-! ## Operations that fail silently

Some operations of a handler may fail without an exception. A client that needs them to succeed asks for
sound runs.
-/

/-- No operation of the program fails when it is executed alone. -/
def Sound : Program ε σ α → σ → Prop
  | .done _, _ => True
  | .step op next, s => op.succeeds s = true ∧ (next s).Sound (op.change s)

/-- A sequence is sound if both parts are. -/
theorem Sound.of_bind {x : Program ε σ α} {f : α → Program ε σ β} {s : σ} (h : (x >>= f).Sound s) :
    x.Sound s ∧ ∀ a s', run x s = (.ok a, s') → (f a).Sound s' := by
  change (x.bind f).Sound s at h
  induction x generalizing s with
  | done result =>
    refine ⟨trivial, fun a s' hrun => ?_⟩
    cases hrun
    exact h
  | step op next ih =>
    obtain ⟨hnext, hrest⟩ := ih s h.2
    exact ⟨⟨h.1, hnext⟩, hrest⟩

/-- A sound guarded block has a sound body, and a sound handler where the body raises. -/
theorem Sound.of_tryExcept {x : Program ε σ α} {handler : ε → Program ε σ α} {s : σ}
    (h : (x.tryExcept handler).Sound s) :
    x.Sound s ∧ ∀ e s', run x s = (.error e, s') → (handler e).Sound s' := by
  induction x generalizing s with
  | done result =>
    refine ⟨trivial, fun a s' hrun => ?_⟩
    cases hrun
    exact h
  | step op next ih =>
    obtain ⟨hnext, hrest⟩ := ih s h.2
    exact ⟨⟨h.1, hnext⟩, hrest⟩

/-- A sound block with a cleanup has a sound body. -/
theorem Sound.of_tryFinally {x : Program ε σ α} {cleanup : List (σ → σ)} {s : σ}
    (h : (x.tryFinally cleanup).Sound s) : x.Sound s := by
  induction x generalizing s with
  | done result => trivial
  | step op next ih => exact ⟨h.1, ih s h.2⟩

/-- A sound call has a sound body when it gets the lock. -/
theorem Sound.of_tryLock {held : σ → Bool} {lock : σ → σ} {skipped : α} {body : Program ε σ α} {s : σ}
    (h : (tryLock held lock skipped body).Sound s) (hfree : held s = false) :
    body.Sound (lock s) := by
  have hbody : (if held s then _ else _ : Program ε σ α).Sound (if held s then s else lock s) := h.2
  rwa [hfree, if_neg Bool.false_ne_true, if_neg Bool.false_ne_true] at hbody

/-! ## Critical sections

`Keeps` and `Critical` are about a program as a tree of operations, so they hold whatever the other
threads do in between.
-/

/-- Whatever the others do, every operation of the program keeps the lock. -/
inductive Keeps (held : σ → Bool) : Program ε σ α → Prop where
  | done (result : Except ε α) : Keeps held (.done result)
  | step {op : Op σ} {next : σ → Program ε σ α} (hop : ∀ s, held s = true → held (op.change s) = true)
      (hnext : ∀ s, Keeps held (next s)) : Keeps held (.step op next)

/-- Every operation of the program keeps the lock, but for the last one, which releases it. -/
inductive Critical (held : σ → Bool) : Program ε σ α → Prop where
  | last {op : Op σ} {next : σ → Program ε σ α} (hop : ∀ s, held (op.change s) = false)
      (hnext : ∀ s, ∃ result, next s = .done result) : Critical held (.step op next)
  | step {op : Op σ} {next : σ → Program ε σ α} (hop : ∀ s, held s = true → held (op.change s) = true)
      (hnext : ∀ s, Critical held (next s)) : Critical held (.step op next)

variable {held : σ → Bool}

/-- An atomic block holds the lock on if its run does. -/
theorem keeps_atomic {x : Prog ε σ α} (h : ∀ s, held s = true → held (x s).2 = true) :
    Keeps held (atomic x) := .step h fun _ => .done _

/-- A modification holds the lock on if its function does. -/
theorem keeps_modify {f : σ → σ} (h : ∀ s, held s = true → held (f s) = true) :
    Keeps held (modify f : Program ε σ Unit) := .step h fun _ => .done _

/-- An attempt holds the lock on if its change does. -/
theorem keeps_attempt {succeeds : σ → Bool} {f : σ → σ} (h : ∀ s, held s = true → held (f s) = true) :
    Keeps held (attempt succeeds f : Program ε σ Unit) := .step h fun _ => .done _

/-- A read holds the lock on. -/
theorem keeps_read (f : σ → α) : Keeps held (read f : Program ε σ α) :=
  .step (fun _ h => h) fun _ => .done _

/-- A sequence of parts that hold the lock on holds it on. -/
theorem Keeps.bind {x : Program ε σ α} {f : α → Program ε σ β} (hx : Keeps held x)
    (hf : ∀ a, Keeps held (f a)) : Keeps held (x >>= f) := by
  show Keeps held (x.bind f)
  induction hx with
  | done result =>
    cases result with
    | error e => exact .done _
    | ok a => exact hf a
  | step hop hnext ih => exact .step hop ih

/-- A guarded block holds the lock on if its body and its handler do. -/
theorem Keeps.tryExcept {x : Program ε σ α} {handler : ε → Program ε σ α} (hx : Keeps held x)
    (hhandler : ∀ e, Keeps held (handler e)) : Keeps held (x.tryExcept handler) := by
  induction hx with
  | done result =>
    cases result with
    | error e => exact hhandler e
    | ok a => exact .done _
  | step hop hnext ih => exact .step hop ih

/-- The last operation of a `finally` block releases the lock. -/
theorem Keeps.tryFinally {x : Program ε σ α} (hx : Keeps held x) {cleanup : List (σ → σ)}
    (hcleanup : ∀ f ∈ cleanup, ∀ s, held s = true → held (f s) = true) {release : σ → σ}
    (hrelease : ∀ s, held (release s) = false) :
    Critical held (x.tryFinally (cleanup ++ [release])) := by
  induction hx with
  | done result =>
    show Critical held (finish (cleanup ++ [release]) result)
    induction cleanup with
    | nil => exact .last hrelease fun _ => ⟨result, rfl⟩
    | cons f fs ih =>
      refine .step (hcleanup f List.mem_cons_self) fun _ => ih fun g hg => ?_
      exact hcleanup g (List.mem_cons_of_mem f hg)
  | step hop hnext ih => exact .step hop ih

end Program

/-! ## Threads

The scheduler decides which thread acts. It is a list of actions, so a statement about all lists is one
about all schedules.
-/

/-- The shared state and what each thread has still to do. -/
structure State (ε σ α : Type) where
  shared : σ
  threads : ℕ → Option (Program ε σ α)

/-- Before the first call. -/
def State.init (s : σ) : State ε σ α := ⟨s, fun _ => none⟩

/-- What the scheduler does: a new thread is called, or a thread executes its next operation. -/
inductive Action (ι : Type) where
  | call (t : ℕ) (i : ι)
  | step (t : ℕ)

/-- The thread that acts. -/
def Action.thread : Action ι → ℕ
  | .call t _ => t
  | .step t => t

/-- One action; undefined when the thread cannot do it. -/
def step (code : ι → Program ε σ α) (s : State ε σ α) : Action ι → Option (State ε σ α)
  | .call t i =>
    match s.threads t with
    | none => some { s with threads := Function.update s.threads t (some (code i)) }
    | some _ => none
  | .step t =>
    match s.threads t with
    | some (.step op next) =>
      if op.ready s.shared then
        some ⟨op.change s.shared, Function.update s.threads t (some (next s.shared))⟩
      else none
    | _ => none

/-- What an action does. -/
inductive Step (code : ι → Program ε σ α) (s : State ε σ α) : Action ι → State ε σ α → Prop where
  | call {t : ℕ} {i : ι} (ht : s.threads t = none) :
      Step code s (.call t i) { s with threads := Function.update s.threads t (some (code i)) }
  | step {t : ℕ} {op : Op σ} {next : σ → Program ε σ α} (ht : s.threads t = some (.step op next))
      (hready : op.ready s.shared = true) :
      Step code s (.step t) ⟨op.change s.shared, Function.update s.threads t (some (next s.shared))⟩

variable {code : ι → Program ε σ α} {s s' : State ε σ α} {a : Action ι}

/-- An action that is defined is one of the steps. -/
theorem Step.of_step (h : Interleave.step code s a = some s') : Step code s a s' := by
  cases a with
  | call t i =>
    simp only [Interleave.step] at h
    split at h
    · next ht =>
      cases h
      exact .call ht
    · cases h
  | step t =>
    simp only [Interleave.step] at h
    split at h
    · next op next ht =>
      split_ifs at h with hready
      cases h
      exact .step ht hready
    · cases h

/-- Each of the steps is the action that defines it. -/
theorem Step.step_eq (h : Step code s a s') : Interleave.step code s a = some s' := by
  cases h with
  | call ht => simp only [Interleave.step, ht]
  | step ht hready => simp only [Interleave.step, ht, hready, if_true]

/-- The operation of an action does not fail silently. -/
def Succeeds (s : State ε σ α) : Action ι → Prop
  | .call _ _ => True
  | .step t => ∀ op next, s.threads t = some (.step op next) → op.succeeds s.shared = true

/-- The result of a program that has one. -/
def Program.result? : Program ε σ α → Option (Except ε α)
  | .done result => some result
  | .step _ _ => none

/-- The result that the acting thread has after an action. -/
def returned (code : ι → Program ε σ α) (s : State ε σ α) (a : Action ι) : Option (Except ε α) :=
  (step code s a).bind fun s' => (s'.threads a.thread).bind Program.result?

/-- What an action returns is the result of its thread after it. -/
theorem returned_of_step (h : step code s a = some s') :
    returned code s a = (s'.threads a.thread).bind Program.result? := by
  rw [returned, h, Option.bind_some]

/-! ## Runs that exclude each other

The invariant of a serialised system: either no thread is in its critical section, or one is, and what it
has still to do leads to where its run alone would have led. Threads outside have returned or not yet
tried the lock.
-/

section Exclusive

variable {held : σ → Bool}

/-- The results that count, of those that a step returns. -/
def completed (counts : Except ε α → Bool) (code : ι → Program ε σ α) (s : State ε σ α)
    (a : Action ι) : List (Except ε α) := ((returned code s a).filter counts).toList

/-- Calls that one lock keeps apart, and a relation between the state and the results so far that each of
them, run alone, preserves. -/
structure Exclusive (held : σ → Bool) (lock : σ → σ) (skipped : ι → α) (body : ι → Program ε σ α)
    (counts : Except ε α → Bool) (P : σ → List (Except ε α) → Prop) : Prop where
  held_lock : ∀ s, held (lock s) = true
  critical : ∀ i, (body i).Critical held
  skips : ∀ i, counts (.ok (skipped i)) = false
  runs : ∀ i s s' result, held s = false →
    (Program.tryLock held lock (skipped i) (body i)).run s = (result, s') → counts result = true
  preserves : ∀ i s s' result log, P s log → held s = false →
    (Program.tryLock held lock (skipped i) (body i)).Sound s →
    (Program.tryLock held lock (skipped i) (body i)).run s = (result, s') → P s' (log ++ [result])

/-- A thread that is not in its critical section: it has returned, or it has not tried the lock. -/
def Outside (code : ι → Program ε σ α) (p : Program ε σ α) : Prop :=
  (∃ result, p = .done result) ∨ ∃ i, p = code i

/-- At most one thread is in its critical section, and what it will do from here is what it would have
done alone, from the state in which it took the lock. -/
inductive Serial (held : σ → Bool) (code : ι → Program ε σ α) (P : σ → List (Except ε α) → Prop)
    (s : State ε σ α) (log : List (Except ε α)) : Prop where
  | free (hfree : held s.shared = false) (hP : P s.shared log)
      (houtside : ∀ t p, s.threads t = some p → Outside code p) : Serial held code P s log
  | inside (t : ℕ) (i : ι) (s₀ : σ) (p : Program ε σ α) (hheld : held s.shared = true)
      (hfree : held s₀ = false) (hP : P s₀ log) (ht : s.threads t = some p)
      (hcritical : p.Critical held) (hrun : p.run s.shared = (code i).run s₀)
      (hsound : p.Sound s.shared → (code i).Sound s₀)
      (houtside : ∀ t' p', t' ≠ t → s.threads t' = some p' → Outside code p') :
      Serial held code P s log

/-- While the lock is free, no thread is in its critical section. -/
theorem Serial.of_free {P : σ → List (Except ε α) → Prop} {log : List (Except ε α)}
    (h : Serial held code P s log) (hfree : held s.shared = false) : P s.shared log := by
  cases h with
  | free _ hP _ => exact hP
  | inside t i s₀ p hheld =>
    rw [hfree] at hheld
    cases hheld

/-- A thread in its critical section has no result yet. -/
theorem Program.Critical.result? {p : Program ε σ α} (h : p.Critical held) : p.result? = none := by
  cases h <;> rfl

/-- A thread after one of the threads went on. -/
theorem Outside.update {t t' : ℕ} {p q : Program ε σ α} {threads : ℕ → Option (Program ε σ α)}
    (hq : Outside code q) (hrest : t' ≠ t → threads t' = some p → Outside code p)
    (h : Function.update threads t (some q) t' = some p) : Outside code p := by
  by_cases ht : t' = t
  · subst ht
    rw [Function.update_self] at h
    cases h
    exact hq
  · rw [Function.update_of_ne ht] at h
    exact hrest ht h

variable {lock : σ → σ} {skipped : ι → α} {body : ι → Program ε σ α} {counts : Except ε α → Bool}
  {P : σ → List (Except ε α) → Prop} {log : List (Except ε α)}

/-- What a step of thread `t` completes. -/
theorem completed_of_step (h : step code s a = some s') {p : Program ε σ α}
    (hp : s'.threads a.thread = some p) :
    completed counts code s a = (p.result?.filter counts).toList := by
  rw [completed, returned_of_step h, hp, Option.bind_some]

/-- What the first operation of a call does. -/
theorem of_tryLock {op : Op σ} {next : σ → Program ε σ α} {a : α} {p : Program ε σ α}
    (h : Program.tryLock held lock a p = .step op next) (s : σ) :
    op.change s = (if held s then s else lock s) ∧
      next s = if held s then .done (.ok a) else p := by
  cases h
  exact ⟨rfl, rfl⟩

/-- Every step keeps the runs apart. -/
theorem Serial.step (hE : Exclusive held lock skipped body counts P)
    (h : Serial held (fun i => Program.tryLock held lock (skipped i) (body i)) P s log)
    (hsucceeds : Succeeds s a)
    (hstep : Interleave.step (fun i => Program.tryLock held lock (skipped i) (body i)) s a = some s') :
    Serial held (fun i => Program.tryLock held lock (skipped i) (body i)) P s'
      (log ++ completed counts (fun i => Program.tryLock held lock (skipped i) (body i)) s a) := by
  cases Step.of_step hstep with
  -- a new thread is outside, and nothing else changes
  | @call t i ht =>
    have hnone : completed counts _ s (.call t i) = [] :=
      completed_of_step hstep (Function.update_self t _ s.threads)
    rw [hnone, List.append_nil]
    cases h with
    | free hfree hP houtside =>
      exact .free hfree hP fun t' p hp =>
        Outside.update (.inr ⟨i, rfl⟩) (fun _ => houtside t' p) hp
    | inside t₀ i₀ s₀ p hheld hfree hP ht₀ hcritical hrun hsound houtside =>
      have hne : t₀ ≠ t := by
        rintro rfl
        rw [ht] at ht₀
        cases ht₀
      refine .inside t₀ i₀ s₀ p hheld hfree hP ((Function.update_of_ne hne _ _).trans ht₀) hcritical
        hrun hsound fun t' p' ht' hp' => ?_
      exact Outside.update (.inr ⟨i, rfl⟩) (fun _ => houtside t' p' ht') hp'
  | @step t op next ht hready =>
    have hself : Function.update s.threads t (some (next s.shared)) t = some (next s.shared) :=
      Function.update_self t _ s.threads
    have hcompleted : completed counts _ s (.step t) = _ := completed_of_step hstep hself
    cases h with
    | free hfree hP houtside =>
      obtain ⟨result, hdone⟩ | ⟨i, hi⟩ := houtside t _ ht
      · cases hdone
      · -- the thread takes the lock
        obtain ⟨hchange, hnext⟩ := of_tryLock hi.symm s.shared
        rw [hfree, if_neg Bool.false_ne_true] at hchange hnext
        rw [hcompleted, hnext, (hE.critical i).result?, Option.filter_none, Option.toList_none,
          List.append_nil]
        refine .inside t i s.shared (body i) ?_ hfree hP (hnext ▸ hself) (hE.critical i) ?_ ?_ ?_
        · exact hchange ▸ hE.held_lock s.shared
        · exact (hchange ▸ (Program.run_tryLock_of_free hfree).symm)
        · intro hbody
          have hsound : (Program.step op next).Sound s.shared :=
            ⟨hsucceeds op next ht, hnext.symm ▸ hbody⟩
          exact (hi ▸ hsound :)
        · exact fun t' p' hne hp' =>
            houtside t' p' ((Function.update_of_ne hne _ _).symm.trans hp')
    | inside t₀ i₀ s₀ p hheld hfree hP ht₀ hcritical hrun hsound houtside =>
      -- the thread inside goes on, or another one acts
      by_cases heq : t = t₀
      · subst heq
        obtain rfl : p = .step op next := Option.some.inj (ht₀.symm.trans ht)
        have hrest (t' : ℕ) (p' : Program ε σ α) (hne : t' ≠ t)
            (hp' : Function.update s.threads t (some (next s.shared)) t' = some p') :
            Outside _ p' := houtside t' p' hne ((Function.update_of_ne hne _ _).symm.trans hp')
        have hsoundRest (h : (next s.shared).Sound (op.change s.shared)) :
            (Program.tryLock held lock (skipped i₀) (body i₀)).Sound s₀ :=
          hsound ⟨hsucceeds op next ht, h⟩
        cases hcritical with
        | last hop hnext =>
          -- the lock is released, and the run is complete
          obtain ⟨result, hdone⟩ := hnext s.shared
          have hrun : (Program.tryLock held lock (skipped i₀) (body i₀)).run s₀ =
              (result, op.change s.shared) := by
            rw [← hrun]
            show (next s.shared).run (op.change s.shared) = _
            rw [hdone]
            rfl
          have hcounts : counts result = true := hE.runs i₀ s₀ _ result hfree hrun
          rw [hcompleted, hdone, Program.result?, Option.filter_some, if_pos hcounts]
          refine .free (hop s.shared) ?_ fun t' p' hp' => ?_
          · exact hE.preserves i₀ s₀ _ result log hP hfree (hsoundRest (hdone ▸ trivial)) hrun
          · exact Outside.update (.inl ⟨result, hdone⟩) (houtside t' p') (hdone ▸ hp')
        | step hop hnext =>
          rw [hcompleted, (hnext s.shared).result?, Option.filter_none, Option.toList_none,
            List.append_nil]
          exact .inside t i₀ s₀ (next s.shared) (hop s.shared hheld) hfree hP hself
            (hnext s.shared) hrun hsoundRest hrest
      · -- another thread finds the lock held, and returns
        obtain ⟨result, hdone⟩ | ⟨i, hi⟩ := houtside t _ heq ht
        · cases hdone
        · obtain ⟨hchange, hnext⟩ := of_tryLock hi.symm s.shared
          rw [if_pos hheld] at hchange hnext
          rw [hcompleted, hnext, Program.result?, Option.filter_some, hE.skips i,
            if_neg Bool.false_ne_true, Option.toList_none, List.append_nil, hchange]
          refine .inside t₀ i₀ s₀ p hheld hfree hP ((Function.update_of_ne (Ne.symm heq) _ _).trans ht₀)
            hcritical hrun hsound fun t' p' hne hp' => ?_
          exact Outside.update (.inl ⟨_, rfl⟩) (fun _ => houtside t' p' hne) hp'

/-- In every run whose operations do not fail silently, the calls that are not skipped are as if executed
alone, one after the other, in the order in which they return. -/
theorem Serial.run (hE : Exclusive held lock skipped body counts P) {s₀ : σ} (hP : P s₀ [])
    (hfree : held s₀ = false) {as : List (Action ι)} {s : State ε σ α}
    (hsucceeds : Runs.Guarded (Interleave.step fun i => Program.tryLock held lock (skipped i) (body i))
      Succeeds (State.init s₀) as)
    (hrun : Runs.run (Interleave.step fun i => Program.tryLock held lock (skipped i) (body i))
      (State.init s₀) as = some s) :
    Serial held (fun i => Program.tryLock held lock (skipped i) (body i)) P s
      (Runs.record (Interleave.step fun i => Program.tryLock held lock (skipped i) (body i))
        (completed counts fun i => Program.tryLock held lock (skipped i) (body i))
        (State.init s₀) as) := by
  have hinit : Serial held (fun i => Program.tryLock held lock (skipped i) (body i)) P
      (State.init s₀ : State ε σ α) [] := .free hfree hP fun t p ht => by cases ht
  exact Runs.record_preserves_of_guarded (g := fun _ _ => ([] : List Unit)) (k := [])
    (P := fun s log _ => Serial held _ P s log) (fun s a s' log _ h hok hstep => h.step hE hok hstep)
    hinit hsucceeds hrun

end Exclusive

/-! ## Without the marks of failure

`succeeds` only marks operations, so what a system does does not depend on it, and the rule of serial runs
holds without its guard for a relation that does not ask for sound runs. -/

/-- An operation that never counts as failed. -/
def Op.unmarked (op : Op σ) : Op σ := { op with succeeds := fun _ => true }

/-- A program without its marks. -/
def Program.unmarked : Program ε σ α → Program ε σ α
  | .done result => .done result
  | .step op next => .step op.unmarked fun s => (next s).unmarked

/-- A system whose threads have no marks. -/
def State.unmarked (s : State ε σ α) : State ε σ α :=
  { s with threads := fun t => (s.threads t).map Program.unmarked }

/-- The marks do not change what a program does. -/
theorem Program.run_unmarked (p : Program ε σ α) : p.unmarked.run = p.run := by
  funext s
  induction p generalizing s with
  | done result => rfl
  | step op next ih => exact ih s (op.change s)

/-- The marks do not change a result. -/
theorem Program.result?_unmarked (p : Program ε σ α) : p.unmarked.result? = p.result? := by
  cases p <;> rfl

/-- The marks are dropped in the body of a call. -/
theorem Program.unmarked_tryLock (held : σ → Bool) (lock : σ → σ) (skipped : α)
    (body : Program ε σ α) :
    (Program.tryLock held lock skipped body).unmarked =
      Program.tryLock held lock skipped body.unmarked := by
  have hnext (s : σ) : (if held s then .done (.ok skipped) else body : Program ε σ α).unmarked =
      if held s then .done (.ok skipped) else body.unmarked := by
    split_ifs <;> rfl
  exact congrArg (Program.step _) (funext hnext)

/-- A critical section is one without its marks. -/
theorem Program.Critical.unmarked {held : σ → Bool} {p : Program ε σ α} (h : p.Critical held) :
    p.unmarked.Critical held := by
  induction h with
  | last hop hnext =>
    refine .last hop fun s => ?_
    obtain ⟨result, hresult⟩ := hnext s
    exact ⟨result, by rw [hresult]; rfl⟩
  | step hop hnext ih => exact .step hop ih

/-- Dropping the marks commutes with moving a thread. -/
theorem State.unmarked_update (s : State ε σ α) (shared : σ) (t : ℕ) (p : Program ε σ α) :
    State.unmarked ⟨shared, Function.update s.threads t (some p)⟩ =
      ⟨shared, Function.update s.unmarked.threads t (some p.unmarked)⟩ := by
  refine congrArg (State.mk shared) (funext fun t' => ?_)
  show (Function.update s.threads t (some p) t').map Program.unmarked = _
  by_cases ht : t' = t
  · rw [ht, Function.update_self, Function.update_self, Option.map_some]
  · rw [Function.update_of_ne ht, Function.update_of_ne ht]
    rfl

/-- A system without marks takes the steps of the system with them. -/
theorem step_unmarked (code : ι → Program ε σ α) (s : State ε σ α) (a : Action ι) :
    step (fun i => (code i).unmarked) s.unmarked a = (step code s a).map State.unmarked := by
  cases a with
  | call t i =>
    have hthread : s.unmarked.threads t = (s.threads t).map Program.unmarked := rfl
    simp only [step, hthread]
    cases s.threads t with
    | some p => rfl
    | none => exact congrArg some (State.unmarked_update s s.shared t (code i)).symm
  | step t =>
    have hthread : s.unmarked.threads t = (s.threads t).map Program.unmarked := rfl
    simp only [step, hthread]
    rcases s.threads t with _ | _ | ⟨op, next⟩
    · rfl
    · rfl
    · show (if op.ready s.shared = true then _ else _) = Option.map State.unmarked (if _ then _ else _)
      split_ifs
      · exact congrArg some (State.unmarked_update s (op.change s.shared) t (next s.shared)).symm
      · rfl

/-- Without marks every operation counts as successful. -/
theorem succeeds_unmarked (s : State ε σ α) (a : Action ι) : Succeeds s.unmarked a := by
  cases a with
  | call t i => trivial
  | step t =>
    intro op next ht
    have ht : (s.threads t).map Program.unmarked = some (.step op next) := ht
    obtain ⟨p, -, hp⟩ := Option.map_eq_some_iff.mp ht
    cases p with
    | done result => cases hp
    | step op' next' =>
      cases hp
      rfl

/-- The marks do not change what an action completes. -/
theorem completed_unmarked (counts : Except ε α → Bool) (code : ι → Program ε σ α)
    (s : State ε σ α) (a : Action ι) :
    completed counts (fun i => (code i).unmarked) s.unmarked a = completed counts code s a := by
  rw [completed, completed, returned, returned, step_unmarked]
  cases step code s a with
  | none => rfl
  | some s' =>
    show ((((s'.threads a.thread).map Program.unmarked).bind Program.result?).filter counts).toList = _
    cases h : s'.threads a.thread with
    | none => rw [Option.bind_some, h]; rfl
    | some p => rw [Option.bind_some, h, Option.map_some, Option.bind_some, Option.bind_some,
        Program.result?_unmarked]

/-- The runs of a system without marks are those of the system with them, with the same results, and they
meet every guard that asks for success. -/
theorem run_unmarked (counts : Except ε α → Bool) (code : ι → Program ε σ α) (s : State ε σ α)
    (as : List (Action ι)) :
    Runs.run (step fun i => (code i).unmarked) s.unmarked as =
        (Runs.run (step code) s as).map State.unmarked ∧
      Runs.record (step fun i => (code i).unmarked)
          (completed counts fun i => (code i).unmarked) s.unmarked as =
        Runs.record (step code) (completed counts code) s as ∧
      Runs.Guarded (step fun i => (code i).unmarked) Succeeds s.unmarked as := by
  induction as generalizing s with
  | nil => exact ⟨rfl, rfl, trivial⟩
  | cons a as ih =>
    rw [Runs.run, Runs.run, Runs.record, Runs.record, Runs.Guarded, step_unmarked,
      completed_unmarked]
    cases step code s a with
    | none => exact ⟨rfl, rfl, succeeds_unmarked s a, fun s' h => by cases h⟩
    | some m =>
      obtain ⟨hrun, hrecord, hguarded⟩ := ih m
      refine ⟨hrun, congrArg (completed counts code s a ++ ·) hrecord, succeeds_unmarked s a, ?_⟩
      rintro s' ⟨rfl⟩
      exact hguarded

/-- While the lock is free, whatever has failed on the way, the state is what the completed calls make of
it when they are executed alone, one after the other, in the order in which they returned. -/
theorem serial_of_run {held : σ → Bool} {lock : σ → σ} {skipped : ι → α} {body : ι → Program ε σ α}
    {counts : Except ε α → Bool} {P : σ → List (Except ε α) → Prop}
    (hlock : ∀ s, held (lock s) = true) (hcritical : ∀ i, (body i).Critical held)
    (hskips : ∀ i, counts (.ok (skipped i)) = false)
    (hruns : ∀ i s s' result, held s = false →
      (Program.tryLock held lock (skipped i) (body i)).run s = (result, s') → counts result = true)
    (hpreserves : ∀ i s s' result log, P s log → held s = false →
      (Program.tryLock held lock (skipped i) (body i)).run s = (result, s') → P s' (log ++ [result]))
    {s₀ : σ} (hP : P s₀ []) (hfree : held s₀ = false) {as : List (Action ι)} {s : State ε σ α}
    (hrun : Runs.run (step fun i => Program.tryLock held lock (skipped i) (body i))
      (.init s₀) as = some s) (hidle : held s.shared = false) :
    P s.shared (Runs.record (step fun i => Program.tryLock held lock (skipped i) (body i))
      (completed counts fun i => Program.tryLock held lock (skipped i) (body i)) (.init s₀) as) := by
  have hcode (i : ι) : (Program.tryLock held lock (skipped i) (body i)).unmarked =
      Program.tryLock held lock (skipped i) (body i).unmarked := Program.unmarked_tryLock _ _ _ _
  have halone (i : ι) : (Program.tryLock held lock (skipped i) (body i).unmarked).run =
      (Program.tryLock held lock (skipped i) (body i)).run := by
    rw [← hcode, Program.run_unmarked]
  have hE : Exclusive held lock skipped (fun i => (body i).unmarked) counts P :=
    { held_lock := hlock
      critical := fun i => (hcritical i).unmarked
      skips := hskips
      runs := fun i s s' result hfree h => hruns i s s' result hfree (halone i ▸ h)
      preserves := fun i s s' result log hP hfree _ h =>
        hpreserves i s s' result log hP hfree (halone i ▸ h) }
  obtain ⟨hrun', hrecord, hguarded⟩ := run_unmarked counts
    (fun i => Program.tryLock held lock (skipped i) (body i)) (.init s₀) as
  rw [hrun, Option.map_some] at hrun'
  simp only [hcode] at hrun' hrecord hguarded
  rw [← hrecord]
  exact (Serial.run hE hP hfree hguarded hrun').of_free hidle

end Interleave
