import Ghpulse.Library.Interleaving

/-!
# Every moment of a run

`Throughout Q p s` says that a program that is executed alone from `s` is in a state of `Q` before and
after each of its operations. There is one rule for each construct, and `throughout_of_run` carries the
property over to runs that exclude each other: whatever the scheduler does, every reachable state is in
`Q`, also while a run is in flight.
-/

open Effect

namespace Interleave

variable {ε σ α β ι : Type}

namespace Program

/-- `Q` holds at every moment of a run alone. -/
def Throughout (Q : σ → Prop) : Program ε σ α → σ → Prop
  | .done _, s => Q s
  | .step op next, s => Q s ∧ (next s).Throughout Q (op.change s)

variable {Q : σ → Prop} {p : Program ε σ α} {s : σ}

/-- What holds throughout holds at the start. -/
theorem Throughout.now (h : p.Throughout Q s) : Q s := by
  cases p with
  | done result => exact h
  | step op next => exact h.1

/-- An atomic block is seen before it and after it. -/
theorem throughout_atomic {x : Prog ε σ α} (hQ : Q s) (hQ' : Q (x s).2) :
    (atomic x).Throughout Q s := ⟨hQ, hQ'⟩

/-- So is a modification. -/
theorem throughout_modify {f : σ → σ} (hQ : Q s) (hQ' : Q (f s)) :
    (modify f : Program ε σ Unit).Throughout Q s := ⟨hQ, hQ'⟩

/-- So is an attempt. -/
theorem throughout_attempt {succeeds : σ → Bool} {f : σ → σ} (hQ : Q s) (hQ' : Q (f s)) :
    (attempt succeeds f : Program ε σ Unit).Throughout Q s := ⟨hQ, hQ'⟩

/-- A read changes nothing. -/
theorem throughout_read {f : σ → α} (hQ : Q s) : (read f : Program ε σ α).Throughout Q s := ⟨hQ, hQ⟩

/-- It holds throughout a sequence when it does throughout both parts. -/
theorem Throughout.bind {x : Program ε σ α} {f : α → Program ε σ β} (hx : x.Throughout Q s)
    (hf : ∀ a s', Q s' → x.run s = (.ok a, s') → (f a).Throughout Q s') :
    (x >>= f).Throughout Q s := by
  show (x.bind f).Throughout Q s
  induction x generalizing s with
  | done result =>
    cases result with
    | ok a => exact hf a s hx rfl
    | error e => exact hx
  | step op next ih => exact ⟨hx.1, ih s hx.2 hf⟩

/-- It holds throughout a guarded block when it does throughout the body and the handler. -/
theorem Throughout.tryExcept {handler : ε → Program ε σ α} (hp : p.Throughout Q s)
    (hhandler : ∀ e s', Q s' → p.run s = (.error e, s') → (handler e).Throughout Q s') :
    (p.tryExcept handler).Throughout Q s := by
  induction p generalizing s with
  | done result =>
    cases result with
    | ok a => exact hp
    | error e => exact hhandler e s hp rfl
  | step op next ih => exact ⟨hp.1, ih s hp.2 hhandler⟩

/-- A `finally` block whose operations keep `Q`. -/
theorem Throughout.tryFinally {cleanup : List (σ → σ)} (hp : p.Throughout Q s)
    (hcleanup : ∀ f ∈ cleanup, ∀ s, Q s → Q (f s)) : (p.tryFinally cleanup).Throughout Q s := by
  induction p generalizing s with
  | done result =>
    show (finish cleanup result).Throughout Q s
    have hQ : Q s := hp
    clear hp
    induction cleanup generalizing s with
    | nil => exact hQ
    | cons f fs ih =>
      refine ⟨hQ, ih (fun g hg => hcleanup g (List.mem_cons_of_mem f hg)) ?_⟩
      exact hcleanup f List.mem_cons_self s hQ
  | step op next ih => exact ⟨hp.1, ih s hp.2⟩

end Program

/-! ## Runs that exclude each other

The moments of a system are the moments of its runs alone, because no other thread changes the state while
one is in its critical section.
-/

variable {held : σ → Bool} {lock : σ → σ} {skipped : ι → α} {body : ι → Program ε σ α} {Q : σ → Prop}

/-- At most one thread is in its critical section, and it goes on as a run alone would. -/
inductive InFlight (held : σ → Bool) (code : ι → Program ε σ α) (Q : σ → Prop)
    (s : State ε σ α) : Prop where
  | free (hfree : held s.shared = false) (hQ : Q s.shared)
      (houtside : ∀ t p, s.threads t = some p → Outside code p) : InFlight held code Q s
  | inside (t : ℕ) (p : Program ε σ α) (hheld : held s.shared = true) (ht : s.threads t = some p)
      (hcritical : p.Critical held) (hthrough : p.Throughout Q s.shared)
      (houtside : ∀ t' p', t' ≠ t → s.threads t' = some p' → Outside code p') :
      InFlight held code Q s

/-- Every step leaves at most one run in flight, at one of the moments it would have alone. -/
theorem InFlight.step (hlock : ∀ s, held (lock s) = true) (hcritical : ∀ i, (body i).Critical held)
    (hbody : ∀ i s, Q s → held s = false → (body i).Throughout Q (lock s))
    {s s' : State ε σ α} {a : Action ι}
    (h : InFlight held (fun i => Program.tryLock held lock (skipped i) (body i)) Q s)
    (hstep : Interleave.step (fun i => Program.tryLock held lock (skipped i) (body i)) s a = some s') :
    InFlight held (fun i => Program.tryLock held lock (skipped i) (body i)) Q s' := by
  cases Step.of_step hstep with
  | @call t i ht =>
    cases h with
    | free hfree hQ houtside =>
      exact .free hfree hQ fun t' p hp =>
        Outside.update (.inr ⟨i, rfl⟩) (fun _ => houtside t' p) hp
    | inside t₀ p hheld ht₀ hcrit hthrough houtside =>
      have hne : t₀ ≠ t := by
        rintro rfl
        rw [ht] at ht₀
        cases ht₀
      refine .inside t₀ p hheld ((Function.update_of_ne hne _ _).trans ht₀) hcrit hthrough
        fun t' p' ht' hp' => ?_
      exact Outside.update (.inr ⟨i, rfl⟩) (fun _ => houtside t' p' ht') hp'
  | @step t op next ht hready =>
    have hself : Function.update s.threads t (some (next s.shared)) t = some (next s.shared) :=
      Function.update_self t _ s.threads
    cases h with
    | free hfree hQ houtside =>
      obtain ⟨result, hdone⟩ | ⟨i, hi⟩ := houtside t _ ht
      · cases hdone
      · -- the thread takes the lock
        obtain ⟨hchange, hnext⟩ := of_tryLock hi.symm s.shared
        rw [hfree, if_neg Bool.false_ne_true] at hchange hnext
        refine .inside t (body i) ?_ (hnext ▸ hself) (hcritical i) ?_ fun t' p' hne hp' => ?_
        · exact hchange ▸ hlock s.shared
        · exact hchange ▸ hbody i s.shared hQ hfree
        · exact houtside t' p' ((Function.update_of_ne hne _ _).symm.trans hp')
    | inside t₀ p hheld ht₀ hcrit hthrough houtside =>
      by_cases heq : t = t₀
      · subst heq
        obtain rfl : p = .step op next := Option.some.inj (ht₀.symm.trans ht)
        cases hcrit with
        | last hop hnext =>
          -- the run is over
          obtain ⟨result, hdone⟩ := hnext s.shared
          refine .free (hop s.shared) hthrough.2.now fun t' p' hp' => ?_
          exact Outside.update (.inl ⟨result, hdone⟩) (houtside t' p') (hdone ▸ hp')
        | step hop hnext =>
          refine .inside t (next s.shared) (hop s.shared hheld) hself (hnext s.shared) hthrough.2
            fun t' p' hne hp' => ?_
          exact houtside t' p' hne ((Function.update_of_ne hne _ _).symm.trans hp')
      · -- another thread finds the lock held, and returns
        obtain ⟨result, hdone⟩ | ⟨i, hi⟩ := houtside t _ heq ht
        · cases hdone
        · obtain ⟨hchange, hnext⟩ := of_tryLock hi.symm s.shared
          rw [if_pos hheld] at hchange hnext
          rw [hchange]
          refine .inside t₀ p hheld ((Function.update_of_ne (Ne.symm heq) _ _).trans ht₀) hcrit hthrough
            fun t' p' hne hp' => ?_
          exact Outside.update (.inl ⟨_, hnext⟩) (fun _ => houtside t' p' hne) hp'

/-- Every reachable state is in `Q`: at every moment either no run is in flight, or the one that is has
changed the state as it would alone. -/
theorem throughout_of_run (hlock : ∀ s, held (lock s) = true) (hcritical : ∀ i, (body i).Critical held)
    (hbody : ∀ i s, Q s → held s = false → (body i).Throughout Q (lock s))
    {s₀ : σ} (hQ : Q s₀) (hfree : held s₀ = false) {as : List (Action ι)} {s : State ε σ α}
    (hrun : Runs.run (step fun i => Program.tryLock held lock (skipped i) (body i))
      (.init s₀) as = some s) : Q s.shared := by
  have hinit : InFlight held (fun i => Program.tryLock held lock (skipped i) (body i)) Q
      (State.init s₀ : State ε σ α) := .free hfree hQ fun t p ht => by cases ht
  have hreached := Runs.run_preserves
    (P := InFlight held (fun i => Program.tryLock held lock (skipped i) (body i)) Q)
    (fun s a s' h hstep => h.step hlock hcritical hbody hstep) hinit hrun
  cases hreached with
  | free _ hQ _ => exact hQ
  | inside t p _ _ _ hthrough _ => exact hthrough.now

end Interleave
