import Ghpulse.Library.Interleaving

/-!
# Two runs

A relation between two interleaved programs that are to look alike: they wait at the same time, every
operation preserves a relation between the two states, and they end with related values, or both with an
exception. Which exceptions these are is not compared, so a relation that hides a part of the state
states that this part does not influence what is seen. The rules follow the combinators of programs;
`run_of_related` carries the relation through every interleaving.
-/

open Effect

namespace Interleave

variable {ε σ α β γ δ ι : Type}

/-! ## Related programs

The relation is by the shape of the programs, operation by operation, under the assumption that the states
are related and that no operation fails silently. One rule for each construct.
-/

/-- Two results that are related values, or both exceptions. -/
inductive Agrees (Q : α → β → Prop) : Except ε α → Except ε β → Prop where
  | ok {a : α} {b : β} (h : Q a b) : Agrees Q (.ok a) (.ok b)
  | error (e e' : ε) : Agrees Q (.error e) (.error e')

/-- A result agrees with itself. -/
theorem Agrees.refl (x : Except ε α) : Agrees Eq x x := by
  cases x with
  | ok a => exact .ok rfl
  | error e => exact .error e e

/-- Sequences agree when both parts do. -/
theorem Agrees.bind {Q : α → β → Prop} {Q' : γ → δ → Prop} {x : Except ε α} {y : Except ε β}
    {f : α → Except ε γ} {g : β → Except ε δ} (hx : Agrees Q x y)
    (hf : ∀ a b, Q a b → Agrees Q' (f a) (g b)) : Agrees Q' (x >>= f) (y >>= g) := by
  cases hx with
  | ok h => exact hf _ _ h
  | error e e' => exact .error e e'

/-- Programs that look alike, whatever related states their operations meet, as long as no operation
fails silently. -/
inductive Related (R : σ → σ → Prop) (Q : α → β → Prop) : Program ε σ α → Program ε σ β → Prop where
  | done {x : Except ε α} {y : Except ε β} (h : Agrees Q x y) : Related R Q (.done x) (.done y)
  | step {op op' : Op σ} {next : σ → Program ε σ α} {next' : σ → Program ε σ β}
      (hready : ∀ s t, R s t → op.ready s = op'.ready t)
      (hchange : ∀ s t, R s t → op.succeeds s = true → op'.succeeds t = true →
        R (op.change s) (op'.change t))
      (hnext : ∀ s t, R s t → op.succeeds s = true → op'.succeeds t = true →
        Related R Q (next s) (next' t)) : Related R Q (.step op next) (.step op' next')

variable {R : σ → σ → Prop} {Q : α → β → Prop}

namespace Related

/-- Pure computations that agree are related. -/
theorem ofExcept {x : Except ε α} {y : Except ε β} (h : Agrees Q x y) :
    Related R Q (.ofExcept x) (.ofExcept y) := .done h

/-- Values that are related may be returned. -/
theorem pure {a : α} {b : β} (h : Q a b) :
    Related R Q (Pure.pure a : Program ε σ α) (Pure.pure b) := .done (.ok h)

/-- Raises are related, whatever they raise. -/
theorem raise (e e' : ε) : Related R Q (Program.raise e : Program ε σ α) (.raise e') :=
  .done (.error e e')

/-- Modifications are related when they keep the states related. -/
theorem modify {f g : σ → σ} (h : ∀ s t, R s t → R (f s) (g t)) :
    Related R Eq (Program.modify f : Program ε σ Unit) (.modify g) :=
  .step (fun _ _ _ => rfl) (fun s t hR _ _ => h s t hR) fun _ _ _ _ _ => .done (.ok rfl)

/-- Reads are related when they read related values. -/
theorem read {f : σ → α} {g : σ → β} (h : ∀ s t, R s t → Q (f s) (g t)) :
    Related R Q (Program.read f : Program ε σ α) (.read g) :=
  .step (fun _ _ _ => rfl) (fun _ _ hR _ _ => hR) fun s t hR _ _ => .done (.ok (h s t hR))

/-- Atomic blocks are related when their runs are. -/
theorem atomic {x : Prog ε σ α} {y : Prog ε σ β}
    (h : ∀ s t, R s t → Agrees Q (x s).1 (y t).1 ∧ R (x s).2 (y t).2) :
    Related R Q (.atomic x) (.atomic y) :=
  .step (fun _ _ _ => rfl) (fun s t hR _ _ => (h s t hR).2) fun s t hR _ _ => .done (h s t hR).1

/-- Attempts are related when their changes keep the states related. -/
theorem attempt {succeeds succeeds' : σ → Bool} {f g : σ → σ}
    (h : ∀ s t, R s t → succeeds s = true → succeeds' t = true → R (f s) (g t)) :
    Related R Eq (Program.attempt succeeds f : Program ε σ Unit) (.attempt succeeds' g) :=
  .step (fun _ _ _ => rfl) h fun _ _ _ _ _ => .done (.ok rfl)

/-- Waits are related when both are ready at the same time. -/
theorem await {ready ready' : σ → Bool} {f g : σ → σ} (hready : ∀ s t, R s t → ready s = ready' t)
    (h : ∀ s t, R s t → R (f s) (g t)) :
    Related R Eq (Program.await ready f : Program ε σ Unit) (.await ready' g) :=
  .step hready (fun s t hR _ _ => h s t hR) fun _ _ _ _ _ => .done (.ok rfl)

/-- Sequences of related parts are related. -/
theorem bind {Q' : γ → δ → Prop} {x : Program ε σ α} {y : Program ε σ β} {f : α → Program ε σ γ}
    {g : β → Program ε σ δ} (hx : Related R Q x y) (hf : ∀ a b, Q a b → Related R Q' (f a) (g b)) :
    Related R Q' (x >>= f) (y >>= g) := by
  show Related R Q' (x.bind f) (y.bind g)
  induction hx with
  | done h =>
    cases h with
    | ok h => exact hf _ _ h
    | error e e' => exact .done (.error e e')
  | step hready hchange hnext ih => exact .step hready hchange ih

/-- After equal values the programs go on alike. -/
theorem bind_eq {Q' : γ → δ → Prop} {x y : Program ε σ α} {f : α → Program ε σ γ}
    {g : α → Program ε σ δ} (hx : Related R Eq x y) (hf : ∀ a, Related R Q' (f a) (g a)) :
    Related R Q' (x >>= f) (y >>= g) := by
  apply hx.bind
  rintro a _ rfl
  exact hf a

/-- Guarded blocks with related bodies and handlers are related. -/
theorem tryExcept {x : Program ε σ α} {y : Program ε σ β} {handler : ε → Program ε σ α}
    {handler' : ε → Program ε σ β} (hx : Related R Q x y)
    (hhandler : ∀ e e', Related R Q (handler e) (handler' e')) :
    Related R Q (x.tryExcept handler) (y.tryExcept handler') := by
  induction hx with
  | done h =>
    cases h with
    | ok h => exact .done (.ok h)
    | error e e' => exact hhandler e e'
  | step hready hchange hnext ih => exact .step hready hchange ih

/-- Cleanups that keep the states related may follow results that agree. -/
theorem finish {cleanup : List (σ → σ)} (hcleanup : ∀ f ∈ cleanup, ∀ s t, R s t → R (f s) (f t))
    {x : Except ε α} {y : Except ε β} (h : Agrees Q x y) :
    Related R Q (.finish cleanup x) (.finish cleanup y) := by
  induction cleanup with
  | nil => exact .done h
  | cons f fs ih =>
    have hfs := ih fun g hg => hcleanup g (List.mem_cons_of_mem f hg)
    exact .step (fun _ _ _ => rfl) (fun s t hR _ _ => hcleanup f List.mem_cons_self s t hR)
      fun _ _ _ _ _ => hfs

/-- Blocks with such a cleanup are related when their bodies are. -/
theorem tryFinally {cleanup : List (σ → σ)} (hcleanup : ∀ f ∈ cleanup, ∀ s t, R s t → R (f s) (f t))
    {x : Program ε σ α} {y : Program ε σ β} (hx : Related R Q x y) :
    Related R Q (x.tryFinally cleanup) (y.tryFinally cleanup) := by
  induction hx with
  | done h => exact finish hcleanup h
  | step hready hchange hnext ih => exact .step hready hchange ih

/-- Calls under a lock are related when they see the same lock and their bodies are related. -/
theorem tryLock {held : σ → Bool} {lock : σ → σ} (hheld : ∀ s t, R s t → held s = held t)
    (hlock : ∀ s t, R s t → R (lock s) (lock t)) {a : α} {b : β} (hskipped : Q a b)
    {x : Program ε σ α} {y : Program ε σ β} (hbody : Related R Q x y) :
    Related R Q (.tryLock held lock a x) (.tryLock held lock b y) := by
  refine .step (fun _ _ _ => rfl) (fun s t hR _ _ => ?_) fun s t hR _ _ => ?_
  · show R (if held s then s else lock s) (if held t then t else lock t)
    rw [hheld s t hR]
    split_ifs
    · exact hR
    · exact hlock s t hR
  · rw [hheld s t hR]
    split_ifs
    · exact .done (.ok hskipped)
    · exact hbody

/-- A relation on a part of the state is enough for a program over that part. -/
theorem zoom {τ : Type} {get : τ → σ} {set : σ → τ → τ} {S : τ → τ → Prop}
    (hget : ∀ s t, S s t → R (get s) (get t))
    (hset : ∀ s t, S s t → ∀ u v, R u v → S (set u s) (set v t)) {x : Program ε σ α}
    {y : Program ε σ β} (hx : Related R Q x y) : Related S Q (x.zoom get set) (y.zoom get set) := by
  induction hx with
  | done h => exact .done h
  | step hready hchange hnext ih =>
    refine .step (fun s t hS => hready _ _ (hget s t hS)) (fun s t hS hs ht => ?_)
      fun s t hS hs ht => ih _ _ (hget s t hS) hs ht
    exact hset s t hS _ _ (hchange _ _ (hget s t hS) hs ht)

end Related

/-! ## Related systems

Two systems with related threads and related states. An action of one is matched by the same action of the
other.
-/

/-- The threads of two systems are at related points of their programs. -/
structure State.Related (R : σ → σ → Prop) (Q : α → β → Prop) (s : State ε σ α) (t : State ε σ β) :
    Prop where
  shared : R s.shared t.shared
  threads : ∀ n, Option.Rel (Interleave.Related R Q) (s.threads n) (t.threads n)

/-- The same thread is called, with related arguments, or goes on. -/
inductive Action.Related {κ : Type} (C : ι → κ → Prop) : Action ι → Action κ → Prop where
  | call (t : ℕ) {i : ι} {j : κ} (h : C i j) : Action.Related C (.call t i) (.call t j)
  | step (t : ℕ) : Action.Related C (.step t) (.step t)

/-- Two systems that have not started are related when their states are. -/
theorem State.Related.init {s t : σ} (h : R s t) :
    State.Related R Q (State.init s : State ε σ α) (State.init t : State ε σ β) :=
  ⟨h, fun _ => .none⟩

variable {κ : Type} {C : ι → κ → Prop} {code : ι → Program ε σ α} {code' : κ → Program ε σ β}

/-- Setting the program of one thread in both systems. -/
theorem rel_update {f : ℕ → Option (Program ε σ α)} {g : ℕ → Option (Program ε σ β)}
    (h : ∀ n, Option.Rel (Related R Q) (f n) (g n)) (t : ℕ) {p : Program ε σ α} {q : Program ε σ β}
    (hpq : Related R Q p q) (n : ℕ) :
    Option.Rel (Related R Q) (Function.update f t (some p) n) (Function.update g t (some q) n) := by
  by_cases hn : n = t
  · subst hn
    rw [Function.update_self, Function.update_self]
    exact .some hpq
  · rw [Function.update_of_ne hn, Function.update_of_ne hn]
    exact h n

/-- Related systems do related steps. -/
theorem step_of_related (hcode : ∀ i j, C i j → Related R Q (code i) (code' j))
    {s s' : State ε σ α} {t : State ε σ β} {a : Action ι} {b : Action κ}
    (h : State.Related R Q s t) (hab : Action.Related C a b) (hs : Succeeds s a) (ht : Succeeds t b)
    (hstep : step code s a = some s') : ∃ t', step code' t b = some t' ∧ State.Related R Q s' t' := by
  cases hab with
  | call n hij =>
    cases Step.of_step hstep with
    | call hn =>
      have hrel := h.threads n
      rw [hn] at hrel
      have hnone : t.threads n = none := by
        cases ht' : t.threads n with
        | none => rfl
        | some q =>
          rw [ht'] at hrel
          cases hrel
      exact ⟨_, (Step.call hnone).step_eq, h.shared, rel_update h.threads n (hcode _ _ hij)⟩
  | step n =>
    cases Step.of_step hstep with
    | @step _ op next hn hready =>
      have hrel := h.threads n
      rw [hn] at hrel
      cases ht' : t.threads n with
      | none =>
        rw [ht'] at hrel
        cases hrel
      | some q =>
        rw [ht'] at hrel
        cases hrel with
        | some hpq =>
          cases hpq with
          | @step _ op' _ next' hready' hchange hnext =>
            have hs := hs op next hn
            have ht := ht op' next' ht'
            have hready : op'.ready t.shared = true := hready' _ _ h.shared ▸ hready
            exact ⟨_, (Step.step ht' hready).step_eq, hchange _ _ h.shared hs ht,
              rel_update h.threads n (hnext _ _ h.shared hs ht)⟩

/-- Related histories lead to related states, in every interleaving in which no operation fails
silently. -/
theorem run_of_related (hcode : ∀ i j, C i j → Related R Q (code i) (code' j)) {s s' : State ε σ α}
    {t : State ε σ β} {as : List (Action ι)} {bs : List (Action κ)} (h : State.Related R Q s t)
    (hab : List.Forall₂ (Action.Related C) as bs) (hs : Runs.Guarded (step code) Succeeds s as)
    (ht : Runs.Guarded (step code') Succeeds t bs) (hrun : Runs.run (step code) s as = some s') :
    ∃ t', Runs.run (step code') t bs = some t' ∧ State.Related R Q s' t' := by
  have hstep : ∀ (s : State ε σ α) (t : State ε σ β) (a : Action ι) (b : Action κ) (s' : State ε σ α),
      State.Related R Q s t → Action.Related C a b → Succeeds s a → Succeeds t b →
      step code s a = some s' → ∃ t', step code' t b = some t' ∧ State.Related R Q s' t' :=
    fun _ _ _ _ _ h hab hs ht hstep => step_of_related hcode h hab hs ht hstep
  exact Runs.run_related hstep h hab hs ht hrun

/-- Two threads that have both returned values have returned related ones. -/
theorem State.Related.result {s : State ε σ α} {t : State ε σ β} (h : State.Related R Q s t) {n : ℕ}
    {a : α} (hn : s.threads n = some (.done (.ok a))) :
    ∃ b, t.threads n = some (.done (.ok b)) ∧ Q a b := by
  have hrel := h.threads n
  rw [hn] at hrel
  cases ht : t.threads n with
  | none =>
    rw [ht] at hrel
    cases hrel
  | some q =>
    rw [ht] at hrel
    cases hrel with
    | some hpq =>
      cases hpq with
      | done hagrees =>
        cases hagrees with
        | ok hab => exact ⟨_, rfl, hab⟩

/-- The same, seen from the other system. -/
theorem State.Related.result' {s : State ε σ α} {t : State ε σ β} (h : State.Related R Q s t) {n : ℕ}
    {b : β} (hn : t.threads n = some (.done (.ok b))) :
    ∃ a, s.threads n = some (.done (.ok a)) ∧ Q a b := by
  have hrel := h.threads n
  rw [hn] at hrel
  cases hs : s.threads n with
  | none =>
    rw [hs] at hrel
    cases hrel
  | some p =>
    rw [hs] at hrel
    cases hrel with
    | some hpq =>
      cases hpq with
      | done hagrees =>
        cases hagrees with
        | ok hab => exact ⟨_, rfl, hab⟩

end Interleave
