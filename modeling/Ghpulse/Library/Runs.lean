import Mathlib.Data.Option.Basic
import Mathlib.Data.List.Basic

/-!
# Runs of a partial step function

A system is a step function `σ → α → Option σ`: the action `a` is enabled in `s` when `step s a` is
defined. `run` executes a list of actions, so a fact about every list of actions is a fact about
every interleaving of the parties that issue them. `Guarded` records that every step of a run met a
condition on the state it was taken in. The invariant rules below are the only inductions over runs
that a client needs.
-/

namespace Runs

variable {σ α : Type*} {step : σ → α → Option σ}

/-- Execute a list of actions; undefined as soon as one of them is not enabled. -/
def run (step : σ → α → Option σ) (s : σ) : List α → Option σ
  | [] => some s
  | a :: as => (step s a).bind fun s' => run step s' as

/-- Every step of the run is taken in a state where `ok` holds of it. -/
def Guarded (step : σ → α → Option σ) (ok : σ → α → Prop) (s : σ) : List α → Prop
  | [] => True
  | a :: as => ok s a ∧ ∀ s', step s a = some s' → Guarded step ok s' as

@[simp] theorem run_nil (s : σ) : run step s [] = some s := rfl

theorem run_cons {s : σ} {a : α} {as : List α} {s' : σ} :
    run step s (a :: as) = some s' ↔ ∃ m, step s a = some m ∧ run step m as = some s' := by
  simp [run, Option.bind_eq_some_iff]

/-- A run that starts where every action leads back stays there. -/
theorem run_of_fixed {s : σ} (h : ∀ a, step s a = some s) (as : List α) : run step s as = some s := by
  induction as with
  | nil => rfl
  | cons a as ih => exact run_cons.mpr ⟨s, h a, ih⟩

/-- A run over an appended list is a run over the first list followed by one over the second. -/
theorem run_append {s : σ} {as bs : List α} {s' : σ} :
    run step s (as ++ bs) = some s' ↔ ∃ m, run step s as = some m ∧ run step m bs = some s' := by
  induction as generalizing s with
  | nil => simp
  | cons a as ih =>
    simp only [List.cons_append, run_cons, ih]
    constructor
    · rintro ⟨m, hm, n, hn, hs⟩
      exact ⟨n, ⟨m, hm, hn⟩, hs⟩
    · rintro ⟨n, ⟨m, hm, hn⟩, hs⟩
      exact ⟨m, hm, n, hn, hs⟩

/-- The run rule with a guard: what every guarded step preserves, every guarded run preserves. -/
theorem run_preserves_of_guarded {ok : σ → α → Prop} {P : σ → Prop}
    (hstep : ∀ s a s', P s → ok s a → step s a = some s' → P s')
    {s s' : σ} {as : List α} (hs : P s) (hok : Guarded step ok s as)
    (hrun : run step s as = some s') : P s' := by
  induction as generalizing s with
  | nil =>
    obtain rfl : s = s' := by simpa using hrun
    exact hs
  | cons a as ih =>
    obtain ⟨m, hm, hrest⟩ := run_cons.mp hrun
    exact ih (hstep s a m hs hok.1 hm) (hok.2 m hm) hrest

/-- A condition that always holds guards every run. -/
theorem guarded_of_forall {ok : σ → α → Prop} (h : ∀ s a, ok s a) (s : σ) (as : List α) :
    Guarded step ok s as := by
  induction as generalizing s with
  | nil => trivial
  | cons a as ih => exact ⟨h s a, fun s' _ => ih s'⟩

/-- The run rule: what every step preserves, every run preserves. -/
theorem run_preserves {P : σ → Prop} (hstep : ∀ s a s', P s → step s a = some s' → P s')
    {s s' : σ} {as : List α} (hs : P s) (hrun : run step s as = some s') : P s' :=
  run_preserves_of_guarded (fun s a s' hP (_ : True) => hstep s a s' hP) hs
    (guarded_of_forall (fun _ _ => trivial) s as) hrun

/-- What one action establishes and every step preserves holds after a run with that action. -/
theorem run_of_mem {P : σ → Prop} {s s' : σ} {a : α} {as : List α}
    (hrun : run step s as = some s') (h : a ∈ as) (ha : ∀ s s', step s a = some s' → P s')
    (hstep : ∀ s a s', P s → step s a = some s' → P s') : P s' := by
  obtain ⟨before, after, rfl⟩ := List.append_of_mem h
  obtain ⟨m, -, hrun⟩ := run_append.mp hrun
  obtain ⟨m', hm, hrun⟩ := run_cons.mp hrun
  exact run_preserves hstep (ha m m' hm) hrun

/-- A run takes a step from `m` to `m'`. -/
def Takes (step : σ → α → Option σ) (s : σ) (as : List α) (m : σ) (a : α) (m' : σ) : Prop :=
  ∃ before after, as = before ++ a :: after ∧ run step s before = some m ∧ step m a = some m'

/-- The run goes on after a step that it takes. -/
theorem Takes.rest {s s' m m' : σ} {as : List α} {a : α} (h : Takes step s as m a m')
    (hrun : run step s as = some s') : ∃ after, run step m' after = some s' := by
  obtain ⟨before, after, rfl, hbefore, hstep⟩ := h
  obtain ⟨n, hn, hrun⟩ := run_append.mp hrun
  obtain rfl : m = n := Option.some.inj (hbefore.symm.trans hn)
  obtain ⟨n', hn', hrun⟩ := run_cons.mp hrun
  obtain rfl : m' = n' := Option.some.inj (hstep.symm.trans hn')
  exact ⟨after, hrun⟩

/-- What does not hold at first and holds after a run came to hold at one of its steps. -/
theorem exists_takes {P : σ → Prop} {s s' : σ} {as : List α} (hrun : run step s as = some s')
    (hs : ¬P s) (hs' : P s') : ∃ m a m', Takes step s as m a m' ∧ ¬P m ∧ P m' := by
  induction as generalizing s with
  | nil =>
    obtain rfl : s = s' := by simpa using hrun
    exact absurd hs' hs
  | cons a as ih =>
    obtain ⟨m, hm, hrest⟩ := run_cons.mp hrun
    by_cases hP : P m
    · exact ⟨s, a, m, ⟨[], as, rfl, rfl, hm⟩, hs, hP⟩
    · obtain ⟨n, b, n', ⟨before, after, rfl, hbefore, hstep⟩, hn⟩ := ih hrest hP
      exact ⟨n, b, n', ⟨a :: before, after, rfl, run_cons.mpr ⟨m, hm, hbefore⟩, hstep⟩, hn⟩

/-- The sum of a measure over the steps of a run. -/
def total (step : σ → α → Option σ) (f : σ → α → ℕ) (s : σ) : List α → ℕ
  | [] => 0
  | a :: as => f s a + (step s a).elim 0 fun s' => total step f s' as

/-- The run rule for a relation between the state and what was counted so far. -/
theorem total_preserves_of_guarded {ok : σ → α → Prop} {f : σ → α → ℕ} {P : σ → ℕ → Prop}
    (hstep : ∀ s a s' n, P s n → ok s a → step s a = some s' → P s' (n + f s a))
    {s s' : σ} {as : List α} {n : ℕ} (hs : P s n) (hok : Guarded step ok s as)
    (hrun : run step s as = some s') : P s' (n + total step f s as) := by
  induction as generalizing s n with
  | nil =>
    obtain rfl : s = s' := by simpa using hrun
    exact hs
  | cons a as ih =>
    obtain ⟨m, hm, hrest⟩ := run_cons.mp hrun
    have htail := ih (hstep s a m n hs hok.1 hm) (hok.2 m hm) hrest
    rwa [total, hm, Option.elim_some, ← Nat.add_assoc]

/-- What the steps of a run record, in order. -/
def record {β : Type*} (step : σ → α → Option σ) (f : σ → α → List β) (s : σ) : List α → List β
  | [] => []
  | a :: as => f s a ++ (step s a).elim [] fun s' => record step f s' as

/-- The run rule with a guard for a relation between the state and two records so far. -/
theorem record_preserves_of_guarded {β γ : Type*} {ok : σ → α → Prop} {f : σ → α → List β}
    {g : σ → α → List γ} {P : σ → List β → List γ → Prop}
    (hstep : ∀ s a s' l k, P s l k → ok s a → step s a = some s' → P s' (l ++ f s a) (k ++ g s a))
    {s s' : σ} {as : List α} {l : List β} {k : List γ} (hs : P s l k) (hok : Guarded step ok s as)
    (hrun : run step s as = some s') : P s' (l ++ record step f s as) (k ++ record step g s as) := by
  induction as generalizing s l k with
  | nil =>
    obtain rfl : s = s' := by simpa using hrun
    rwa [record, record, List.append_nil, List.append_nil]
  | cons a as ih =>
    obtain ⟨m, hm, hrest⟩ := run_cons.mp hrun
    have htail := ih (hstep s a m l k hs hok.1 hm) (hok.2 m hm) hrest
    rwa [record, record, hm, Option.elim_some, Option.elim_some, ← List.append_assoc,
      ← List.append_assoc]

/-- The run rule for a relation between the state and two records so far. -/
theorem record_preserves {β γ : Type*} {f : σ → α → List β} {g : σ → α → List γ}
    {P : σ → List β → List γ → Prop}
    (hstep : ∀ s a s' l k, P s l k → step s a = some s' → P s' (l ++ f s a) (k ++ g s a))
    {s s' : σ} {as : List α} {l : List β} {k : List γ} (hs : P s l k)
    (hrun : run step s as = some s') : P s' (l ++ record step f s as) (k ++ record step g s as) :=
  record_preserves_of_guarded (fun s a s' l k hP (_ : True) => hstep s a s' l k hP) hs
    (guarded_of_forall (fun _ _ => trivial) s as) hrun

/-! ## Two systems

For two systems that take their steps together, with a relation between the states and one between the
actions.
-/

/-- The run rule for two systems: what related actions preserve when they meet their guards, related runs
preserve, and one system runs as far as the other. -/
theorem run_related {τ β : Type*} {step' : τ → β → Option τ} {ok : σ → α → Prop} {ok' : τ → β → Prop}
    {R : σ → τ → Prop} {A : α → β → Prop}
    (hstep : ∀ s t a b s', R s t → A a b → ok s a → ok' t b → step s a = some s' →
      ∃ t', step' t b = some t' ∧ R s' t')
    {s s' : σ} {t : τ} {as : List α} {bs : List β} (hR : R s t) (hA : List.Forall₂ A as bs)
    (hok : Guarded step ok s as) (hok' : Guarded step' ok' t bs) (hrun : run step s as = some s') :
    ∃ t', run step' t bs = some t' ∧ R s' t' := by
  induction hA generalizing s t with
  | nil =>
    obtain rfl : s = s' := by simpa using hrun
    exact ⟨t, rfl, hR⟩
  | cons hab hrest ih =>
    obtain ⟨m, hm, hrun⟩ := run_cons.mp hrun
    obtain ⟨n, hn, hR'⟩ := hstep s t _ _ m hR hab hok.1 hok'.1 hm
    obtain ⟨t', ht', hR''⟩ := ih hR' (hok.2 m hm) (hok'.2 n hn) hrun
    exact ⟨t', run_cons.mpr ⟨n, hn, ht'⟩, hR''⟩

/-! ## Logs

A condition on each entry of a log, given those before it.
-/

/-- Every entry of a log is allowed after those before it. -/
def Lawful {β : Type*} (allowed : List β → β → Prop) (log : List β) : Prop :=
  ∀ before o after, log = before ++ o :: after → allowed before o

theorem lawful_nil {β : Type*} {allowed : List β → β → Prop} : Lawful allowed [] := by
  intro before o after h
  cases before <;> cases h

/-- An entry can be appended exactly when it is allowed. -/
theorem lawful_concat {β : Type*} {allowed : List β → β → Prop} {log : List β} {o : β} :
    Lawful allowed (log ++ [o]) ↔ Lawful allowed log ∧ allowed log o := by
  constructor
  · intro h
    refine ⟨fun before o' after heq => h before o' (after ++ [o]) ?_, h log o [] rfl⟩
    rw [heq, List.append_assoc]
    rfl
  · rintro ⟨h, ho⟩ before o' after heq
    rcases List.eq_nil_or_concat after with rfl | ⟨rest, last, rfl⟩
    · obtain ⟨rfl, hlast⟩ := List.append_inj' heq rfl
      cases hlast
      exact ho
    · rw [List.concat_eq_append, ← List.cons_append, ← List.append_assoc] at heq
      obtain ⟨hlog, -⟩ := List.append_inj' heq rfl
      exact h before o' rest hlog

/-! ## Traces of a relation

For systems that are given by a relation and not by a function.
-/

/-- The labels of steps that lead from one state to another, in order. -/
inductive Trace {β : Type*} (R : σ → β → σ → Prop) (s : σ) : List β → σ → Prop where
  | nil : Trace R s [] s
  | concat {labels : List β} {m s' : σ} {b : β} (h : Trace R s labels m) (hstep : R m b s') :
      Trace R s (labels ++ [b]) s'

end Runs
