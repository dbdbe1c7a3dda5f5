import Ghpulse.Cache.TTLCache
import Ghpulse.Library.Runs

/-!
# The threads that share the response cache

`step` is partial: an action of a thread that is not at that point of its program does not happen, and a
thread that waits for a key lock is one whose `lock` is not possible yet.

Reference: `backend/cache.py` (`cache_response.wrapper`, `_schedule_refresh`, `submit_refresh`,
`_lock_for`) and `backend/ingest.py` (`_post_commit`).

Request threads run `wrapper`, pool threads run the `_run` closure of `_schedule_refresh`, ingest runs
commit a database state and then call `response_cache.invalidate()`. A thread's program counter is a
constructor of `Thread`; one `Action` is one critical section (`_guard` or `_registry_guard`), one
lock operation, or one event of an endpoint call: its start, its database read, its failure. The
scheduler is the list of actions, so a statement about every run is about every interleaving.

The value an endpoint returns is represented by what the properties of the cache are about: the call
that computed it and the ingest commits that its database read observed.
-/

namespace Ghpulse.Cache

/-- A value returned by an endpoint: the call it was computed by, and the ingest runs whose commits
the call's database read observed. -/
structure Body (Call : Type) where
  call : Call
  observed : List ℕ

/-- The program counter of one thread. -/
inductive Thread (Call : Type)
  | idle
  /-- `fresh` is truthy: `return fn(**kwargs)` is running. -/
  | bypass (call : Call)
  /-- The bypassing call has read the database. -/
  | bypassRead (call : Call) (body : Body Call)
  /-- About to make the first `get_entry`. -/
  | lookup (call : Call)
  /-- A stale hit enters `_schedule_refresh`; `value` is returned afterwards. -/
  | schedule (call : Call) (value : Body Call)
  /-- The key was added to `_refreshing`; `response_cache.generation()` is next. -/
  | token (call : Call) (value : Body Call)
  /-- `refresh_generation` is read; `submit_refresh(_run)` is next. -/
  | submit (call : Call) (value : Body Call) (generation : ℕ)
  /-- `submit_refresh` answered false; the key is still in `_refreshing`. -/
  | refused (call : Call) (value : Body Call)
  /-- A miss waits for `_lock_for(key)`. -/
  | acquire (call : Call)
  /-- The key lock is held; about to make the second `get_entry`. -/
  | recheck (call : Call)
  /-- The key lock is held and `fn(**kwargs)` is running. -/
  | compute (call : Call)
  /-- The key lock is held and the call has read the database. -/
  | computed (call : Call) (body : Body Call)
  /-- About to leave the `with` block, with a value or with the endpoint's exception. -/
  | unlock (call : Call) (result : Option (Body Call))
  /-- An accepted refresh job that no worker has started. -/
  | queued (call : Call) (generation : ℕ)
  /-- The job is inside `fn(**kwargs)`. -/
  | refresh (call : Call) (generation : ℕ)
  /-- The job's call has read the database; `put_if_generation` is next. -/
  | refreshed (call : Call) (generation : ℕ) (body : Body Call)
  /-- The job is in its `finally` block. -/
  | discard (call : Call)
  /-- The thread returned a value, or raised. -/
  | done (call : Call) (result : Option (Body Call))

/-- The call that a thread serves. -/
def Thread.call? : Thread Call → Option Call
  | .idle => none
  | .bypass call | .bypassRead call _ | .lookup call | .schedule call _ | .token call _
  | .submit call _ _ | .refused call _ | .acquire call | .recheck call | .compute call
  | .computed call _ | .unlock call _ | .queued call _ | .refresh call _ | .refreshed call _ _
  | .discard call | .done call _ => some call

/-- One atomic action; the number is the acting thread. -/
inductive Action (Call : Type)
  | request (t : ℕ) (call : Call)
  | getEntry (t : ℕ)
  | register (t : ℕ)
  | readGeneration (t : ℕ)
  /-- `submit_refresh` queues the closure as thread `j` and answers true. -/
  | submit (t j : ℕ)
  /-- `submit_refresh` answers false: not accepting, or `submit` raised `RuntimeError`. -/
  | refuse (t : ℕ)
  | unregister (t : ℕ)
  | lock (t : ℕ)
  | recheck (t : ℕ)
  | start (t : ℕ)
  | readDatabase (t : ℕ)
  | raise (t : ℕ)
  | put (t : ℕ)
  | publish (t : ℕ)
  | unlock (t : ℕ)
  | finish (t : ℕ)
  | setClock (now : ℚ)
  /-- Ingest run `r` commits. -/
  | commit (r : ℕ)
  /-- Ingest run `r`, already committed, runs `response_cache.invalidate()`. -/
  | invalidate (r : ℕ)
  | clear
  | startWorkers
  | stopWorkers

/-- The state the threads share, with their program counters. `committed` is the database state, as
the list of ingest runs whose commits it contains; `invalidated` lists the runs whose
`invalidate` has completed. -/
structure State (Call κ : Type) where
  cache : TTLCache κ (Body Call)
  now : ℚ
  refreshing : κ → Bool
  keyLock : κ → Option ℕ
  accepting : Bool
  threads : ℕ → Thread Call
  committed : List ℕ
  invalidated : List ℕ

namespace State

variable {Call κ : Type}

/-- Move thread `t` to a new program counter. -/
def setThread (s : State Call κ) (t : ℕ) (th : Thread Call) : State Call κ :=
  { s with threads := Function.update s.threads t th }

@[simp] theorem threads_setThread_self (s : State Call κ) (t : ℕ) (th : Thread Call) :
    (s.setThread t th).threads t = th := by
  simp only [setThread, Function.update_self]

theorem threads_setThread_of_ne (s : State Call κ) {t t' : ℕ} (h : t' ≠ t) (th : Thread Call) :
    (s.setThread t th).threads t' = s.threads t' := by
  simp only [setThread, Function.update_of_ne h]

/-- Before the first request: an empty cache, no thread, and no ingest run. -/
def init (ttlSeconds now : ℚ) : State Call κ where
  cache := .new ttlSeconds
  now := now
  refreshing := fun _ => false
  keyLock := fun _ => none
  accepting := true
  threads := fun _ => .idle
  committed := []
  invalidated := []

end State

section Step

variable {Call κ : Type} [DecidableEq κ] (key : Call → κ) (fresh : Call → Bool)

/-- Where `wrapper` goes after its first `get_entry`. -/
def afterLookup (call : Call) : Option (Body Call × Bool) → Thread Call
  | none => .acquire call
  | some (value, true) => .schedule call value
  | some (value, false) => .done call (some value)

/-- Where `wrapper` goes after its second `get_entry`, under the key lock. -/
def afterRecheck (call : Call) : Option (Body Call × Bool) → Thread Call
  | none => .compute call
  | some (value, _) => .unlock call (some value)

/-- One atomic action; undefined when the thread is not at that point of its program. -/
def step (s : State Call κ) : Action Call → Option (State Call κ)
  | .request t call =>
    match s.threads t with
    | .idle => some (s.setThread t (if fresh call then .bypass call else .lookup call))
    | _ => none
  | .getEntry t =>
    match s.threads t with
    | .lookup call =>
      let r := s.cache.getEntry s.now (key call)
      some ({ s with cache := r.2 }.setThread t (afterLookup call r.1))
    | _ => none
  | .register t =>
    match s.threads t with
    | .schedule call value =>
      -- one refresh is in flight for the key already; the stale value is the answer
      if s.refreshing (key call) then some (s.setThread t (.done call (some value)))
      else some ({ s with refreshing := Function.update s.refreshing (key call) true }.setThread t
        (.token call value))
    | _ => none
  | .readGeneration t =>
    match s.threads t with
    | .token call value => some (s.setThread t (.submit call value s.cache.generation))
    | _ => none
  | .submit t j =>
    match s.threads t, s.threads j with
    | .submit call value generation, .idle =>
      -- the closure runs on a pool thread, with the generation that was read before it was submitted
      if s.accepting then
        some ((s.setThread t (.done call (some value))).setThread j (.queued call generation))
      else none
    | _, _ => none
  | .refuse t =>
    match s.threads t with
    | .submit call value _ => some (s.setThread t (.refused call value))
    | _ => none
  | .unregister t =>
    match s.threads t with
    | .refused call value =>
      some ({ s with refreshing := Function.update s.refreshing (key call) false }.setThread t
        (.done call (some value)))
    | .discard call =>
      some ({ s with refreshing := Function.update s.refreshing (key call) false }.setThread t
        (.done call none))
    | _ => none
  | .lock t =>
    match s.threads t with
    | .acquire call =>
      if s.keyLock (key call) = none then
        some ({ s with keyLock := Function.update s.keyLock (key call) (some t) }.setThread t
          (.recheck call))
      else none
    | _ => none
  | .recheck t =>
    match s.threads t with
    | .recheck call =>
      let r := s.cache.getEntry s.now (key call)
      some ({ s with cache := r.2 }.setThread t (afterRecheck call r.1))
    | _ => none
  | .start t =>
    match s.threads t with
    | .queued call generation => some (s.setThread t (.refresh call generation))
    | _ => none
  | .readDatabase t =>
    match s.threads t with
    | .bypass call => some (s.setThread t (.bypassRead call ⟨call, s.committed⟩))
    | .compute call => some (s.setThread t (.computed call ⟨call, s.committed⟩))
    | .refresh call generation =>
      some (s.setThread t (.refreshed call generation ⟨call, s.committed⟩))
    | _ => none
  | .raise t =>
    match s.threads t with
    | .bypass call => some (s.setThread t (.done call none))
    | .bypassRead call _ => some (s.setThread t (.done call none))
    -- the `with` block releases the key lock on the way out
    | .compute call => some (s.setThread t (.unlock call none))
    | .computed call _ => some (s.setThread t (.unlock call none))
    | .refresh call _ => some (s.setThread t (.discard call))
    | .refreshed call _ _ => some (s.setThread t (.discard call))
    | _ => none
  | .put t =>
    match s.threads t with
    | .computed call body =>
      some ({ s with cache := s.cache.put s.now (key call) body }.setThread t
        (.unlock call (some body)))
    | _ => none
  | .publish t =>
    match s.threads t with
    | .refreshed call generation body =>
      some ({ s with
          cache := (s.cache.putIfGeneration s.now (key call) body generation).1 }.setThread t
        (.discard call))
    | _ => none
  | .unlock t =>
    match s.threads t with
    | .unlock call result =>
      some ({ s with keyLock := Function.update s.keyLock (key call) none }.setThread t
        (.done call result))
    | _ => none
  | .finish t =>
    match s.threads t with
    | .bypassRead call body => some (s.setThread t (.done call (some body)))
    | _ => none
  | .setClock now => some { s with now := now }
  | .commit r =>
    if r ∈ s.committed then none else some { s with committed := r :: s.committed }
  | .invalidate r =>
    if r ∈ s.committed ∧ r ∉ s.invalidated then
      some { s with cache := s.cache.invalidate, invalidated := r :: s.invalidated }
    else none
  | .clear => some { s with cache := s.cache.clear }
  | .startWorkers => some { s with accepting := true }
  | .stopWorkers => some { s with accepting := false }

/-! ## What a step can do

One constructor for each way a step can go, with the place of the acting thread and the guard. Every
invariant of the cache is proved by cases on it, so `step` itself is taken apart only once.
-/

/-- What a step can do: the place of the acting thread, the guard and the state after it. -/
inductive Step (s : State Call κ) : Action Call → State Call κ → Prop
  | request {t call} (hth : s.threads t = .idle) :
    Step s (.request t call) (s.setThread t (if fresh call then .bypass call else .lookup call))
  | getEntry {t call} (hth : s.threads t = .lookup call) :
    Step s (.getEntry t)
      ({ s with cache := (s.cache.getEntry s.now (key call)).2 }.setThread t
        (afterLookup call (s.cache.getEntry s.now (key call)).1))
  | registered {t call value} (hth : s.threads t = .schedule call value)
      (hkey : s.refreshing (key call) = true) :
    Step s (.register t) (s.setThread t (.done call (some value)))
  | register {t call value} (hth : s.threads t = .schedule call value)
      (hkey : s.refreshing (key call) = false) :
    Step s (.register t)
      ({ s with refreshing := Function.update s.refreshing (key call) true }.setThread t
        (.token call value))
  | readGeneration {t call value} (hth : s.threads t = .token call value) :
    Step s (.readGeneration t) (s.setThread t (.submit call value s.cache.generation))
  | submit {t j call value generation} (hth : s.threads t = .submit call value generation)
      (hidle : s.threads j = .idle) (haccept : s.accepting = true) :
    Step s (.submit t j)
      ((s.setThread t (.done call (some value))).setThread j (.queued call generation))
  | refuse {t call value generation} (hth : s.threads t = .submit call value generation) :
    Step s (.refuse t) (s.setThread t (.refused call value))
  | unregisterRefused {t call value} (hth : s.threads t = .refused call value) :
    Step s (.unregister t)
      ({ s with refreshing := Function.update s.refreshing (key call) false }.setThread t
        (.done call (some value)))
  | unregister {t call} (hth : s.threads t = .discard call) :
    Step s (.unregister t)
      ({ s with refreshing := Function.update s.refreshing (key call) false }.setThread t
        (.done call none))
  | lock {t call} (hth : s.threads t = .acquire call) (hfree : s.keyLock (key call) = none) :
    Step s (.lock t)
      ({ s with keyLock := Function.update s.keyLock (key call) (some t) }.setThread t
        (.recheck call))
  | recheck {t call} (hth : s.threads t = .recheck call) :
    Step s (.recheck t)
      ({ s with cache := (s.cache.getEntry s.now (key call)).2 }.setThread t
        (afterRecheck call (s.cache.getEntry s.now (key call)).1))
  | start {t call generation} (hth : s.threads t = .queued call generation) :
    Step s (.start t) (s.setThread t (.refresh call generation))
  | readBypass {t call} (hth : s.threads t = .bypass call) :
    Step s (.readDatabase t) (s.setThread t (.bypassRead call ⟨call, s.committed⟩))
  | readCompute {t call} (hth : s.threads t = .compute call) :
    Step s (.readDatabase t) (s.setThread t (.computed call ⟨call, s.committed⟩))
  | readRefresh {t call generation} (hth : s.threads t = .refresh call generation) :
    Step s (.readDatabase t) (s.setThread t (.refreshed call generation ⟨call, s.committed⟩))
  | raiseBypass {t call} (hth : s.threads t = .bypass call ∨ ∃ b, s.threads t = .bypassRead call b) :
    Step s (.raise t) (s.setThread t (.done call none))
  | raiseCompute {t call} (hth : s.threads t = .compute call ∨ ∃ b, s.threads t = .computed call b) :
    Step s (.raise t) (s.setThread t (.unlock call none))
  | raiseRefresh {t call generation} (hth : s.threads t = .refresh call generation ∨
      ∃ b, s.threads t = .refreshed call generation b) :
    Step s (.raise t) (s.setThread t (.discard call))
  | put {t call body} (hth : s.threads t = .computed call body) :
    Step s (.put t)
      ({ s with cache := s.cache.put s.now (key call) body }.setThread t (.unlock call (some body)))
  | publish {t call generation body} (hth : s.threads t = .refreshed call generation body) :
    Step s (.publish t)
      ({ s with cache := (s.cache.putIfGeneration s.now (key call) body generation).1 }.setThread t
        (.discard call))
  | unlock {t call result} (hth : s.threads t = .unlock call result) :
    Step s (.unlock t)
      ({ s with keyLock := Function.update s.keyLock (key call) none }.setThread t
        (.done call result))
  | finish {t call body} (hth : s.threads t = .bypassRead call body) :
    Step s (.finish t) (s.setThread t (.done call (some body)))
  | setClock {now} : Step s (.setClock now) { s with now := now }
  | commit {r} (hr : r ∉ s.committed) : Step s (.commit r) { s with committed := r :: s.committed }
  | invalidate {r} (hr : r ∈ s.committed ∧ r ∉ s.invalidated) :
    Step s (.invalidate r)
      { s with cache := s.cache.invalidate, invalidated := r :: s.invalidated }
  | clear : Step s .clear { s with cache := s.cache.clear }
  | startWorkers : Step s .startWorkers { s with accepting := true }
  | stopWorkers : Step s .stopWorkers { s with accepting := false }

variable {key fresh} in
theorem Step.of_step {s s' : State Call κ} {a : Action Call} (h : step key fresh s a = some s') :
    Step key fresh s a s' := by
  cases a <;> simp only [Cache.step] at h
  case setClock | clear | startWorkers | stopWorkers => cases h; constructor
  case register t =>
    split at h
    · split at h <;> cases h
      · exact .registered ‹_› ‹_›
      · exact .register ‹_› (Bool.eq_false_iff.mpr ‹_›)
    · cases h
  case submit t j =>
    split at h
    · split at h <;> cases h
      exact .submit ‹_› ‹_› ‹_›
    · cases h
  case lock t =>
    split at h
    · split at h <;> cases h
      exact .lock ‹_› ‹_›
    · cases h
  -- an endpoint can raise before its database read and after it, on each of the three paths
  case raise t =>
    split at h <;> cases h
    · exact .raiseBypass (Or.inl ‹_›)
    · exact .raiseBypass (Or.inr ⟨_, ‹_›⟩)
    · exact .raiseCompute (Or.inl ‹_›)
    · exact .raiseCompute (Or.inr ⟨_, ‹_›⟩)
    · exact .raiseRefresh (Or.inl ‹_›)
    · exact .raiseRefresh (Or.inr ⟨_, ‹_›⟩)
  all_goals
    split at h <;> cases h
    all_goals constructor; assumption

/-! ## Threads keep their calls

A thread serves one call from its request to the end, and a job the call of the thread that submitted it.
A result can therefore be compared with the call that is still in the program counter.
-/

omit [DecidableEq κ] in
theorem call?_setThread {s : State Call κ} {t t' : ℕ} {th th' : Thread Call} {call : Call}
    (hth : s.threads t = th) (hcall : th'.call? = th.call?)
    (h : (s.threads t').call? = some call) : ((s.setThread t th').threads t').call? = some call := by
  by_cases heq : t' = t
  · subst heq
    rw [State.threads_setThread_self, hcall, ← hth, h]
  · rwa [State.threads_setThread_of_ne s heq]

variable {key fresh}

/-- A thread serves one call. -/
theorem call?_step {s s' : State Call κ} {a : Action Call} {t : ℕ} {call : Call}
    (hstep : step key fresh s a = some s') (h : (s.threads t).call? = some call) :
    (s'.threads t).call? = some call := by
  -- a thread that serves a call is not one that is about to be requested or submitted
  have hidle {j : ℕ} (hj : s.threads j = .idle) : t ≠ j := by
    rintro rfl
    rw [hj] at h
    cases h
  cases Step.of_step hstep with
  | request hth => rwa [State.threads_setThread_of_ne s (hidle hth)]
  | getEntry hth =>
    refine call?_setThread hth ?_ h
    rcases (s.cache.getEntry s.now _).1 with _ | ⟨value, _ | _⟩ <;> rfl
  | recheck hth =>
    refine call?_setThread hth ?_ h
    rcases (s.cache.getEntry s.now _).1 with _ | ⟨value, stale⟩ <;> rfl
  | submit hth hj =>
    rw [State.threads_setThread_of_ne _ (hidle hj)]
    exact call?_setThread hth rfl h
  | raiseBypass hth => rcases hth with hth | ⟨b, hth⟩ <;> exact call?_setThread hth rfl h
  | raiseCompute hth => rcases hth with hth | ⟨b, hth⟩ <;> exact call?_setThread hth rfl h
  | raiseRefresh hth => rcases hth with hth | ⟨b, hth⟩ <;> exact call?_setThread hth rfl h
  | setClock | commit | invalidate | clear | startWorkers | stopWorkers => exact h
  | registered hth | register hth | readGeneration hth | refuse hth | unregisterRefused hth
  | unregister hth | lock hth | start hth | readBypass hth | readCompute hth | readRefresh hth
  | put hth | publish hth | unlock hth | finish hth => exact call?_setThread hth rfl h

theorem call?_request {s s' : State Call κ} {t : ℕ} {call : Call}
    (hstep : step key fresh s (.request t call) = some s') : (s'.threads t).call? = some call := by
  cases Step.of_step hstep with
  | request hth =>
    rw [State.threads_setThread_self]
    split <;> rfl

end Step

end Ghpulse.Cache
