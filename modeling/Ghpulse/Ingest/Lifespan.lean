import Ghpulse.Ingest.Run
import Ghpulse.Library.Ownership
import Ghpulse.Library.Runs

/-!
# Ingest runs and the end of the lifespan

Scheduler and request threads call `_IngestCoordinator.run`, requests submit refresh jobs, and the
lifespan shuts down: `begin_shutdown`, `wait_for_idle`, `stop_refresh_workers`, `close_pools`. One
`Action` is one critical section (of the coordinator's condition or of `_registry_guard`), one operation
on the run lock, or a piece of the work of a run or a job.

The pool's `shutdown(wait=True)` returns when its jobs are finished, and every manual run goes through
the coordinator. What a run does while it holds the lock is any change of the process that keeps the lock;
`run_of_runIngest` is the change that `run_ingest` makes.

A thread is a program counter of `run` and `run_ingest`, with the results that the source returns. The
work of a run is any change of the process, so the invariants hold for whatever a run does while it has
the lock. That a real run is such a sequence is `run_of_runIngest`.

Reference: `backend/app.py` (`_IngestCoordinator`, `lifespan`); `backend/cache.py`
(`start_refresh_workers`, `stop_refresh_workers`, `submit_refresh`); `backend/ingest.py`
(`_run_lock_nonblocking`).
-/

open Python

namespace Ghpulse.Ingest.Lifespan

/-! ## Threads and jobs

The stages of the lifespan come in the order of the `finally` block: no new runs, wait for those that are
counted, take the executor away, wait for its jobs, close the pools.
-/

/-- What a call of `run` ends with. -/
inductive Result where
  /-- The summary of a run that was skipped. -/
  | skipped (reason trigger : Str)
  /-- `run_ingest` had the lock, and returned or raised. -/
  | ran (returned : Bool)
  deriving DecidableEq

/-- The program counter of a thread that calls `run`. -/
inductive Thread where
  | idle
  /-- Before the first critical section. -/
  | called (trigger : Str)
  /-- Counted in `_active`; `run_ingest` tries the lock next. -/
  | admitted (trigger : Str)
  /-- Between lock acquisition and lock release. -/
  | running (trigger : Str)
  /-- `run_ingest` has ended; the `finally` block is next. -/
  | leaving (result : Result)
  | done (result : Result)
  deriving DecidableEq

/-- The thread is counted in `_active`. -/
def Thread.Counted : Thread → Prop
  | .admitted _ | .running _ | .leaving _ => True
  | _ => False

/-- The thread holds the run lock. -/
def Thread.Running : Thread → Prop
  | .running _ => True
  | _ => False

/-- The thread has held the run lock. -/
def Thread.Ran : Thread → Prop
  | .running _ | .leaving (.ran _) | .done (.ran _) => True
  | _ => False

/-- The thread returns the summary of a skipped run. -/
def Thread.Skips (th : Thread) (reason trigger : Str) : Prop :=
  th = .leaving (.skipped reason trigger) ∨ th = .done (.skipped reason trigger)

/-- An accepted refresh job. -/
inductive Job where
  | queued
  | running
  | finished
  deriving DecidableEq

/-- Where the lifespan is. -/
inductive Stage where
  | active
  /-- After `begin_shutdown`. -/
  | closing
  /-- After `wait_for_idle`. -/
  | idle
  /-- In `stop_refresh_workers`, after its critical section; `pool` is shut down. -/
  | stopping (pool : Option ℕ)
  /-- After `stop_refresh_workers`. -/
  | stopped
  /-- `close_pools` is called. -/
  | closed
  deriving DecidableEq

variable {κ ν : Type}

/-- The process, the coordinator with its threads, and the refresh executor with its jobs. Executors are
numbered; a job is the executor that accepted it and its state. -/
structure State (κ ν : Type) where
  world : World κ ν
  active : ℕ
  closing : Bool
  threads : ℕ → Thread
  accepting : Bool
  pool : Option ℕ
  nextPool : ℕ
  jobs : List (ℕ × Job)
  stage : Stage

/-- A lifespan begins: the run lock is free, and no executor is open. -/
def State.initial (w : World κ ν) : State κ ν :=
  ⟨{ w with runLocked := false }, 0, false, fun _ => .idle, true, none, 0, [], .active⟩

/-- Move thread `t` to a new program counter. -/
def State.setThread (s : State κ ν) (t : ℕ) (th : Thread) : State κ ν :=
  { s with threads := Function.update s.threads t th }

/-- The executor that `submit_refresh` and `start_refresh_workers` leave open. -/
def State.openPool (s : State κ ν) : State κ ν :=
  match s.pool with
  | some _ => s
  | none => { s with pool := some s.nextPool, nextPool := s.nextPool + 1 }

/-- What happens next; `t` is a thread and `j` a job. -/
inductive Action (κ ν : Type) where
  | call (t : ℕ) (trigger : Str)
  /-- The first critical section of `run`. -/
  | enter (t : ℕ)
  /-- `_RUN_LOCK.acquire(blocking=False)`. -/
  | tryLock (t : ℕ)
  /-- The run that holds the lock changes the process. -/
  | work (t : ℕ) (w : World κ ν)
  /-- `_RUN_LOCK.release()`. -/
  | unlock (t : ℕ) (returned : Bool)
  /-- The last critical section of `run`. -/
  | leave (t : ℕ)
  /-- A request or a job changes the response cache. -/
  | serve (cache : Cache.TTLCache κ ν)
  /-- `submit_refresh`; `raises` tells that the executor raises `RuntimeError`. -/
  | submit (raises : Bool)
  | start (j : ℕ)
  | finish (j : ℕ)
  | startWorkers
  | beginShutdown
  | waitForIdle
  /-- The critical section of `stop_refresh_workers`. -/
  | takePool
  /-- `pool.shutdown(wait=True)` returns. -/
  | drained
  | closePools

/-- The thread that acts. -/
def Action.thread? : Action κ ν → Option ℕ
  | .call t _ | .enter t | .tryLock t | .work t _ | .unlock t _ | .leave t => some t
  | _ => none

/-- One step. -/
def step (s : State κ ν) : Action κ ν → Option (State κ ν)
  | .call t trigger =>
    match s.threads t with
    | .idle => some (s.setThread t (.called trigger))
    | _ => none
  | .enter t =>
    match s.threads t with
    | .called trigger =>
      if s.closing then
        some (s.setThread t (.done (.skipped (lit "application shutting down") trigger)))
      else some ({ s with active := s.active + 1 }.setThread t (.admitted trigger))
    | _ => none
  | .tryLock t =>
    match s.threads t with
    | .admitted trigger =>
      if s.world.runLocked then
        some (s.setThread t (.leaving (.skipped (lit "ingest already running") trigger)))
      else
        some ({ s with world := { s.world with runLocked := true } }.setThread t (.running trigger))
    | _ => none
  | .work t w =>
    match s.threads t with
    | .running _ => if w.runLocked then some { s with world := w } else none
    | _ => none
  | .unlock t returned =>
    match s.threads t with
    | .running _ =>
      some ({ s with world := { s.world with runLocked := false } }.setThread t
        (.leaving (.ran returned)))
    | _ => none
  | .leave t =>
    match s.threads t with
    | .leaving result => some ({ s with active := s.active - 1 }.setThread t (.done result))
    | _ => none
  | .serve cache => some { s with world := { s.world with responseCache := cache } }
  | .submit raises =>
    if !s.accepting then some s
    else if raises then some s.openPool
    else s.openPool.pool.map fun pool =>
      { s.openPool with jobs := s.jobs ++ [(pool, .queued)] }
  | .start j =>
    match s.jobs[j]? with
    | some (pool, .queued) => some { s with jobs := s.jobs.set j (pool, .running) }
    | _ => none
  | .finish j =>
    match s.jobs[j]? with
    | some (pool, .running) => some { s with jobs := s.jobs.set j (pool, .finished) }
    | _ => none
  | .startWorkers =>
    if s.stage = .active then some { s.openPool with accepting := true } else none
  | .beginShutdown =>
    if s.stage = .active then some { s with stage := .closing, closing := true } else none
  | .waitForIdle =>
    if s.stage = .closing ∧ s.active = 0 then some { s with stage := .idle } else none
  | .takePool =>
    if s.stage = .idle then
      some { s with stage := .stopping s.pool, accepting := false, pool := none }
    else none
  | .drained =>
    match s.stage with
    | .stopping pool =>
      if ∀ job ∈ s.jobs, some job.1 = pool → job.2 = .finished then some { s with stage := .stopped }
      else none
    | _ => none
  | .closePools => if s.stage = .stopped then some { s with stage := .closed } else none

/-- The steps by their effects. -/
inductive Step (s : State κ ν) : Action κ ν → State κ ν → Prop where
  | call {t : ℕ} {trigger : Str} (hth : s.threads t = .idle) :
      Step s (.call t trigger) (s.setThread t (.called trigger))
  | refused {t : ℕ} {trigger : Str} (hth : s.threads t = .called trigger)
      (hclosing : s.closing = true) : Step s (.enter t)
      (s.setThread t (.done (.skipped (lit "application shutting down") trigger)))
  | admitted {t : ℕ} {trigger : Str} (hth : s.threads t = .called trigger)
      (hclosing : s.closing = false) : Step s (.enter t)
      ({ s with active := s.active + 1 }.setThread t (.admitted trigger))
  | busy {t : ℕ} {trigger : Str} (hth : s.threads t = .admitted trigger)
      (hlock : s.world.runLocked = true) : Step s (.tryLock t)
      (s.setThread t (.leaving (.skipped (lit "ingest already running") trigger)))
  | locked {t : ℕ} {trigger : Str} (hth : s.threads t = .admitted trigger)
      (hlock : s.world.runLocked = false) : Step s (.tryLock t)
      ({ s with world := { s.world with runLocked := true } }.setThread t (.running trigger))
  | work {t : ℕ} {trigger : Str} {w : World κ ν} (hth : s.threads t = .running trigger)
      (hlock : w.runLocked = true) : Step s (.work t w) { s with world := w }
  | unlocked {t : ℕ} {trigger : Str} {returned : Bool} (hth : s.threads t = .running trigger) :
      Step s (.unlock t returned)
      ({ s with world := { s.world with runLocked := false } }.setThread t
        (.leaving (.ran returned)))
  | left {t : ℕ} {result : Result} (hth : s.threads t = .leaving result) : Step s (.leave t)
      ({ s with active := s.active - 1 }.setThread t (.done result))
  | serve (cache : Cache.TTLCache κ ν) :
      Step s (.serve cache) { s with world := { s.world with responseCache := cache } }
  | rejected (raises : Bool) (haccept : s.accepting = false) : Step s (.submit raises) s
  | raised (haccept : s.accepting = true) : Step s (.submit true) s.openPool
  | accepted {pool : ℕ} (haccept : s.accepting = true) (hpool : s.openPool.pool = some pool) :
      Step s (.submit false) { s.openPool with jobs := s.jobs ++ [(pool, .queued)] }
  | start {j pool : ℕ} (hjob : s.jobs[j]? = some (pool, .queued)) :
      Step s (.start j) { s with jobs := s.jobs.set j (pool, .running) }
  | finish {j pool : ℕ} (hjob : s.jobs[j]? = some (pool, .running)) :
      Step s (.finish j) { s with jobs := s.jobs.set j (pool, .finished) }
  | startWorkers (hstage : s.stage = .active) :
      Step s .startWorkers { s.openPool with accepting := true }
  | beginShutdown (hstage : s.stage = .active) :
      Step s .beginShutdown { s with stage := .closing, closing := true }
  | waitForIdle (hstage : s.stage = .closing) (hidle : s.active = 0) :
      Step s .waitForIdle { s with stage := .idle }
  | takePool (hstage : s.stage = .idle) :
      Step s .takePool { s with stage := .stopping s.pool, accepting := false, pool := none }
  | drained {pool : Option ℕ} (hstage : s.stage = .stopping pool)
      (hjobs : ∀ job ∈ s.jobs, some job.1 = pool → job.2 = .finished) :
      Step s .drained { s with stage := .stopped }
  | closePools (hstage : s.stage = .stopped) : Step s .closePools { s with stage := .closed }

/-- An action that is defined is one of the steps. -/
theorem Step.of_step {s s' : State κ ν} {a : Action κ ν} (h : step s a = some s') : Step s a s' := by
  cases a with
  | call t trigger =>
    simp only [step] at h
    split at h <;> cases h
    exact .call ‹_›
  | enter t =>
    simp only [step] at h
    split at h
    · split_ifs at h with hclosing <;> cases h
      · exact .refused ‹_› hclosing
      · exact .admitted ‹_› (Bool.eq_false_iff.mpr hclosing)
    · cases h
  | tryLock t =>
    simp only [step] at h
    split at h
    · split_ifs at h with hlock <;> cases h
      · exact .busy ‹_› hlock
      · exact .locked ‹_› (Bool.eq_false_iff.mpr hlock)
    · cases h
  | work t w =>
    simp only [step] at h
    split at h
    · split_ifs at h with hlock
      cases h
      exact .work ‹_› hlock
    · cases h
  | unlock t returned =>
    simp only [step] at h
    split at h <;> cases h
    exact .unlocked ‹_›
  | leave t =>
    simp only [step] at h
    split at h <;> cases h
    exact .left ‹_›
  | serve cache =>
    cases h
    exact .serve cache
  | submit raises =>
    simp only [step] at h
    split_ifs at h with haccept hraises
    · cases h
      exact .rejected raises (by simpa using haccept)
    · cases h
      rw [hraises]
      exact .raised (by simpa using haccept)
    · obtain ⟨pool, hpool, rfl⟩ := Option.map_eq_some_iff.mp h
      rw [Bool.eq_false_iff.mpr hraises]
      exact .accepted (by simpa using haccept) hpool
  | start j =>
    simp only [step] at h
    split at h <;> cases h
    exact .start ‹_›
  | finish j =>
    simp only [step] at h
    split at h <;> cases h
    exact .finish ‹_›
  | startWorkers =>
    simp only [step] at h
    split_ifs at h with hstage
    cases h
    exact .startWorkers hstage
  | beginShutdown =>
    simp only [step] at h
    split_ifs at h with hstage
    cases h
    exact .beginShutdown hstage
  | waitForIdle =>
    simp only [step] at h
    split_ifs at h with hstage
    cases h
    exact .waitForIdle hstage.1 hstage.2
  | takePool =>
    simp only [step] at h
    split_ifs at h with hstage
    cases h
    exact .takePool hstage
  | drained =>
    simp only [step] at h
    split at h
    · split_ifs at h with hjobs
      cases h
      exact .drained ‹_› hjobs
    · cases h
  | closePools =>
    simp only [step] at h
    split_ifs at h with hstage
    cases h
    exact .closePools hstage

/-! ## Threads

The counter counts threads by where they are; a move in or out of the counted places changes it by one.
-/

/-- Moving a thread leaves the others. -/
theorem threads_setThread (s : State κ ν) (t t' : ℕ) (th : Thread) :
    (s.setThread t th).threads t' = if t' = t then th else s.threads t' :=
  Function.update_apply s.threads t th t'

/-- A thread that moves between places with a property keeps a count, one that enters raises it, and
one that leaves lowers it. -/
theorem counts_setThread {s : State κ ν} {t n : ℕ} {th : Thread} {P : Thread → Prop}
    (h : Ownership.Counts n fun t => P (s.threads t)) :
    (P (s.threads t) ↔ P th) → Ownership.Counts n fun t' => P ((s.setThread t th).threads t') := by
  intro hsame
  refine h.congr fun t' => ?_
  rw [threads_setThread]
  split_ifs with ht
  · rw [ht]
    exact hsame.symm
  · exact Iff.rfl

/-- A thread that enters the counted places is one more. -/
theorem counts_enter {s : State κ ν} {t n : ℕ} {th : Thread} {P : Thread → Prop}
    (h : Ownership.Counts n fun t => P (s.threads t)) (hout : ¬ P (s.threads t)) (hin : P th) :
    Ownership.Counts (n + 1) fun t' => P ((s.setThread t th).threads t') := by
  refine h.enter hout fun t' => ?_
  rw [threads_setThread]
  split_ifs with ht
  · exact iff_of_true hin (Or.inl ht)
  · exact (or_iff_right ht).symm

/-- One that leaves them is one less. -/
theorem counts_leave {s : State κ ν} {t n : ℕ} {th : Thread} {P : Thread → Prop}
    (h : Ownership.Counts n fun t => P (s.threads t)) (hin : P (s.threads t)) (hout : ¬ P th) :
    Ownership.Counts (n - 1) fun t' => P ((s.setThread t th).threads t') := by
  refine h.leave hin fun t' => ?_
  rw [threads_setThread]
  split_ifs with ht
  · exact iff_of_false hout fun h => h.1 ht
  · exact (and_iff_right ht).symm

/-! ## The invariant

Two counts: of the threads that the coordinator has admitted, and of those that hold the lock, which are
none or one. Both are `Ownership.Counts`, a number and the places it counts.
-/

/-- The coordinator rejects runs once the lifespan has begun to shut down, and none is left once it has
waited for them. -/
structure Drained (stage : Stage) (closing : Bool) (active : ℕ) : Prop where
  closing : stage ≠ .active → closing = true
  active : stage ≠ .active → stage ≠ .closing → active = 0

/-- Nothing changes for the coordinator after `wait_for_idle`. -/
theorem Drained.next {stage stage' : Stage} {closing : Bool} {active : ℕ}
    (h : Drained stage closing active) (hactive : stage ≠ .active) (hclosing : stage ≠ .closing) :
    Drained stage' closing active :=
  ⟨fun _ => h.closing hactive, fun _ _ => h.active hactive hclosing⟩

/-- What every step preserves. -/
structure Inv (s : State κ ν) : Prop where
  counted : Ownership.Counts s.active fun t => (s.threads t).Counted
  locked : Ownership.Counts (if s.world.runLocked then 1 else 0) fun t => (s.threads t).Running
  drained : Drained s.stage s.closing s.active

/-- Before the first call the counter counts nothing. -/
theorem Inv.initial (w : World κ ν) : Inv (State.initial w) where
  counted := Ownership.counts_zero fun _ => id
  locked := Ownership.counts_zero fun _ => id
  drained := ⟨fun h => absurd rfl h, fun h => absurd rfl h⟩

/-- Opening the pool changes the pool alone. -/
theorem openPool_eq (s : State κ ν) :
    s.openPool = { s with pool := s.openPool.pool, nextPool := s.openPool.nextPool } := by
  unfold State.openPool
  split <;> rfl

/-- Opening the pool keeps the counter. -/
theorem Inv.openPool {s : State κ ν} (hi : Inv s) : Inv s.openPool := by
  rw [openPool_eq]
  exact ⟨hi.counted, hi.locked, hi.drained⟩

/-- A thread that holds the lock has locked it. -/
theorem Inv.runLocked {s : State κ ν} (hi : Inv s) {t : ℕ} {trigger : Str}
    (hth : s.threads t = .running trigger) : s.world.runLocked = true := by
  by_contra hfree
  have hlocked := hi.locked
  rw [if_neg hfree] at hlocked
  apply hlocked.not_of_zero t
  rw [hth]
  trivial

/-- Every step keeps the counter at the number of threads that are counted. -/
theorem Inv.step {s s' : State κ ν} {a : Action κ ν} (hi : Inv s)
    (h : Lifespan.step s a = some s') : Inv s' := by
  cases Step.of_step h with
  | call hth =>
    exact ⟨counts_setThread hi.counted (by rw [hth]; exact Iff.rfl),
      counts_setThread hi.locked (by rw [hth]; exact Iff.rfl), hi.drained⟩
  | refused hth hclosing =>
    exact ⟨counts_setThread hi.counted (by rw [hth]; exact Iff.rfl),
      counts_setThread hi.locked (by rw [hth]; exact Iff.rfl), hi.drained⟩
  | admitted hth hclosing =>
    refine ⟨counts_enter hi.counted (by rw [hth]; exact id) trivial,
      counts_setThread hi.locked (by rw [hth]; exact Iff.rfl), ?_⟩
    -- the lifespan has not begun to shut down
    have hstage : s.stage = .active := by
      by_contra hstage
      rw [hi.drained.closing hstage] at hclosing
      cases hclosing
    exact ⟨fun h => absurd hstage h, fun h => absurd hstage h⟩
  | busy hth hlock =>
    exact ⟨counts_setThread hi.counted (by rw [hth]; exact Iff.rfl),
      counts_setThread hi.locked (by rw [hth]; exact Iff.rfl), hi.drained⟩
  | locked hth hlock =>
    have hlocked := hi.locked
    rw [hlock] at hlocked
    exact ⟨counts_setThread hi.counted (by rw [hth]; exact Iff.rfl),
      counts_enter hlocked (by rw [hth]; exact id) trivial, hi.drained⟩
  | @work t trigger w hth hlock =>
    have hlocked := hi.locked
    have hsame : s.world.runLocked = w.runLocked := (hi.runLocked hth).trans hlock.symm
    rw [hsame] at hlocked
    exact ⟨hi.counted, hlocked, hi.drained⟩
  | unlocked hth =>
    have hlocked := hi.locked
    rw [hi.runLocked hth] at hlocked
    exact ⟨counts_setThread hi.counted (by rw [hth]; exact Iff.rfl),
      counts_leave hlocked (by rw [hth]; trivial) id, hi.drained⟩
  | left hth =>
    refine ⟨counts_leave hi.counted (by rw [hth]; trivial) id,
      counts_setThread hi.locked (by rw [hth]; exact Iff.rfl), hi.drained.closing, fun h h' => ?_⟩
    show s.active - 1 = 0
    rw [hi.drained.active h h']
  | serve cache => exact ⟨hi.counted, hi.locked, hi.drained⟩
  | rejected raises haccept => exact hi
  | raised haccept => exact hi.openPool
  | accepted haccept hpool =>
    exact ⟨hi.openPool.counted, hi.openPool.locked, hi.openPool.drained⟩
  | start hjob | finish hjob => exact ⟨hi.counted, hi.locked, hi.drained⟩
  | startWorkers hstage =>
    exact ⟨hi.openPool.counted, hi.openPool.locked, hi.openPool.drained⟩
  | beginShutdown hstage =>
    exact ⟨hi.counted, hi.locked, fun _ => rfl, fun _ h => absurd rfl h⟩
  | waitForIdle hstage hidle =>
    refine ⟨hi.counted, hi.locked, fun _ => hi.drained.closing ?_, fun _ _ => hidle⟩
    rw [hstage]
    decide
  | takePool hstage | drained hstage hjobs | closePools hstage =>
    exact ⟨hi.counted, hi.locked, hi.drained.next (by rw [hstage]; simp) (by rw [hstage]; simp)⟩

/-! ## Jobs

A job belongs to the executor that accepted it. Executors are numbered, because a refresh that comes after
a shutdown could open a new one; the invariant says that none is left behind.
-/

/-- The executor that the lifespan still has to drain. -/
def State.undrained (s : State κ ν) : Option ℕ :=
  match s.stage with
  | .active | .closing | .idle => s.pool
  | .stopping pool => pool
  | .stopped | .closed => none

/-- Unfinished jobs are in the executor that is still to be drained, and no job is accepted after it was
taken. -/
structure JobsInv (s : State κ ν) : Prop where
  unfinished : ∀ job ∈ s.jobs, job.2 ≠ .finished → s.undrained = some job.1
  accepting : s.stage ≠ .active → s.stage ≠ .closing → s.stage ≠ .idle → s.accepting = false

/-- Before the first call there is no job. -/
theorem JobsInv.initial (w : World κ ν) : JobsInv (State.initial w) where
  unfinished _ h := absurd h List.not_mem_nil
  accepting h := absurd rfl h

/-- Until the pool is drained its jobs are those that are left. -/
theorem undrained_eq {s : State κ ν} (h : s.stage = .active ∨ s.stage = .closing ∨ s.stage = .idle) :
    s.undrained = s.pool := by
  unfold State.undrained
  rcases h with h | h | h <;> rw [h]

/-- Opening an executor keeps the one that is open. -/
theorem undrained_openPool {s : State κ ν} {pool : ℕ} (h : s.undrained = some pool) :
    s.openPool.undrained = some pool := by
  unfold State.openPool
  cases hpool : s.pool with
  | some p => exact h
  | none =>
    unfold State.undrained at h ⊢
    dsimp only
    cases hstage : s.stage with
    | active | closing | idle =>
      rw [hstage] at h
      rw [hpool] at h
      cases h
    | stopping p =>
      rw [hstage] at h
      exact h
    | stopped | closed =>
      rw [hstage] at h
      cases h

/-- Opening the pool keeps the jobs in order. -/
theorem JobsInv.openPool {s : State κ ν} (hj : JobsInv s) : JobsInv s.openPool := by
  have hunfinished : ∀ job ∈ s.openPool.jobs, job.2 ≠ .finished →
      s.openPool.undrained = some job.1 := by
    rw [openPool_eq]
    intro job hjob hjob'
    rw [← openPool_eq]
    exact undrained_openPool (hj.unfinished job hjob hjob')
  refine ⟨hunfinished, ?_⟩
  rw [openPool_eq]
  exact hj.accepting

/-- A job moves on. -/
theorem JobsInv.setJob {s : State κ ν} (hj : JobsInv s) {j pool : ℕ} {job job' : Job}
    (hjob : s.jobs[j]? = some (pool, job)) (hunfinished : job ≠ .finished) :
    JobsInv { s with jobs := s.jobs.set j (pool, job') } where
  unfinished q hq hq' := by
    show s.undrained = some q.1
    rcases List.mem_or_eq_of_mem_set hq with hq | rfl
    · exact hj.unfinished q hq hq'
    · exact hj.unfinished (pool, job) (List.mem_of_getElem? hjob) hunfinished
  accepting := hj.accepting

/-- So does every step. -/
theorem JobsInv.step {s s' : State κ ν} {a : Action κ ν} (hj : JobsInv s)
    (h : Lifespan.step s a = some s') : JobsInv s' := by
  cases Step.of_step h with
  | call | refused | admitted | busy | locked | work | unlocked | left | serve | rejected =>
    exact ⟨hj.unfinished, hj.accepting⟩
  | raised haccept => exact hj.openPool
  -- a job is accepted, so the executor has not been taken away
  | @accepted pool haccept hpool =>
    have hopen := hj.openPool
    have hstage : s.stage = .active ∨ s.stage = .closing ∨ s.stage = .idle := by
      by_contra hstage
      simp only [not_or] at hstage
      rw [hj.accepting hstage.1 hstage.2.1 hstage.2.2] at haccept
      cases haccept
    have hjobs : s.openPool.jobs = s.jobs := by rw [openPool_eq]
    refine ⟨fun job hjob hjob' => ?_, hopen.accepting⟩
    show s.openPool.undrained = some job.1
    rcases List.mem_append.mp hjob with hjob | hjob
    · exact hopen.unfinished job (hjobs ▸ hjob) hjob'
    · rw [List.mem_singleton.mp hjob, ← hpool]
      apply undrained_eq
      rw [openPool_eq]
      exact hstage
  | start hjob => exact hj.setJob hjob (by simp)
  | finish hjob => exact hj.setJob hjob (by simp)
  | startWorkers hstage =>
    have hopen := hj.openPool
    refine ⟨hopen.unfinished, fun h => absurd ?_ h⟩
    show s.openPool.stage = _
    rw [openPool_eq]
    exact hstage
  | beginShutdown hstage =>
    refine ⟨fun job hjob hjob' => ?_, fun _ h => absurd rfl h⟩
    have hpool := hj.unfinished job hjob hjob'
    rwa [undrained_eq (Or.inl hstage)] at hpool
  | waitForIdle hstage hidle =>
    refine ⟨fun job hjob hjob' => ?_, fun _ _ h => absurd rfl h⟩
    have hpool := hj.unfinished job hjob hjob'
    rwa [undrained_eq (Or.inr (Or.inl hstage))] at hpool
  | takePool hstage =>
    refine ⟨fun job hjob hjob' => ?_, fun _ _ _ => rfl⟩
    have hpool := hj.unfinished job hjob hjob'
    rwa [undrained_eq (Or.inr (Or.inr hstage))] at hpool
  -- all of its jobs have finished
  | @drained pool hstage hjobs =>
    refine ⟨fun job hjob hjob' => ?_, fun _ _ _ => hj.accepting ?_ ?_ ?_⟩
    · have hpool := hj.unfinished job hjob hjob'
      rw [State.undrained, hstage] at hpool
      exact absurd (hjobs job hjob hpool.symm) hjob'
    all_goals
      rw [hstage]
      simp
  | closePools hstage =>
    refine ⟨fun job hjob hjob' => ?_, fun _ _ _ => hj.accepting ?_ ?_ ?_⟩
    · have hpool := hj.unfinished job hjob hjob'
      rw [State.undrained, hstage] at hpool
      cases hpool
    all_goals
      rw [hstage]
      simp

/-! ## Skipped runs

A skipped run has never held the lock. This needs a statement about its whole life, which the order of its
places gives.
-/

/-- The moves of a thread. -/
inductive Thread.Next : Thread → Thread → Prop where
  | call (trigger : Str) : Next .idle (.called trigger)
  | refuse (trigger : Str) :
      Next (.called trigger) (.done (.skipped (lit "application shutting down") trigger))
  | accept (trigger : Str) : Next (.called trigger) (.admitted trigger)
  | busy (trigger : Str) :
      Next (.admitted trigger) (.leaving (.skipped (lit "ingest already running") trigger))
  | lock (trigger : Str) : Next (.admitted trigger) (.running trigger)
  | unlock (trigger : Str) (returned : Bool) : Next (.running trigger) (.leaving (.ran returned))
  | leave (result : Result) : Next (.leaving result) (.done result)

variable {s s' : State κ ν} {a : Action κ ν}

/-- A step leaves a thread or moves it to its next place. -/
theorem thread_cases (h : step s a = some s') (t : ℕ) :
    s'.threads t = s.threads t ∨ (s.threads t).Next (s'.threads t) := by
  have hmove {u : ℕ} {th : Thread} (hnext : (s.threads u).Next th) :
      (s.setThread u th).threads t = s.threads t ∨
        (s.threads t).Next ((s.setThread u th).threads t) := by
    rw [threads_setThread]
    split_ifs with ht
    · rw [ht]
      exact Or.inr hnext
    · exact Or.inl rfl
  cases Step.of_step h with
  | call hth => exact hmove (by rw [hth]; exact .call _)
  | refused hth => exact hmove (by rw [hth]; exact .refuse _)
  | admitted hth => exact hmove (by rw [hth]; exact .accept _)
  | busy hth => exact hmove (by rw [hth]; exact .busy _)
  | locked hth => exact hmove (by rw [hth]; exact .lock _)
  | unlocked hth => exact hmove (by rw [hth]; exact .unlock _ _)
  | left hth => exact hmove (by rw [hth]; exact .leave _)
  | raised | accepted | startWorkers =>
    left
    show s.openPool.threads t = _
    rw [openPool_eq]
  | work | serve | rejected | start | finish | beginShutdown | waitForIdle | takePool | drained
  | closePools => exact Or.inl rfl

/-- A run that held the lock is not skipped. -/
theorem ran_step (h : step s a = some s') {t : ℕ} (ht : (s.threads t).Ran) : (s'.threads t).Ran := by
  rcases thread_cases h t with hsame | hnext
  · rwa [hsame]
  · generalize s.threads t = th, s'.threads t = th' at ht hnext
    cases hnext with
    | unlock => trivial
    | leave result => cases result <;> exact ht
    | call | refuse | accept | busy | lock => cases ht

/-- A skipped run stays skipped. -/
theorem skips_step (h : step s a = some s') {t : ℕ} {reason trigger : Str}
    (ht : (s.threads t).Skips reason trigger) : (s'.threads t).Skips reason trigger := by
  rcases thread_cases h t with hsame | hnext
  · rwa [hsame]
  · generalize s.threads t = th, s'.threads t = th' at ht hnext
    rcases ht with rfl | rfl
    · cases hnext
      exact Or.inr rfl
    · cases hnext

/-- Only a run that has held the lock changes the process. -/
theorem world_step (h : step s a = some s') {t : ℕ} (ha : a.thread? = some t) :
    s'.world = s.world ∨ (s'.threads t).Ran := by
  cases Step.of_step h with
  | call | refused | admitted | busy | left => exact Or.inl rfl
  | locked hth | unlocked hth =>
    cases ha
    right
    rw [threads_setThread, if_pos rfl]
    trivial
  | work hth hlock =>
    cases ha
    right
    show (s.threads t).Ran
    rw [hth]
    trivial
  | serve | rejected | raised | accepted | start | finish | startWorkers | beginShutdown
  | waitForIdle | takePool | drained | closePools => cases ha

/-- A thread that is refused, or finds the lock held. -/
inductive Refused (m : State κ ν) : Action κ ν → ℕ → Str → Str → Prop where
  | closing {t : ℕ} {trigger : Str} (hth : m.threads t = .called trigger)
      (hclosing : m.closing = true) :
      Refused m (.enter t) t (lit "application shutting down") trigger
  | locked {t : ℕ} {trigger : Str} (hth : m.threads t = .admitted trigger)
      (hlock : m.world.runLocked = true) :
      Refused m (.tryLock t) t (lit "ingest already running") trigger

/-- A refused call is answered as skipped. -/
theorem Refused.skips {m m' : State κ ν} {t : ℕ} {reason trigger : Str}
    (hrefused : Refused m a t reason trigger) (h : step m a = some m') :
    (m'.threads t).Skips reason trigger := by
  cases hrefused with
  | closing hth hclosing =>
    rw [step, hth] at h
    dsimp only at h
    rw [if_pos hclosing] at h
    cases h
    rw [threads_setThread, if_pos rfl]
    exact Or.inr rfl
  | locked hth hlock =>
    rw [step, hth] at h
    dsimp only at h
    rw [if_pos hlock] at h
    cases h
    rw [threads_setThread, if_pos rfl]
    exact Or.inl rfl

/-- `run_ingest` in a thread that was admitted is such a sequence of steps of the thread. -/
theorem run_of_runIngest {py : PyLib} {input : RunInput ν} {t : ℕ} {trigger : Str} {w : World κ ν}
    {result : Except Exc Outcome} (hth : s.threads t = .admitted trigger)
    (h : runIngest py input s.world = (result, w)) :
    ∃ as s', Runs.run step s as = some s' ∧ s'.world = w ∧ (∀ a ∈ as, a.thread? = some t) ∧
      ∃ r, s'.threads t = .leaving r := by
  cases hlocked : s.world.runLocked with
  | true =>
    rw [runIngest_locked hlocked] at h
    cases h
    refine ⟨[.tryLock t], s.setThread t (.leaving (.skipped (lit "ingest already running") trigger)),
      ?_, rfl, by simp [Action.thread?], _, by rw [threads_setThread, if_pos rfl]⟩
    rw [Runs.run_cons]
    refine ⟨_, ?_, rfl⟩
    rw [step, hth]
    exact if_pos hlocked
  | false =>
    obtain ⟨w₁, -, rfl⟩ := of_runIngest hlocked h
    -- the lock is taken, the run does all its work, and the lock is released
    let locked := { s with world := { s.world with runLocked := true } }.setThread t (.running trigger)
    let worked := { locked with world := { settle w₁ with runLocked := true } }
    let unlocked := { worked with world := { worked.world with runLocked := false } }.setThread t
      (.leaving (.ran result.isOk))
    have hlock : step s (.tryLock t) = some locked := by
      rw [step, hth]
      exact if_neg (by rw [hlocked]; simp)
    have hrunning : locked.threads t = .running trigger := by rw [threads_setThread, if_pos rfl]
    have hwork : step locked (.work t worked.world) = some worked := by
      rw [step, hrunning]
      exact if_pos rfl
    have hworked : worked.threads t = .running trigger := hrunning
    have hunlock : step worked (.unlock t result.isOk) = some unlocked := by
      rw [step, hworked]
    refine ⟨[.tryLock t, .work t worked.world, .unlock t result.isOk], unlocked, ?_, rfl, ?_,
      .ran result.isOk, ?_⟩
    · exact Runs.run_cons.mpr ⟨_, hlock, Runs.run_cons.mpr ⟨_, hwork,
        Runs.run_cons.mpr ⟨_, hunlock, rfl⟩⟩⟩
    · simp [Action.thread?]
    · rw [threads_setThread, if_pos rfl]

/-! ## Every run

All of it together, for every interleaving of calls, runs, refreshes and the shutdown.
-/

/-- In every interleaving: at most one run is between lock acquisition and release; a run that finds the
coordinator closing or the lock held ends with the summary of a skipped run, and no step of a skipped run
changes the process; and from the moment `close_pools` is called, no run is inside `run` and no accepted
job is unfinished. -/
theorem lifespan_drains {w : World κ ν} {as : List (Action κ ν)} {s : State κ ν}
    (hrun : Runs.run step (State.initial w) as = some s) :
    (∀ t t', (s.threads t).Running → (s.threads t').Running → t = t') ∧
      (∀ m a m', Runs.Takes step (State.initial w) as m a m' →
        (∀ t reason trigger, Refused m a t reason trigger → (s.threads t).Skips reason trigger) ∧
        ∀ t reason trigger, (s.threads t).Skips reason trigger → a.thread? = some t →
          m'.world = m.world) ∧
      (s.stage = .closed →
        (∀ t, ¬ (s.threads t).Counted) ∧ ∀ job ∈ s.jobs, job.2 = .finished) := by
  have hi : Inv s := Runs.run_preserves (fun _ _ _ hi h => hi.step h) (Inv.initial w) hrun
  have hj : JobsInv s :=
    Runs.run_preserves (fun _ _ _ hj h => hj.step h) (JobsInv.initial w) hrun
  refine ⟨fun t t' ht ht' => hi.locked.unique ?_ ht ht', fun m a m' htakes => ⟨?_, ?_⟩,
    fun hclosed => ⟨?_, ?_⟩⟩
  · split_ifs <;> omega
  · intro t reason trigger hrefused
    obtain ⟨before, after, -, -, hstep⟩ := id htakes
    obtain ⟨rest, hrest⟩ := htakes.rest hrun
    exact Runs.run_preserves (fun _ _ _ hskips h => skips_step h hskips) (hrefused.skips hstep) hrest
  · intro t reason trigger hskips ha
    obtain ⟨before, after, -, -, hstep⟩ := id htakes
    obtain ⟨rest, hrest⟩ := htakes.rest hrun
    rcases world_step hstep ha with hworld | hran
    · exact hworld
    · have hran' : (s.threads t).Ran :=
        Runs.run_preserves (fun _ _ _ hran h => ran_step h hran) hran hrest
      rcases hskips with hskips | hskips
      · rw [hskips] at hran'
        cases hran'
      · rw [hskips] at hran'
        cases hran'
  · have hactive : s.active = 0 := hi.drained.active (by rw [hclosed]; simp) (by rw [hclosed]; simp)
    have hcounted := hi.counted
    rw [hactive] at hcounted
    exact hcounted.not_of_zero
  · intro job hjob
    by_contra hunfinished
    have hpool := hj.unfinished job hjob hunfinished
    rw [State.undrained, hclosed] at hpool
    cases hpool

/-- A run that is in flight when the lifespan ends, one that finds the lock held, one that comes too late,
and a refresh job. -/
def shutdownRun : List (Action Unit Unit) :=
  [.startWorkers, .call 0 (lit "startup"), .enter 0, .tryLock 0, .call 1 (lit "manual"), .enter 1,
    .tryLock 1, .submit false, .start 0, .beginShutdown, .call 2 (lit "manual"), .enter 2, .leave 1,
    .unlock 0 true, .leave 0, .waitForIdle, .submit false, .takePool, .submit false, .finish 0, .start 1,
    .finish 1, .drained, .closePools]

/-- A shutdown that waits for a run and refuses another call. -/
theorem shutdownRun_drains :
    ∃ s, Runs.run step (State.initial (.start .empty 300)) shutdownRun = some s ∧
      (∀ t t', (s.threads t).Running → (s.threads t').Running → t = t') ∧
      (∀ m a m', Runs.Takes step (State.initial (.start .empty 300)) shutdownRun m a m' →
        (∀ t reason trigger, Refused m a t reason trigger → (s.threads t).Skips reason trigger) ∧
        ∀ t reason trigger, (s.threads t).Skips reason trigger → a.thread? = some t →
          m'.world = m.world) ∧
      (s.stage = .closed →
        (∀ t, ¬ (s.threads t).Counted) ∧ ∀ job ∈ s.jobs, job.2 = .finished) := by
  have hsome : (Runs.run step (State.initial (.start .empty 300)) shutdownRun).isSome = true := by
    decide +kernel
  obtain ⟨s, hs⟩ := Option.isSome_iff_exists.mp hsome
  exact ⟨s, hs, lifespan_drains hs⟩

/-- In that run the lifespan closes the pools. -/
example : (Runs.run step (State.initial (.start .empty 300)) shutdownRun).map
    (fun s => (s.stage, (List.range 3).map s.threads)) =
      some (.closed, [.done (.ran true),
        .done (.skipped (lit "ingest already running") (lit "manual")),
        .done (.skipped (lit "application shutting down") (lit "manual"))]) := by
  decide +kernel

end Ghpulse.Ingest.Lifespan
