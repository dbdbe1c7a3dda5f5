import Ghpulse.Ingest.Failure
import Ghpulse.Library.Interleaving

/-!
# An ingest run step by step

`run_ingest` as the rest of the process sees it: every change of the shared state is an operation of its
own, and between two of them other threads read the state or try the lock. A transaction changes nothing
before its commit, so opening the audit row is one operation, and so is the record of a failure, which
can fail silently. `run_runIngest` says that a run that is left alone does what `Ingest.runIngest` does.

Reference: `backend/ingest.py`.
-/

open Python Effect Interleave

namespace Ghpulse.Ingest.Stepwise

variable {κ ν μ : Type}

/-! ## The program

The same functions as in `Ingest.Run`, under the same names, as programs of atomic operations.
-/

/-- `_set_progress`. -/
def setProgress (f : Progress → Progress) : Program Exc (World κ ν) Unit :=
  .modify fun w => { w with progress := f w.progress }

/-- The statements of `_commit_snapshot` on the three current-state tables. -/
def replaceTables (input : RunInput μ) (s : Snapshot) (db : Db) :
    Program Exc (World κ ν) (Db × Counts × Counts) := do
  let committedAt := input.clock.committedAt
  let ids := s.repositories.map RepositoryRecord.nodeId
  let (db, repositoriesUpserted) ← .ofExcept (upsertRepositories input s.repositories committedAt db)
  setProgress fun p => { p with done := s.repositories.length }
  let (db, issuesUpserted) ← .ofExcept (upsertIssues input s.issues db)
  setProgress fun p => { p with done := s.repositories.length + s.issues.length }
  let (db, pullRequestsUpserted) ← .ofExcept (upsertPullRequests input s.pullRequests db)
  setProgress fun p =>
    { p with done := s.repositories.length + s.issues.length + s.pullRequests.length }
  let db ← .ofExcept (input.execute .touchRepositories (db.touchRepositories committedAt ids))
  let (db, issuesDeleted) ← .ofExcept
    (input.execute .deleteIssues (some (db.deleteIssues (s.issues.map IssueRecord.nodeId))))
  let (db, pullRequestsDeleted) ← .ofExcept
    (input.execute .deletePullRequests
      (some (db.deletePullRequests (s.pullRequests.map PullRequestRecord.nodeId))))
  let (db, repositoriesDeleted) ← .ofExcept
    (input.execute .deleteRepositories (some (db.deleteRepositories ids)))
  return (db, ⟨repositoriesUpserted, issuesUpserted, pullRequestsUpserted⟩,
    ⟨repositoriesDeleted, issuesDeleted, pullRequestsDeleted⟩)

/-- The body of the `try` block of `_commit_snapshot`. -/
def applySnapshot (input : RunInput μ) (runId : ℤ) (startedAt : Instant) (s : Snapshot) (db : Db) :
    Program Exc (World κ ν) (Db × Summary) := do
  let (db, upserted, deleted) ← replaceTables input s db
  let db ← .ofExcept
    (input.execute .syncState (db.setSyncState (committedState s.sourceAt input.clock.committedAt)))
  let summary := commitSummary input.clock runId startedAt s upserted deleted
  let db ← .ofExcept
    (input.execute .finishRun (db.updateRun runId (committedRun summary) (committedRun_id summary)))
  Program.ofExcept (input.reach .commit)
  return (db, summary)

/-- `_commit_snapshot`. -/
def commitSnapshot (input : RunInput μ) (runId : ℤ) (startedAt : Instant) (s : Snapshot) :
    Program Exc (World κ ν) Summary := do
  let total := s.repositories.length + s.issues.length + s.pullRequests.length
  setProgress fun p => { p with phase := .committing, total := total, done := 0 }
  Program.ofExcept (input.reach .commitConnect)
  let w ← Program.read id
  let (db, summary) ← Program.tryExcept (applySnapshot input runId startedAt s w.db) fun e => do
    Program.ofExcept (input.reach .rollback)
    Program.raise e
  Program.modify fun w => { w with db := db }
  return summary

/-- `_post_commit`. -/
def postCommit (summary : Summary) : Program Exc (World κ ν) Unit := do
  Program.modify fun w => { w with responseCache := w.responseCache.invalidate }
  Program.modify fun w => { w with broadcasts := w.broadcasts ++ [.ingestDone summary] }

/-- The guarded flow after `_open_run` has returned. -/
def runOpened (py : PyLib) (input : RunInput μ) (runId : ℤ) :
    Program Exc (World κ ν) Outcome := do
  setProgress fun p => { p with runId := some runId }
  let s ← .ofExcept (acquireValidated py input)
  setProgress fun p =>
    { p with
      phase := .validated
      total := s.repositories.length + s.issues.length + s.pullRequests.length
      done := 0 }
  let summary ← commitSnapshot input runId input.clock.startedAt s
  let summary := { summary with trigger := some input.trigger }
  postCommit summary
  return .finished summary

/-- `_finish_failed_run` and `_record_failed_attempt`: what they raise is swallowed. -/
def finishFailedRun (input : RunInput μ) (runId : Option ℤ) (error : Str) :
    Program Exc (World κ ν) Unit :=
  .attempt (fun w => (recordFailure input runId error w.db).isOk) fun w =>
    match recordFailure input runId error w.db with
    | .ok db => { w with db := db }
    | .error _ => w

/-- `_post_failure`. -/
def postFailure (input : RunInput μ) : Program Exc (World κ ν) Unit :=
  .modify fun w => { w with broadcasts := w.broadcasts ++ [.ingestFailed (failurePayload input)] }

/-- The `except` block of `run_ingest`. -/
def onFailure {α : Type} (input : RunInput μ) (runId : Option ℤ) (e : Exc) :
    Program Exc (World κ ν) α := do
  finishFailedRun input runId e.text
  postFailure input
  setProgress fun _ => .reset (some e.text)
  Program.raise e

/-- The `try` and `except` blocks of `run_ingest`. -/
def guardedRun (py : PyLib) (input : RunInput μ) : Program Exc (World κ ν) Outcome := do
  let runId ← Program.tryExcept (.atomic (openRun input)) (onFailure input none)
  Program.tryExcept (runOpened py input runId) (onFailure input (some runId))

/-- Take `_RUN_LOCK`. -/
def lock (w : World κ ν) : World κ ν := { w with runLocked := true }

/-- Release `_RUN_LOCK`. -/
def unlock (w : World κ ν) : World κ ν := { w with runLocked := false }

/-- `run_ingest` with the lock. -/
def lockedRun (py : PyLib) (input : RunInput μ) : Program Exc (World κ ν) Outcome :=
  Program.tryFinally
    (do
      setProgress fun _ => .acquiring input.clock.startedAt
      guardedRun py input)
    ([settle] ++ [unlock])

/-- `run_ingest`. -/
def runIngest (py : PyLib) (input : RunInput μ) : Program Exc (World κ ν) Outcome :=
  .tryLock World.runLocked lock (.skipped input.trigger) (lockedRun py input)

/-! ## A run that is left alone

Each function, executed without interruption, does what its counterpart does. The properties of single
runs therefore carry over to the runs of a history.
-/

open Program

/-- The statements on the tables, left alone, are those of the transaction. -/
theorem run_replaceTables (input : RunInput μ) (s : Snapshot) (db : Db) :
    (replaceTables input s db : Program Exc (World κ ν) _).run = Ingest.replaceTables input s db := by
  unfold replaceTables Ingest.replaceTables
  refine run_bind_congr rfl fun _ => ?_
  refine run_bind_congr rfl fun _ => ?_
  refine run_bind_congr rfl fun _ => ?_
  refine run_bind_congr rfl fun _ => ?_
  refine run_bind_congr rfl fun _ => ?_
  refine run_bind_congr rfl fun _ => ?_
  refine run_bind_congr rfl fun _ => ?_
  refine run_bind_congr rfl fun _ => ?_
  refine run_bind_congr rfl fun _ => ?_
  exact run_bind_congr rfl fun _ => rfl

/-- So is the body of the transaction. -/
theorem run_applySnapshot (input : RunInput μ) (runId : ℤ) (startedAt : Instant) (s : Snapshot)
    (db : Db) : (applySnapshot input runId startedAt s db : Program Exc (World κ ν) _).run =
      Ingest.applySnapshot input runId startedAt s db := by
  unfold applySnapshot Ingest.applySnapshot
  refine run_bind_congr (run_replaceTables input s db) fun _ => ?_
  refine run_bind_congr rfl fun _ => ?_
  refine run_bind_congr rfl fun _ => ?_
  exact run_bind_congr rfl fun _ => rfl

/-- And the commit. -/
theorem run_commitSnapshot (input : RunInput μ) (runId : ℤ) (startedAt : Instant) (s : Snapshot) :
    (commitSnapshot input runId startedAt s : Program Exc (World κ ν) _).run =
      Ingest.commitSnapshot input runId startedAt s := by
  unfold commitSnapshot Ingest.commitSnapshot
  refine run_bind_congr rfl fun _ => ?_
  refine run_bind_congr rfl fun _ => ?_
  refine run_bind_congr rfl fun w => ?_
  refine run_bind_congr ?_ fun _ => run_bind_congr rfl fun _ => rfl
  rw [run_tryExcept, run_applySnapshot]
  exact congrArg _ (funext fun e => run_bind_congr rfl fun _ => rfl)

/-- A run after its audit row, left alone, is `Ingest.runOpened`. -/
theorem run_runOpened (py : PyLib) (input : RunInput μ) (runId : ℤ) :
    (runOpened py input runId : Program Exc (World κ ν) _).run = Ingest.runOpened py input runId := by
  unfold runOpened Ingest.runOpened
  refine run_bind_congr rfl fun _ => ?_
  refine run_bind_congr rfl fun s => ?_
  refine run_bind_congr rfl fun _ => ?_
  refine run_bind_congr (run_commitSnapshot input runId _ s) fun summary => ?_
  exact run_bind_congr rfl fun _ => rfl

/-- So is the `except` block. -/
theorem run_onFailure {α : Type} (input : RunInput μ) (runId : Option ℤ) (e : Exc) :
    (onFailure input runId e : Program Exc (World κ ν) α).run = Ingest.onFailure input runId e := by
  unfold onFailure Ingest.onFailure
  refine run_bind_congr rfl fun _ => ?_
  refine run_bind_congr rfl fun _ => ?_
  exact run_bind_congr rfl fun _ => rfl

/-- And the whole `try` block. -/
theorem run_guardedRun (py : PyLib) (input : RunInput μ) :
    (guardedRun py input : Program Exc (World κ ν) _).run = Ingest.guardedRun py input := by
  unfold guardedRun Ingest.guardedRun
  refine run_bind_congr ?_ fun runId => ?_
  · rw [run_tryExcept]
    exact congrArg _ (funext fun e => run_onFailure input none e)
  · rw [run_tryExcept, run_runOpened]
    exact congrArg _ (funext fun e => run_onFailure input (some runId) e)

/-- The steps of a run, executed without interruption, are the run. -/
theorem run_runIngest (py : PyLib) (input : RunInput μ) :
    (runIngest py input : Program Exc (World κ ν) _).run = Ingest.runIngest py input := by
  funext w
  cases hlocked : w.runLocked with
  | true => rw [runIngest, run_tryLock_of_held hlocked, runIngest_locked hlocked]
  | false =>
    have hfree : Ingest.runIngest py input w =
        Prog.tryFinally (Ingest.guardedRun py input) (fun w => unlock (settle w))
          (w.started input.clock.startedAt) := by
      show (if w.runLocked = true then _ else _ : Prog Exc (World κ ν) Outcome) w = _
      rw [if_neg (by rw [hlocked]; exact Bool.false_ne_true)]
      rfl
    have hrun : (do
          setProgress fun _ => .acquiring input.clock.startedAt
          guardedRun py input : Program Exc (World κ ν) Outcome).run =
        Prog.modify (fun w => { w with progress := .acquiring input.clock.startedAt }) >>=
          fun _ => Ingest.guardedRun py input :=
      run_bind_congr rfl fun _ => run_guardedRun py input
    rw [hfree, runIngest, run_tryLock_of_free hlocked, lockedRun, run_tryFinally, hrun]
    rfl

/-! ## The lock

No operation of a run but its last one releases the lock, and the others keep whatever the lock protects.
-/

/-- Progress does not release the lock. -/
theorem keeps_setProgress (f : Progress → Progress) :
    Keeps World.runLocked (setProgress f : Program Exc (World κ ν) Unit) :=
  keeps_modify fun _ h => h

/-- Nor do the statements on the tables. -/
theorem keeps_replaceTables (input : RunInput μ) (s : Snapshot) (db : Db) :
    Keeps World.runLocked (replaceTables input s db : Program Exc (World κ ν) _) := by
  unfold replaceTables
  refine Keeps.bind (.done _) fun _ => ?_
  refine (keeps_setProgress _).bind fun _ => ?_
  refine Keeps.bind (.done _) fun _ => ?_
  refine (keeps_setProgress _).bind fun _ => ?_
  refine Keeps.bind (.done _) fun _ => ?_
  refine (keeps_setProgress _).bind fun _ => ?_
  refine Keeps.bind (.done _) fun _ => ?_
  refine Keeps.bind (.done _) fun _ => ?_
  refine Keeps.bind (.done _) fun _ => ?_
  exact Keeps.bind (.done _) fun _ => .done _

/-- Nor does the transaction. -/
theorem keeps_applySnapshot (input : RunInput μ) (runId : ℤ) (startedAt : Instant) (s : Snapshot)
    (db : Db) : Keeps World.runLocked
      (applySnapshot input runId startedAt s db : Program Exc (World κ ν) _) := by
  unfold applySnapshot
  refine (keeps_replaceTables input s db).bind fun _ => ?_
  refine Keeps.bind (.done _) fun _ => ?_
  refine Keeps.bind (.done _) fun _ => ?_
  exact Keeps.bind (.done _) fun _ => .done _

/-- Nor the commit. -/
theorem keeps_commitSnapshot (input : RunInput μ) (runId : ℤ) (startedAt : Instant) (s : Snapshot) :
    Keeps World.runLocked
      (commitSnapshot input runId startedAt s : Program Exc (World κ ν) _) := by
  unfold commitSnapshot
  refine (keeps_setProgress _).bind fun _ => ?_
  refine Keeps.bind (.done _) fun _ => ?_
  refine (keeps_read _).bind fun w => ?_
  refine Keeps.bind ?_ fun _ => ?_
  · refine (keeps_applySnapshot input runId startedAt s w.db).tryExcept fun e => ?_
    exact Keeps.bind (.done _) fun _ => .done _
  · exact Keeps.bind (keeps_modify fun _ h => h) fun _ => .done _

/-- A run holds the lock while it acquires and commits. -/
theorem keeps_runOpened (py : PyLib) (input : RunInput μ) (runId : ℤ) :
    Keeps World.runLocked (runOpened py input runId : Program Exc (World κ ν) _) := by
  unfold runOpened
  refine (keeps_setProgress _).bind fun _ => ?_
  refine Keeps.bind (.done _) fun s => ?_
  refine (keeps_setProgress _).bind fun _ => ?_
  refine (keeps_commitSnapshot input runId _ s).bind fun _ => ?_
  refine Keeps.bind ?_ fun _ => .done _
  exact Keeps.bind (keeps_modify fun _ h => h) fun _ => keeps_modify fun _ h => h

/-- It holds it while it records a failure. -/
theorem keeps_onFailure {α : Type} (input : RunInput μ) (runId : Option ℤ) (e : Exc) :
    Keeps World.runLocked (onFailure input runId e : Program Exc (World κ ν) α) := by
  unfold onFailure
  refine Keeps.bind (keeps_attempt fun w h => ?_) fun _ => ?_
  · cases recordFailure input runId e.text w.db <;> exact h
  refine Keeps.bind (keeps_modify fun _ h => h) fun _ => ?_
  exact (keeps_setProgress _).bind fun _ => .done _

/-- Opening the audit row leaves the lock alone, whether it returns or raises. -/
theorem runLocked_openRun (input : RunInput μ) :
    Prog.Keeps (World.runLocked : World κ ν → Bool) (openRun input) := by
  unfold openRun
  refine (Prog.keeps_ofExcept _).bind fun _ => ?_
  refine Prog.keeps_get.bind fun w => ?_
  refine Prog.Keeps.bind (Prog.keeps_modify fun _ => rfl) fun _ => ?_
  refine (Prog.keeps_ofExcept _).bind fun _ => ?_
  refine (Prog.keeps_ofExcept _).bind fun _ => ?_
  exact Prog.Keeps.bind (Prog.keeps_modify fun _ => rfl) fun _ => Prog.keeps_pure _

/-- It holds it to the end of its `try` block. -/
theorem keeps_guardedRun (py : PyLib) (input : RunInput μ) :
    Keeps World.runLocked (guardedRun py input : Program Exc (World κ ν) _) := by
  unfold guardedRun
  refine Keeps.bind ?_ fun id => ?_
  · refine (keeps_atomic fun w h => ?_).tryExcept (keeps_onFailure input none)
    exact (runLocked_openRun input w).trans h
  · exact (keeps_runOpened py input id).tryExcept (keeps_onFailure input (some id))

/-- A run holds the lock until its last operation, which releases it. -/
theorem critical_lockedRun (py : PyLib) (input : RunInput μ) :
    Critical World.runLocked (lockedRun py input : Program Exc (World κ ν) _) := by
  unfold lockedRun
  refine Keeps.tryFinally ?_ ?_ fun _ => rfl
  · exact (keeps_setProgress _).bind fun _ => keeps_guardedRun py input
  · intro f hf w hw
    obtain rfl := List.mem_singleton.mp hf
    unfold settle
    split_ifs <;> exact hw

/-! ## The record of a failure

A history may require of its handlers that the record succeeds; this is an assumption about operations,
stated as soundness of the program.
-/

/-- In a sound handler the failure is recorded. -/
theorem recorded_of_onFailure {α : Type} {input : RunInput μ} {runId : Option ℤ} {e : Exc}
    {w : World κ ν} (h : (onFailure input runId e : Program Exc (World κ ν) α).Sound w) :
    ∃ db, recordFailure input runId e.text w.db = .ok db := by
  have hok : (recordFailure input runId e.text w.db).isOk = true := h.of_bind.1.1
  cases hrecord : recordFailure input runId e.text w.db with
  | ok db => exact ⟨db, rfl⟩
  | error e' =>
    rw [hrecord] at hok
    cases hok

/-- A run that raises, and whose failure could be recorded, has gone through one of the two handlers with
its failure recorded. -/
theorem guardedRun_recorded {py : PyLib} {input : RunInput μ} {w w' : World κ ν} {e : Exc}
    (hsound : (guardedRun py input : Program Exc (World κ ν) _).Sound w)
    (h : Ingest.guardedRun py input w = (.error e, w')) :
    (∃ w₁ db, openRun input w = (.error e, w₁) ∧
      recordFailure input none e.text w₁.db = .ok db ∧ w' = w₁.failed input none e) ∨
      ∃ id w₁ w₂ db, openRun input w = (.ok id, w₁) ∧
        Ingest.runOpened py input id w₁ = (.error e, w₂) ∧
        recordFailure input (some id) e.text w₂.db = .ok db ∧ w' = w₂.failed input (some id) e := by
  obtain ⟨hopened, hrest⟩ := hsound.of_bind
  rcases guardedRun_raises h with ⟨w₁, hopen, hw'⟩ | ⟨id, w₁, w₂, hopen, hrun, hw'⟩
  · obtain ⟨db, hdb⟩ := recorded_of_onFailure (hopened.of_tryExcept.2 e w₁ hopen)
    exact .inl ⟨w₁, db, hopen, hdb, hw'⟩
  · have hreturned : (tryExcept (atomic (openRun input)) (onFailure input none)).run w =
        (.ok id, w₁) := by
      rw [run_tryExcept]
      exact Prog.tryExcept_ok hopen
    have hraised : (runOpened py input id).run w₁ = (.error e, w₂) := by
      rw [run_runOpened]
      exact hrun
    obtain ⟨db, hdb⟩ :=
      recorded_of_onFailure ((hrest id w₁ hreturned).of_tryExcept.2 e w₂ hraised)
    exact .inr ⟨id, w₁, w₂, db, hopen, hrun, hdb, hw'⟩

/-- The guarded flow of a sound run is sound. -/
theorem sound_guardedRun {py : PyLib} {input : RunInput μ} {w : World κ ν}
    (hfree : w.runLocked = false) (h : (runIngest py input : Program Exc (World κ ν) _).Sound w) :
    (guardedRun py input : Program Exc (World κ ν) _).Sound (w.started input.clock.startedAt) :=
  (h.of_tryLock hfree).of_tryFinally.of_bind.2 () _ rfl

end Ghpulse.Ingest.Stepwise
