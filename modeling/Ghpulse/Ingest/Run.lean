import Ghpulse.Ingest.Commit

/-!
# An ingest run

`run_ingest` with its guard, its clean-up and the records of a failed run. The local variable `run_id`
is `None` in the `except` block exactly while `_open_run` has not returned, so the two phases of the
guarded flow are handled by one handler with the id it has then.

Reference: `backend/ingest.py`.
-/

open Python Effect

namespace Ghpulse.Ingest

variable {κ ν μ : Type}

/-! ## The audit row

It is inserted in a transaction of its own before anything is fetched, so other readers see a run that is
under way.
-/

/-- `_open_run`; an id is drawn from the sequence whether or not the transaction commits. -/
def openRun (input : RunInput μ) : Prog Exc (World κ ν) ℤ := do
  Prog.ofExcept (input.reach .openConnect)
  let w ← Prog.get
  -- the sequence advances before the insert, and is not rolled back with it
  let id := w.nextRunId
  Prog.modify fun w => { w with nextRunId := id + 1 }
  let db ← .ofExcept
    (input.execute .openInsert (w.db.insertRun id input.trigger input.clock.startedAt))
  Prog.ofExcept (input.reach .openCommit)
  Prog.modify fun w => { w with db := db }
  return id

/-- What a failure writes to the row of its run. -/
def failedRun (finishedAt : Instant) (error : Str) (r : IngestRun) : IngestRun :=
  { r with
    finishedAt := some finishedAt
    error := some error }

/-- What a failure writes to `sync_state`: the columns of the last commit are kept. -/
def failedState (old : Option SyncState) (finishedAt : Instant) (error : Str) : SyncState where
  lastCommittedAt := old.bind SyncState.lastCommittedAt
  lastSourceSnapshotAt := old.bind SyncState.lastSourceSnapshotAt
  lastAttemptAt := some finishedAt
  lastAttemptStatus := some (lit "failure")
  lastAttemptError := some error
  updatedAt := finishedAt

/-- The statement of `_finish_failed_run` on the audit row; `_record_failed_attempt` has none. -/
def recordRun (input : RunInput μ) (runId : Option ℤ) (error : Str) (db : Db) : Except Exc Db :=
  match runId with
  | some runId =>
    input.execute .recordRun
      (db.updateRun runId (failedRun input.clock.failedAt error) fun _ => rfl)
  | none => .ok db

/-- The transaction of `_finish_failed_run` and, without a run id, of `_record_failed_attempt`. -/
def recordFailure (input : RunInput μ) (runId : Option ℤ) (error : Str) (db : Db) :
    Except Exc Db := do
  input.reach .recordConnect
  let db ← recordRun input runId error db
  let db ← input.execute .recordState
    (db.setSyncState (failedState db.syncState input.clock.failedAt error))
  input.reach .recordCommit
  return db

/-- `_finish_failed_run` and `_record_failed_attempt`: an exception is logged and swallowed. -/
def finishFailedRun (input : RunInput μ) (runId : Option ℤ) (error : Str) :
    Prog Exc (World κ ν) Unit :=
  .modify fun w =>
    match recordFailure input runId error w.db with
    | .ok db => { w with db := db }
    | .error _ => w

/-! ## Hooks

Both hooks are called after the database was written, the one for a failure also if that could not be
recorded.
-/

/-- `_post_commit`. -/
def postCommit (summary : Summary) : Prog Exc (World κ ν) Unit :=
  .modify fun w =>
    { w with
      responseCache := w.responseCache.invalidate
      broadcasts := w.broadcasts ++ [.ingestDone summary] }

/-- `SYNC_FAILURE_CODE`. -/
def syncFailureCode : Str := lit "SYNC_FAILED"

/-- `SYNC_FAILURE_MESSAGE`. -/
def syncFailureMessage : Str := lit "sync failed"

/-- The payload of `_post_failure`; the error itself is not part of it. -/
def failurePayload (input : RunInput μ) : FailurePayload where
  trigger := input.trigger
  status := lit "failure"
  code := syncFailureCode
  error := syncFailureMessage
  postedAt := input.clock.postedAt

/-- `_post_failure`. -/
def postFailure (input : RunInput μ) : Prog Exc (World κ ν) Unit :=
  .modify fun w => { w with broadcasts := w.broadcasts ++ [.ingestFailed (failurePayload input)] }

/-! ## Acquisition

Everything that can go wrong before a snapshot is there: a missing variable, the source, the validation,
and an account that is not the configured one. All of these raise.
-/

/-- `os.environ.get(a) or os.environ.get(b)`, with the empty text for a missing one. -/
def firstNonEmpty (a b : Option Str) : Str :=
  match a with
  | some (c :: cs) => c :: cs
  | _ => b.getD []

/-- `GH_USER` as `run_ingest` reads it. -/
def Env.login (env : Env) : Str := firstNonEmpty env.ghUser env.githubUser

/-- `_configured_credentials`. -/
def configuredCredentials (env : Env) : Except Exc (Str × Str) :=
  let token := firstNonEmpty env.ghToken env.githubToken
  let missing := (if token = [] then [lit "GH_TOKEN"] else []) ++
    (if env.login = [] then [lit "GH_USER"] else [])
  if token = [] ∨ env.login = [] then
    .error (sourceError
      (lit "missing GitHub ingest configuration: " ++ (lit ", ").intercalate missing))
  else .ok (token, env.login)

/-- `fetch_snapshot` with the exceptions of the source wrapped. -/
def acquire (input : RunInput μ) (token login : Str) : Except Exc (Json μ) :=
  match input.fetch token login with
  | .returned snapshot => .ok snapshot
  | .sourceError message => .error (sourceError message)
  | .raised text => .error (sourceError (lit "GitHub snapshot acquisition failed: " ++ text))

/-- What a run commits: the validated snapshot of the configured account. -/
def acquireValidated (py : PyLib) (input : RunInput μ) : Except Exc Snapshot := do
  let (token, login) ← configuredCredentials input.env
  let snapshot ← acquire input token login
  let s ← validateSnapshot py snapshot
  ensure (decide (py.casefold s.login = py.casefold login))
    (lit "snapshot account does not match configured GH_USER")
  return s

/-! ## The run

The order is that of the source: lock, progress, audit row, guarded flow, handler, and the reset in
`finally`.
-/

/-- What `run_ingest` returns. -/
inductive Outcome where
  | skipped (trigger : Str)
  | finished (summary : Summary)

/-- The guarded flow after `_open_run` has returned. -/
def runOpened (py : PyLib) (input : RunInput μ) (runId : ℤ) : Prog Exc (World κ ν) Outcome := do
  setProgress fun p => { p with runId := some runId }
  let s ← .ofExcept (acquireValidated py input)
  setProgress fun p =>
    { p with
      phase := .validated
      total := s.repositories.length + s.issues.length + s.pullRequests.length
      done := 0 }
  let summary ← commitSnapshot input runId input.clock.startedAt s
  -- the hooks run after the commit
  let summary := { summary with trigger := some input.trigger }
  postCommit summary
  return .finished summary

/-- `f"{type(exc).__name__}: {exc}"`. -/
def Exc.text (e : Exc) : Str := e.typeName ++ lit ": " ++ e.message

/-- The `except` block of `run_ingest`. -/
def onFailure {α : Type} (input : RunInput μ) (runId : Option ℤ) (e : Exc) :
    Prog Exc (World κ ν) α := do
  finishFailedRun input runId e.text
  postFailure input
  setProgress fun _ => .reset (some e.text)
  Prog.raise e

/-- The `try` and `except` blocks of `run_ingest`. -/
def guardedRun (py : PyLib) (input : RunInput μ) : Prog Exc (World κ ν) Outcome := do
  -- a failure to open the run has no audit row to finish
  let runId ← Prog.tryExcept (openRun input) (onFailure input none)
  Prog.tryExcept (runOpened py input runId) (onFailure input (some runId))

/-- The `finally` block of `run_ingest`: an unfinished progress is reset. -/
def settle (w : World κ ν) : World κ ν :=
  if w.progress.phase = .idle then w else { w with progress := .reset none }

/-- The progress when a run starts. -/
def Progress.acquiring (startedAt : Instant) : Progress :=
  ⟨.acquiring, 0, 0, none, some startedAt, none⟩

/-- The process when a run has taken the lock. -/
def World.started (w : World κ ν) (startedAt : Instant) : World κ ν :=
  { w with
    runLocked := true
    progress := .acquiring startedAt }

/-- `run_ingest`: a run that does not get the lock is skipped, any other releases it at the end. -/
def runIngest (py : PyLib) (input : RunInput μ) : Prog Exc (World κ ν) Outcome := do
  let w ← Prog.get
  if w.runLocked then return .skipped input.trigger
  else
    Prog.modify fun w => w.started input.clock.startedAt
    Prog.tryFinally (guardedRun py input) fun w => { settle w with runLocked := false }

/-! ## What a run does

A run that returns has gone through each step once, and these lemmas name the states in between.
-/

theorem runIngest_locked {py : PyLib} {input : RunInput μ} {w : World κ ν} (h : w.runLocked = true) :
    runIngest py input w = (.ok (.skipped input.trigger), w) := by
  show (if w.runLocked = true then _ else _ : Prog Exc (World κ ν) Outcome) w = _
  rw [if_pos h]
  rfl

theorem of_runIngest {py : PyLib} {input : RunInput μ} {w w' : World κ ν}
    {result : Except Exc Outcome} (hfree : w.runLocked = false)
    (h : runIngest py input w = (result, w')) :
    ∃ w₁, guardedRun py input (w.started input.clock.startedAt) = (result, w₁) ∧
      w' = { settle w₁ with runLocked := false } := by
  have hrun : (if w.runLocked = true then _ else _ : Prog Exc (World κ ν) Outcome) w =
    (result, w') := h
  rw [if_neg (by rw [hfree]; exact Bool.false_ne_true)] at hrun
  obtain ⟨rfl, rfl⟩ := Prod.mk.inj (Prog.modify_bind.mp hrun)
  exact ⟨_, rfl, rfl⟩

/-- The handler never returns. -/
theorem onFailure_ne_ok {α : Type} {input : RunInput μ} {runId : Option ℤ} {e : Exc}
    {w w' : World κ ν} {a : α} : onFailure input runId e w ≠ (.ok a, w') := by
  intro h
  cases Prog.modify_bind.mp (Prog.modify_bind.mp (Prog.modify_bind.mp h))

/-- A run that returns went through its guarded flow without a handler. -/
theorem guardedRun_returns {py : PyLib} {input : RunInput μ} {w w' : World κ ν} {outcome : Outcome}
    (h : guardedRun py input w = (.ok outcome, w')) :
    ∃ (id : ℤ) (w₁ : World κ ν), openRun input w = (.ok id, w₁) ∧
      runOpened py input id w₁ = (.ok outcome, w') := by
  obtain ⟨id, w₁, hopen, hrun⟩ := Prog.bind_eq_ok.mp h
  rcases Prog.of_tryExcept_ok hopen with hopen | ⟨e, w₂, -, hhandler⟩
  · rcases Prog.of_tryExcept_ok hrun with hrun | ⟨e, w₂, -, hhandler⟩
    · exact ⟨id, w₁, hopen, hrun⟩
    · exact absurd hhandler onFailure_ne_ok
  · exact absurd hhandler onFailure_ne_ok

/-- An opened run that returns has acquired a valid snapshot and committed it. -/
theorem of_runOpened_ok {py : PyLib} {input : RunInput μ} {runId : ℤ} {w w' : World κ ν}
    {outcome : Outcome} (h : runOpened py input runId w = (.ok outcome, w')) :
    ∃ (s : Snapshot) (summary : Summary) (w₁ w₂ : World κ ν),
      acquireValidated py input = .ok s ∧
      commitSnapshot input runId input.clock.startedAt s w₁ = (.ok summary, w₂) ∧
      w₁.db = w.db ∧ w'.db = w₂.db ∧ w'.progress = w₂.progress ∧
      outcome = .finished { summary with trigger := some input.trigger } := by
  have h := Prog.modify_bind.mp h
  obtain ⟨s, hs, h⟩ := Prog.ofExcept_bind_eq_ok.mp h
  have h := Prog.modify_bind.mp h
  obtain ⟨summary, w₂, hcommit, h⟩ := Prog.bind_eq_ok.mp h
  cases Prog.modify_bind.mp h
  exact ⟨s, summary, _, w₂, hs, hcommit, rfl, rfl, rfl, rfl⟩

/-- A run that returns has opened its audit row, acquired a valid snapshot and committed it. -/
theorem of_guardedRun_ok {py : PyLib} {input : RunInput μ} {w w' : World κ ν} {outcome : Outcome}
    (h : guardedRun py input w = (.ok outcome, w')) :
    ∃ (id : ℤ) (s : Snapshot) (summary : Summary) (w₁ w₂ w₃ : World κ ν),
      openRun input w = (.ok id, w₁) ∧ acquireValidated py input = .ok s ∧
      commitSnapshot input id input.clock.startedAt s w₂ = (.ok summary, w₃) ∧
      w₂.db = w₁.db ∧ w'.db = w₃.db ∧
      outcome = .finished { summary with trigger := some input.trigger } := by
  obtain ⟨id, w₁, hopen, hrun⟩ := guardedRun_returns h
  obtain ⟨s, summary, w₂, w₃, hs, hcommit, hdb, hdb', -, houtcome⟩ := of_runOpened_ok hrun
  exact ⟨id, s, summary, w₁, w₂, w₃, hopen, hs, hcommit, hdb, hdb', houtcome⟩

end Ghpulse.Ingest
