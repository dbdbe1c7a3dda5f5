import Ghpulse.Cache.TTLCache
import Ghpulse.Ingest.Validate
import Ghpulse.Library.Effect

/-!
# The commit transaction

The process an ingest run works in, what its environment can do to it, and `_commit_snapshot`. A
statement runs against the state of the open transaction, which is passed along explicitly; the
database of the process changes where the source commits and nowhere else. `faults` names what the
connection raises at each point a run can reach, so a theorem about every `faults` covers every point
of failure.

Reference: `backend/ingest.py`.
-/

open Python Effect

namespace Ghpulse.Ingest

/-! ## The process

`_PROGRESS` and the database are separate fields, since other threads read the progress while a
transaction is open and see nothing of the transaction.
-/

/-- `_PROGRESS["phase"]`. -/
inductive Phase where
  | idle
  | acquiring
  | validated
  | committing
  deriving DecidableEq

/-- `_PROGRESS`. -/
structure Progress where
  phase : Phase
  done : ℕ
  total : ℕ
  runId : Option ℤ
  startedAt : Option Instant
  lastError : Option Str

/-- What `_reset_progress` sets, and `_PROGRESS` is at first. -/
def Progress.reset (error : Option Str) : Progress := ⟨.idle, 0, 0, none, none, error⟩

/-- What `_commit_snapshot` returns, with the `trigger` that `run_ingest` adds. -/
structure Summary where
  id : ℤ
  startedAt : Instant
  finishedAt : Instant
  committedAt : Instant
  sourceSnapshotAt : Instant
  fetched : Counts
  upserted : Counts
  deleted : Counts
  dataChanged : Bool
  error : Option Str
  skipped : Bool
  trigger : Option Str

/-- The payload of `ingest_failed`. -/
structure FailurePayload where
  trigger : Str
  status : Str
  code : Str
  error : Str
  postedAt : Instant

/-- A call of `events.broadcast_threadsafe`. -/
inductive Broadcast where
  | ingestDone (summary : Summary)
  | ingestFailed (payload : FailurePayload)

variable {κ ν μ : Type}

/-- What a run works on: the committed database, the sequence of `ingest_runs`, and the state of the
process. -/
structure World (κ ν : Type) where
  db : Db
  nextRunId : ℤ
  runLocked : Bool
  progress : Progress
  responseCache : Cache.TTLCache κ ν
  broadcasts : List Broadcast

/-- A fresh process over a database, whose next run has the id 1. -/
def World.start (db : Db) (ttlSeconds : ℚ) : World κ ν :=
  ⟨db, 1, false, .reset none, .new ttlSeconds, []⟩

/-! ## The environment

Everything a run does not decide itself is in its input: variables, clock readings, what the source
returns or raises, and a fault for each point at which the connection is used.
-/

/-- The points of a run at which the connection can raise. -/
inductive Point where
  | openConnect
  | openInsert
  | openCommit
  | commitConnect
  | upsertRepository (index : ℕ)
  | upsertIssue (index : ℕ)
  | upsertPullRequest (index : ℕ)
  | touchRepositories
  | deleteIssues
  | deletePullRequests
  | deleteRepositories
  | syncState
  | finishRun
  | commit
  | rollback
  | recordConnect
  | recordRun
  | recordState
  | recordCommit
  deriving DecidableEq

/-- The variables `_configured_credentials` reads. -/
structure Env where
  ghToken : Option Str
  githubToken : Option Str
  ghUser : Option Str
  githubUser : Option Str

/-- What `fetch_snapshot` does: it returns any JSON value, or raises a `SourceError` or another
exception, of which only the text is used. -/
inductive Fetched (ν : Type) where
  | returned (snapshot : Json ν)
  | sourceError (message : Str)
  | raised (text : Str)

/-- The readings of `datetime.now(timezone.utc)` in a run. -/
structure Clock where
  startedAt : Instant
  committedAt : Instant
  finishedAt : Instant
  failedAt : Instant
  postedAt : Instant

/-- What a run meets: its trigger and the behaviour of everything outside the module. -/
structure RunInput (ν : Type) where
  trigger : Str
  env : Env
  fetch : Str → Str → Fetched ν
  clock : Clock
  /-- What the connection raises at a point; a commit that raises has not taken effect. -/
  faults : Point → Option Exc
  /-- What the connection raises when the server refuses the statement at a point. -/
  refusal : Point → Exc

/-- A run of the user `me` that meets no fault, at a fixed time. -/
def quietInput (fetch : Str → Str → Fetched μ) : RunInput μ where
  trigger := lit "manual"
  env := ⟨some (lit "token"), none, some (lit "me"), none⟩
  fetch := fetch
  clock := ⟨0, 0, 0, 0, 0⟩
  faults _ := none
  refusal _ := ⟨lit "DataError", []⟩

/-- One statement, which the server executes unless the schema refuses it. -/
def RunInput.execute {α : Type} (input : RunInput μ) (p : Point) (effect : Option α) :
    Except Exc α :=
  match input.faults p with
  | some e => .error e
  | none =>
    match effect with
    | some a => .ok a
    | none => .error (input.refusal p)

theorem RunInput.execute_eq_ok {α : Type} {input : RunInput μ} {p : Point} {effect : Option α}
    {a : α} : input.execute p effect = .ok a ↔ input.faults p = none ∧ effect = some a := by
  unfold RunInput.execute
  cases input.faults p with
  | some e => simp
  | none => cases effect <;> simp

/-- A point at which no statement is refused. -/
def RunInput.reach (input : RunInput μ) (p : Point) : Except Exc Unit := input.execute p (some ())

/-- `_set_progress`. -/
def setProgress (f : Progress → Progress) : Prog Exc (World κ ν) Unit :=
  .modify fun w => { w with progress := f w.progress }

/-! ## Statements

The loops count the rows that a statement reports as written. An upsert that changes no column writes no
row, so counting is part of the meaning of the conflict clause.
-/

/-- The row of a repository; the columns `is_private` and `is_external` are constants. -/
def RepositoryRecord.row (r : RepositoryRecord) (firstSeenAt lastSeenAt : Instant) : Repository where
  nodeId := r.nodeId
  nameWithOwner := r.nameWithOwner
  ownerLogin := r.ownerLogin
  url := r.url
  isPrivate := false
  isExternal := true
  firstSeenAt := firstSeenAt
  lastSeenAt := lastSeenAt

/-- The row of an issue, if no `NOT NULL` column is missing. -/
def IssueRecord.row (r : IssueRecord) : Option Issue :=
  match r.createdAt, r.updatedAt with
  | some createdAt, some updatedAt =>
    some
      { nodeId := r.nodeId
        repositoryId := r.repositoryId
        number := r.number
        url := r.url
        isPrivate := false
        createdAt := createdAt
        updatedAt := updatedAt
        closedAt := r.closedAt
        state := r.state
        stateReason := r.stateReason }
  | _, _ => none

/-- The row of a pull request, if no `NOT NULL` column is missing. -/
def PullRequestRecord.row (r : PullRequestRecord) : Option PullRequest :=
  match r.createdAt, r.updatedAt with
  | some createdAt, some updatedAt =>
    some
      { nodeId := r.nodeId
        repositoryId := r.repositoryId
        number := r.number
        url := r.url
        isPrivate := false
        createdAt := createdAt
        updatedAt := updatedAt
        closedAt := r.closedAt
        mergedAt := r.mergedAt
        state := r.state
        merged := r.merged }
  | _, _ => none

theorem of_issue_row {r : IssueRecord} {row : Issue} (h : r.row = some row) :
    ∃ createdAt updatedAt, r.createdAt = some createdAt ∧ r.updatedAt = some updatedAt ∧
      row = ⟨r.nodeId, r.repositoryId, r.number, r.url, false, createdAt, updatedAt, r.closedAt,
        r.state, r.stateReason⟩ := by
  unfold IssueRecord.row at h
  split at h
  · rename_i createdAt updatedAt hcreated hupdated
    cases h
    exact ⟨createdAt, updatedAt, hcreated, hupdated, rfl⟩
  · cases h

theorem of_pullRequest_row {r : PullRequestRecord} {row : PullRequest} (h : r.row = some row) :
    ∃ createdAt updatedAt, r.createdAt = some createdAt ∧ r.updatedAt = some updatedAt ∧
      row = ⟨r.nodeId, r.repositoryId, r.number, r.url, false, createdAt, updatedAt, r.closedAt,
        r.mergedAt, r.state, r.merged⟩ := by
  unfold PullRequestRecord.row at h
  split at h
  · rename_i createdAt updatedAt hcreated hupdated
    cases h
    exact ⟨createdAt, updatedAt, hcreated, hupdated, rfl⟩
  · cases h

/-- `_upsert_repositories`. -/
def upsertRepositories (input : RunInput μ) (repositories : List RepositoryRecord)
    (observedAt : Instant) (db : Db) : Except Exc (Db × ℕ) :=
  Keyed.upsertAll
    (fun i r db => input.execute (.upsertRepository i)
      (db.upsertRepository (r.row observedAt observedAt))) 0 repositories db

/-- `_upsert_issues`. -/
def upsertIssues (input : RunInput μ) (issues : List IssueRecord) (db : Db) :
    Except Exc (Db × ℕ) :=
  Keyed.upsertAll
    (fun i r db => input.execute (.upsertIssue i) (r.row.bind db.upsertIssue)) 0 issues db

/-- `_upsert_pull_requests`. -/
def upsertPullRequests (input : RunInput μ) (pullRequests : List PullRequestRecord) (db : Db) :
    Except Exc (Db × ℕ) :=
  Keyed.upsertAll
    (fun i r db => input.execute (.upsertPullRequest i) (r.row.bind db.upsertPullRequest)) 0
    pullRequests db

/-- The row a commit writes to `sync_state`. -/
def committedState (sourceAt committedAt : Instant) : SyncState where
  lastCommittedAt := some committedAt
  lastSourceSnapshotAt := some sourceAt
  lastAttemptAt := some committedAt
  lastAttemptStatus := some (lit "success")
  lastAttemptError := none
  updatedAt := committedAt

/-- What a commit writes to the row of its run. -/
def committedRun (summary : Summary) (r : IngestRun) : IngestRun :=
  { r with
    finishedAt := some summary.finishedAt
    committedAt := some summary.committedAt
    sourceSnapshotAt := some summary.sourceSnapshotAt
    fetched := summary.fetched
    upserted := summary.upserted
    deleted := summary.deleted
    dataChanged := summary.dataChanged
    error := none }

theorem committedRun_id (summary : Summary) (r : IngestRun) : (committedRun summary r).id = r.id := rfl

/-! ## The transaction

The state of the open transaction is passed along, and only the commit puts it into the process.
-/

/-- The number of rows of a snapshot. -/
def Snapshot.fetched (s : Snapshot) : Counts :=
  ⟨s.repositories.length, s.issues.length, s.pullRequests.length⟩

/-- The statements of `_commit_snapshot` on the three current-state tables, with the counts of
written and of deleted rows. -/
def replaceTables (input : RunInput μ) (s : Snapshot) (db : Db) :
    Prog Exc (World κ ν) (Db × Counts × Counts) := do
  let committedAt := input.clock.committedAt
  let ids := s.repositories.map RepositoryRecord.nodeId
  let (db, repositoriesUpserted) ← .ofExcept (upsertRepositories input s.repositories committedAt db)
  setProgress fun p => { p with done := s.repositories.length }
  let (db, issuesUpserted) ← .ofExcept (upsertIssues input s.issues db)
  setProgress fun p => { p with done := s.repositories.length + s.issues.length }
  let (db, pullRequestsUpserted) ← .ofExcept (upsertPullRequests input s.pullRequests db)
  setProgress fun p =>
    { p with done := s.repositories.length + s.issues.length + s.pullRequests.length }
  let db ← .ofExcept (input.execute .touchRepositories (db.touchRepositories committedAt ids))
  let (db, issuesDeleted) ← .ofExcept
    (input.execute .deleteIssues (some (db.deleteIssues (s.issues.map IssueRecord.nodeId))))
  let (db, pullRequestsDeleted) ← .ofExcept
    (input.execute .deletePullRequests
      (some (db.deletePullRequests (s.pullRequests.map PullRequestRecord.nodeId))))
  let (db, repositoriesDeleted) ← .ofExcept
    (input.execute .deleteRepositories (some (db.deleteRepositories ids)))
  return (db, ⟨repositoriesUpserted, issuesUpserted, pullRequestsUpserted⟩,
    ⟨repositoriesDeleted, issuesDeleted, pullRequestsDeleted⟩)

/-- `any((repositories_upserted, …, pull_requests_deleted))`. -/
def anyCount (upserted deleted : Counts) : Bool :=
  [upserted.repositories, upserted.issues, upserted.pullRequests, deleted.repositories,
    deleted.issues, deleted.pullRequests].any fun n => decide (n ≠ 0)

/-- The dictionary that `_commit_snapshot` returns. -/
def commitSummary (clock : Clock) (runId : ℤ) (startedAt : Instant) (s : Snapshot)
    (upserted deleted : Counts) : Summary where
  id := runId
  startedAt := startedAt
  finishedAt := clock.finishedAt
  committedAt := clock.committedAt
  sourceSnapshotAt := s.sourceAt
  fetched := s.fetched
  upserted := upserted
  deleted := deleted
  dataChanged := anyCount upserted deleted
  error := none
  skipped := false
  trigger := none

/-- The body of the `try` block of `_commit_snapshot`: the state to commit and the summary. -/
def applySnapshot (input : RunInput μ) (runId : ℤ) (startedAt : Instant) (s : Snapshot) (db : Db) :
    Prog Exc (World κ ν) (Db × Summary) := do
  let (db, upserted, deleted) ← replaceTables input s db
  let db ← .ofExcept
    (input.execute .syncState (db.setSyncState (committedState s.sourceAt input.clock.committedAt)))
  let summary := commitSummary input.clock runId startedAt s upserted deleted
  let db ← .ofExcept
    (input.execute .finishRun (db.updateRun runId (committedRun summary) (committedRun_id summary)))
  Prog.ofExcept (input.reach .commit)
  return (db, summary)

/-- `_commit_snapshot`; a rollback that raises replaces the exception. -/
def commitSnapshot (input : RunInput μ) (runId : ℤ) (startedAt : Instant) (s : Snapshot) :
    Prog Exc (World κ ν) Summary := do
  let total := s.repositories.length + s.issues.length + s.pullRequests.length
  setProgress fun p => { p with phase := .committing, total := total, done := 0 }
  Prog.ofExcept (input.reach .commitConnect)
  let w ← Prog.get
  let (db, summary) ← Prog.tryExcept (applySnapshot input runId startedAt s w.db) fun e => do
    Prog.ofExcept (input.reach .rollback)
    Prog.raise e
  Prog.modify fun w => { w with db := db }
  return summary

end Ghpulse.Ingest
