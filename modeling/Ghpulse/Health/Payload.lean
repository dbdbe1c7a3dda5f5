import Ghpulse.Dashboard.Aggregate
import Ghpulse.Ingest.Run
import Ghpulse.Library.Binary64

/-!
# What the process says about its ingest

The payload of `/health`, which combines the progress in memory with the latest audit row and the row of
`sync_state`, and the status that overlays a dashboard response, which reads `sync_state` alone. Neither
contains the text of an error: a text is only tested for being there.

References: `backend/app.py`, `backend/api_dashboard.py`.
-/

open Python Ghpulse.Ingest

namespace Ghpulse.Health

/-- `bool(text)`. -/
def truthy : Option Str → Bool
  | some (_ :: _) => true
  | _ => false

/-! ## `/health`

The fields in the order of the source. The public text of an error is a constant, and the entry of the
audit row has it only if the payload as a whole reports an error.
-/

/-- `ORDER BY id DESC LIMIT 1`. -/
def latestRun (db : Db) : Option IngestRun :=
  (db.ingestRuns.rows.mergeSort fun a b => decide (b.id ≤ a.id)).head?

/-- `payload["ingest_progress"]`. -/
structure ProgressDetail where
  phase : Phase
  done : ℕ
  total : ℕ
  pct : Option ℚ
  runId : Option ℤ
  startedAt : Option Instant

/-- `round(100.0 * done / total, 1) if total else None`, in double precision. -/
def percent (done total : ℕ) : Option ℚ :=
  if total = 0 then none
  else
    let quotient := Binary64.nearest
      (Binary64.nearest (100 * Binary64.nearest done) / Binary64.nearest total)
    some (Binary64.nearest (Binary64.roundEven (quotient * 10) / 10))

/-- The detail that `_ingest_progress` returns while a run is in flight. -/
def progressDetail (p : Progress) : Option ProgressDetail :=
  if p.phase = .idle then none
  else some ⟨p.phase, p.done, p.total, percent p.done p.total, p.runId, p.startedAt⟩

/-- `payload["last_attempt"]`. -/
structure LastAttempt where
  attemptedAt : Option Instant
  status : Option Str
  error : Option Str
  code : Option Str

/-- `payload["last_ingest"]`. -/
structure LastIngest where
  id : ℤ
  startedAt : Instant
  finishedAt : Option Instant
  trigger : Str
  committedAt : Option Instant
  sourceSnapshotAt : Option Instant
  error : Option Str
  errorCode : Option Str

/-- What `_health_payload` returns. -/
structure Payload where
  ok : Bool
  db : Bool
  version : Str
  ingestRunning : Bool
  ingestProgress : Option ProgressDetail
  lastSuccess : Option Instant
  lastError : Option Str
  lastErrorCode : Option Str
  stale : Bool
  syncStatus : Option Str
  lastAttempt : LastAttempt
  lastIngest : Option LastIngest
  now : Instant

/-- What `_health_payload` reads besides the database and the progress: the version, the configured
threshold, which `timedelta` may refuse, and the clock, twice. -/
structure Env where
  version : Str
  staleAfter : Except Exc ℤ
  staleAt : Instant
  now : Instant

/-- `last_success_value`. -/
def lastSuccessValue (latest : Option IngestRun) (sync : Option SyncState) : Option Instant :=
  match sync.bind SyncState.lastCommittedAt with
  | some t => some t
  | none => latest.bind IngestRun.committedAt

/-- `has_sync_error`. -/
def hasSyncError (latest : Option IngestRun) (sync : Option SyncState) (progress : Progress) : Bool :=
  truthy progress.lastError || truthy (sync.bind SyncState.lastAttemptError) ||
    truthy (latest.bind IngestRun.error) ||
    decide (sync.bind SyncState.lastAttemptStatus = some (lit "failure"))

/-- Whether the last success is too long ago; without one it is. -/
def isStale (env : Env) : Option Instant → Except Exc Bool
  | none => .ok true
  | some t => env.staleAfter.map fun limit => decide (limit < env.staleAt - t)

/-- The entry of the latest audit row; `public_error` does not contain its error. -/
def lastIngestEntry (publicError : Option Str) (run : IngestRun) : LastIngest where
  id := run.id
  startedAt := run.startedAt
  finishedAt := run.finishedAt
  trigger := run.trigger
  committedAt := run.committedAt
  sourceSnapshotAt := run.sourceSnapshotAt
  error := if truthy run.error then publicError else none
  errorCode := if truthy run.error then some syncFailureCode else none

/-- `_health_payload`, from the two rows and the progress it has read. -/
def healthPayload (env : Env) (latest : Option IngestRun) (sync : Option SyncState)
    (progress : Progress) : Except Exc Payload := do
  let lastSuccess := lastSuccessValue latest sync
  let status := sync.bind SyncState.lastAttemptStatus
  let syncStatus := if truthy status then status else none
  let failed := hasSyncError latest sync progress
  let publicError := if failed then some syncFailureMessage else none
  let stale ← isStale env lastSuccess
  return {
    ok := true
    db := true
    version := env.version
    ingestRunning := decide (progress.phase ≠ .idle)
    ingestProgress := progressDetail progress
    lastSuccess := lastSuccess
    lastError := publicError
    lastErrorCode := if truthy publicError then some syncFailureCode else none
    stale := stale
    syncStatus := syncStatus
    lastAttempt :=
      { attemptedAt := sync.bind SyncState.lastAttemptAt
        status := syncStatus
        error := if failed then some syncFailureMessage else none
        code := if failed then some syncFailureCode else none }
    lastIngest := latest.map (lastIngestEntry publicError)
    now := env.now }

/-! ## The overlay

The same two columns of `sync_state` as in `/health`, without the audit rows and the progress.
-/

/-- What `_sync_status` returns. -/
structure SyncStatus where
  syncStatus : Option Str
  syncLastAttemptAt : Option Instant
  syncErrorCode : Option Str
  syncError : Option Str

/-- `_sync_status`, from the row of `sync_state`. -/
def syncStatus : Option SyncState → SyncStatus
  | none => ⟨none, none, none, none⟩
  | some row =>
    let failed := decide (row.lastAttemptStatus = some (lit "failure")) || truthy row.lastAttemptError
    { syncStatus := row.lastAttemptStatus
      syncLastAttemptAt := row.lastAttemptAt
      syncErrorCode := if failed then some syncFailureCode else none
      syncError := if failed then some syncFailureMessage else none }

/-! ## The latest audit row

`ORDER BY id DESC LIMIT 1`.
-/

theorem mem_of_latestRun {db : Db} {r : IngestRun} (h : latestRun db = some r) :
    r ∈ db.ingestRuns.rows := by
  apply List.mem_mergeSort.mp
  exact List.mem_of_head? h

/-- No run has a higher id than the latest. -/
theorem le_of_latestRun {db : Db} {r r' : IngestRun} (h : latestRun db = some r)
    (hr' : r' ∈ db.ingestRuns.rows) : r'.id ≤ r.id := by
  have hsorted : (db.ingestRuns.rows.mergeSort fun a b => decide (b.id ≤ a.id)).Pairwise
      fun a b => decide (b.id ≤ a.id) = true := by
    apply List.pairwise_mergeSort
    · intro a b c hab hbc
      rw [decide_eq_true_eq] at hab hbc ⊢
      exact hbc.trans hab
    · intro a b
      rw [Bool.or_eq_true, decide_eq_true_eq, decide_eq_true_eq]
      exact le_total b.id a.id
  obtain ⟨rest, hrest⟩ := List.head?_eq_some_iff.mp h
  have hmem : r' ∈ db.ingestRuns.rows.mergeSort fun a b => decide (b.id ≤ a.id) :=
    List.mem_mergeSort.mpr hr'
  rw [hrest] at hsorted hmem
  rcases List.mem_cons.mp hmem with rfl | hmem
  · exact le_rfl
  · exact of_decide_eq_true (List.rel_of_pairwise_cons hsorted hmem)

/-! ## What a payload reports

The fields about errors are all derived from one condition.
-/

/-- The error fields of a payload all say whether there is a sync error. -/
theorem healthPayload_reports {env : Env} {latest : Option IngestRun} {sync : Option SyncState}
    {progress : Progress} {payload : Payload}
    (h : healthPayload env latest sync progress = .ok payload) :
    payload.lastError = (if hasSyncError latest sync progress then some syncFailureMessage else none) ∧
      payload.lastErrorCode =
        (if hasSyncError latest sync progress then some syncFailureCode else none) ∧
      payload.lastAttempt.error = payload.lastError ∧
      payload.lastAttempt.code = payload.lastErrorCode ∧
      payload.lastSuccess = lastSuccessValue latest sync := by
  obtain ⟨stale, -, h⟩ := bind_eq_ok.mp h
  cases h
  refine ⟨rfl, ?_, rfl, ?_, rfl⟩ <;> cases hasSyncError latest sync progress <;> rfl

/-- A payload is built unless the configured threshold is refused. -/
theorem healthPayload_returns {env : Env} {limit : ℤ} (h : env.staleAfter = .ok limit)
    (latest : Option IngestRun) (sync : Option SyncState) (progress : Progress) :
    ∃ payload, healthPayload env latest sync progress = .ok payload := by
  have hstale : ∃ stale, isStale env (lastSuccessValue latest sync) = .ok stale := by
    cases lastSuccessValue latest sync with
    | none => exact ⟨true, rfl⟩
    | some t => exact ⟨_, by rw [isStale, h]; rfl⟩
  obtain ⟨stale, hstale⟩ := hstale
  exact ⟨_, bind_eq_ok.mpr ⟨stale, hstale, rfl⟩⟩

end Ghpulse.Health
