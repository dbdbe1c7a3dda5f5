import Ghpulse.Dashboard.Aggregate
import Ghpulse.Health.Redaction

/-!
# The public surface

Everything that a client sees of the process: the answers of `/health`, the answers of `/api/dashboard`
with the response cache before them and the current status overlaid on them, and the broadcast events.
The requests and the ingest runs are programs over one shared state. Two histories of them that differ in
the exceptions that are raised, but not in the steps at which they are raised, answer alike and broadcast
the same events.

References: `backend/app.py`, `backend/api_dashboard.py`, `backend/cache.py`.
-/

open Python Effect Interleave Ghpulse.Ingest

namespace Ghpulse.Health

variable {κ ν μ : Type}

/-! ## What alike rows say

What the payload and the overlay do with a text of an error is to test it for being there. Replacing one
text by another therefore changes nothing, and replacing a whole row by an alike one is such a
replacement.
-/

theorem of_publicRun {r r' : IngestRun} (h : publicRun r = publicRun r') :
    ∃ error, r' = { r with error := error } ∧ truthy r.error = truthy error := by
  have hrow : { r with error := none } = { r' with error := none } := congrArg Prod.fst h
  have hself := congrArg (fun row : IngestRun => { row with error := r'.error }) hrow
  exact ⟨r'.error, hself.symm, congrArg Prod.snd h⟩

theorem of_publicState {s s' : SyncState} (h : publicState s = publicState s') :
    ∃ error, s' = { s with lastAttemptError := error } ∧ truthy s.lastAttemptError = truthy error := by
  have hrow : { s with lastAttemptError := none } = { s' with lastAttemptError := none } :=
    congrArg Prod.fst h
  have hself := congrArg (fun row : SyncState => { row with lastAttemptError := s'.lastAttemptError })
    hrow
  exact ⟨s'.lastAttemptError, hself.symm, congrArg Prod.snd h⟩

theorem of_publicProgress {p p' : Progress} (h : publicProgress p = publicProgress p') :
    ∃ error, p' = { p with lastError := error } ∧ truthy p.lastError = truthy error := by
  have hrow : { p with lastError := none } = { p' with lastError := none } := congrArg Prod.fst h
  have hself := congrArg (fun row : Progress => { row with lastError := p'.lastError }) hrow
  exact ⟨p'.lastError, hself.symm, congrArg Prod.snd h⟩

/-- Options whose public parts are equal are both empty, or both rows with equal public parts. -/
theorem rel_of_map {α β : Type} {f : α → β} {x y : Option α} (h : x.map f = y.map f) :
    Option.Rel (fun a b => f a = f b) x y := by
  cases x with
  | none =>
    cases y with
    | none => exact .none
    | some b => cases h
  | some a =>
    cases y with
    | none => cases h
    | some b => exact .some (Option.some.inj h)

/-- The payload tests the text of the audit row only for being there. -/
theorem healthPayload_run {env : Env} {r : IngestRun} {error : Option Str}
    (h : truthy r.error = truthy error) (sync : Option SyncState) (progress : Progress) :
    healthPayload env (some r) sync progress =
      healthPayload env (some { r with error := error }) sync progress := by
  have hentry (publicError : Option Str) :
      lastIngestEntry publicError r = lastIngestEntry publicError { r with error := error } := by
    unfold lastIngestEntry
    rw [h]
  have hfailed : hasSyncError (some r) sync progress =
      hasSyncError (some { r with error := error }) sync progress := by
    unfold hasSyncError
    rw [Option.bind_some, Option.bind_some, h]
  simp only [healthPayload, hfailed, Option.map_some, hentry]
  rfl

/-- The payload tests the text in `sync_state` only for being there. -/
theorem healthPayload_sync {env : Env} {s : SyncState} {error : Option Str}
    (h : truthy s.lastAttemptError = truthy error) (latest : Option IngestRun) (progress : Progress) :
    healthPayload env latest (some s) progress =
      healthPayload env latest (some { s with lastAttemptError := error }) progress := by
  have hfailed : hasSyncError latest (some s) progress =
      hasSyncError latest (some { s with lastAttemptError := error }) progress := by
    unfold hasSyncError
    simp only [Option.bind_some, h]
  unfold healthPayload
  rw [hfailed]
  rfl

/-- The payload tests the text in the progress only for being there. -/
theorem healthPayload_progress {env : Env} {p : Progress} {error : Option Str}
    (h : truthy p.lastError = truthy error) (latest : Option IngestRun) (sync : Option SyncState) :
    healthPayload env latest sync p = healthPayload env latest sync { p with lastError := error } := by
  have hfailed : hasSyncError latest sync p = hasSyncError latest sync { p with lastError := error } := by
    unfold hasSyncError
    rw [h]
  unfold healthPayload
  rw [hfailed]
  rfl

/-- `/health` says the same of alike rows and alike progress. -/
theorem healthPayload_congr {latest latest' : Option IngestRun} {sync sync' : Option SyncState}
    {progress progress' : Progress} (hlatest : latest.map publicRun = latest'.map publicRun)
    (hsync : sync.map publicState = sync'.map publicState)
    (hprogress : publicProgress progress = publicProgress progress') (env : Env) :
    healthPayload env latest sync progress = healthPayload env latest' sync' progress' := by
  -- one row after the other, with the rest as it was
  have hfirst : healthPayload env latest sync progress = healthPayload env latest' sync progress := by
    cases rel_of_map hlatest with
    | none => rfl
    | some hr =>
      obtain ⟨error, rfl, htruthy⟩ := of_publicRun hr
      exact healthPayload_run htruthy sync progress
  have hsecond : healthPayload env latest' sync progress =
      healthPayload env latest' sync' progress := by
    cases rel_of_map hsync with
    | none => rfl
    | some hs =>
      obtain ⟨error, rfl, htruthy⟩ := of_publicState hs
      exact healthPayload_sync htruthy latest' progress
  obtain ⟨error, rfl, htruthy⟩ := of_publicProgress hprogress
  exact (hfirst.trans hsecond).trans (healthPayload_progress htruthy latest' sync')

/-- The overlay says the same of alike rows. -/
theorem syncStatus_congr {sync sync' : Option SyncState}
    (h : sync.map publicState = sync'.map publicState) : syncStatus sync = syncStatus sync' := by
  cases rel_of_map h with
  | none => rfl
  | some hs =>
    obtain ⟨error, rfl, htruthy⟩ := of_publicState hs
    simp only [syncStatus, htruthy]

/-- The latest audit rows of alike databases are alike. -/
theorem AlikeDb.latestRun {db db' : Db} (h : AlikeDb db db') :
    (latestRun db).map publicRun = (Health.latestRun db').map publicRun := by
  have hsort (db : Db) : (Health.latestRun db).map publicRun =
      ((db.ingestRuns.rows.map publicRun).mergeSort fun a b => decide (b.1.id ≤ a.1.id)).head? := by
    rw [Health.latestRun, ← List.head?_map]
    exact congrArg List.head? (List.map_mergeSort fun _ _ _ _ => rfl)
  rw [hsort, hsort, h.runs]

/-- The dashboard of alike databases is the same. -/
theorem AlikeDb.dashboard {db db' : Db} (h : AlikeDb db db') (printable : CodePoint → Bool)
    (collate : Str → Str → Bool) (clock : Dashboard.ReadClock) (rng : Str) (repository : Option Str) :
    Dashboard.dashboard printable collate db clock rng repository =
      Dashboard.dashboard printable collate db' clock rng repository := by
  have hlast : Dashboard.lastIngest db = Dashboard.lastIngest db' := by
    have hsync := h.sync
    unfold Dashboard.lastIngest
    generalize db.syncState = sync at hsync ⊢
    generalize db'.syncState = sync' at hsync ⊢
    cases rel_of_map hsync with
    | none => rfl
    | some hs =>
      obtain ⟨error, rfl, -⟩ := of_publicState hs
      rfl
  rw [h.eq_withAudit] at hlast ⊢
  have hbuild (window : Dashboard.RangeWindow) :
      Dashboard.dashboardBuild collate db window repository clock.startedAt =
        Dashboard.dashboardBuild collate (withAudit db db'.ingestRuns db'.syncState) window repository
          clock.startedAt := by
    unfold Dashboard.dashboardBuild
    rw [hlast]
    rfl
  unfold Dashboard.dashboard
  simp only [hbuild]
  rfl

/-! ## The site

The shared state: the process of the ingest runs, the registry of refreshes, the locks of the keys, and
the queued jobs. A call is a program over it, whose operations are atomic; the scheduler interleaves those
of different calls.
-/

open Dashboard (Body Failure ReadClock)

/-- The arguments of `dashboard`. -/
structure DashboardCall where
  rng : Str
  repository : Option Str
  visibility : Str
  fresh : Bool

/-- A refresh that the pool has accepted: the call, and the generation when it was scheduled. -/
structure Job where
  call : DashboardCall
  generation : ℕ

/-- What the ingest runs, the requests and the refresh workers share: the process of the ingest, with the
database and the response cache, and the registries of the cache. -/
structure Site (κ : Type) where
  world : World κ Body
  refreshing : κ → Bool
  keyLocked : κ → Bool
  jobs : List Job

/-- Change the response cache. -/
def Site.setCache (s : Site κ) (cache : Cache.TTLCache κ Body) : Site κ :=
  { s with world := { s.world with responseCache := cache } }

/-- What the dashboard depends on besides the database: `str.isprintable`, the order of the database's
collation, and how the cache names a call. -/
structure Setting (κ : Type) where
  py : PyLib
  printable : CodePoint → Bool
  collate : Str → Str → Bool
  key : DashboardCall → κ

/-! ### `/health`

What the endpoint reads, operation by operation, and what it answers when a query raises.
-/

/-- What a request of `/health` meets; a query raises what it is given. -/
structure HealthInput where
  env : Env
  latestFault : Option Exc
  syncFault : Option Exc

/-- The body of the answer 503. -/
structure Unavailable where
  ok : Bool
  db : Bool
  version : Str
  error : Str
  errorCode : Str
  now : Instant

/-- The answer of `health` when its payload could not be built. -/
def unavailable (env : Env) : Unavailable where
  ok := false
  db := false
  version := env.version
  error := lit "database unavailable"
  errorCode := lit "DATABASE_UNAVAILABLE"
  now := env.now

/-- What a request of `/health` is answered. -/
inductive HealthReply where
  | payload (payload : Payload)
  | unavailable (body : Unavailable)

/-- A query: it raises, or it reads. -/
def query {α : Type} (fault : Option Exc) (f : Site κ → α) : Program Exc (Site κ) α :=
  match fault with
  | some e => .raise e
  | none => .read f

/-- `health`: two queries, then the progress; whatever is raised answers 503. -/
def health (input : HealthInput) : Program Exc (Site κ) HealthReply :=
  Program.tryExcept
    (do
      let latest ← query input.latestFault fun s => latestRun s.world.db
      let sync ← query input.syncFault fun s => s.world.db.syncState
      let progress ← Program.read fun s => s.world.progress
      let payload ← .ofExcept (healthPayload input.env latest sync progress)
      return HealthReply.payload payload)
    fun _ => return HealthReply.unavailable (unavailable input.env)

/-! ### `/api/dashboard`

The route serves what the cache holds or computes a body, and lays the sync status over it.
-/

/-- What a computation of the dashboard meets; the read transaction raises what it is given. -/
structure ComputeInput where
  clock : ReadClock
  fault : Option Exc

/-- What a request of `/api/dashboard` meets: the readings of the cache's clock, whether the pool accepts
a refresh, and whether the query of the overlay raises. -/
structure DashboardInput where
  call : DashboardCall
  compute : ComputeInput
  lookupAt : ℚ
  recheckAt : ℚ
  putAt : ℚ
  accepted : Bool
  overlayFault : Option Exc

/-- What a request of `/api/dashboard` is answered: the body with the current status, the answer of an
`HTTPException`, or an internal error, which has no text. -/
inductive DashboardReply where
  | response (body : Body) (status : SyncStatus)
  | http (status : ℕ) (detail : Str)
  | internalError

/-- Read and change the state in one operation. -/
def exchange {α : Type} (f : Site κ → α × Site κ) : Program Exc (Site κ) α :=
  .atomic fun s => (.ok (f s).1, (f s).2)

section Cached

variable [DecidableEq κ] (setting : Setting κ)

/-- `dashboard`, in one read transaction. -/
def compute (call : DashboardCall) (input : ComputeInput) :
    Program Exc (Site κ) (Except Failure Body) :=
  match input.fault with
  | some e => return .error (.raised e)
  | none => .read fun s =>
    Dashboard.dashboard setting.printable setting.collate s.world.db input.clock call.rng call.repository

/-- `response_cache.get_entry`. -/
def getEntry (now : ℚ) (key : κ) : Program Exc (Site κ) (Option (Body × Bool)) :=
  exchange fun s =>
    ((s.world.responseCache.getEntry now key).1, s.setCache (s.world.responseCache.getEntry now key).2)

/-- `_schedule_refresh`. -/
def scheduleRefresh (call : DashboardCall) (accepted : Bool) : Program Exc (Site κ) Unit := do
  let key := setting.key call
  let added ← exchange fun s =>
    (!s.refreshing key, { s with refreshing := Function.update s.refreshing key true })
  if added then
    let generation ← Program.read fun s => s.world.responseCache.generation
    if accepted then Program.modify fun s => { s with jobs := s.jobs ++ [⟨call, generation⟩] }
    else Program.modify fun s => { s with refreshing := Function.update s.refreshing key false }

/-- The body of the `with` block of `wrapper`, which ends with the release of the lock. -/
def computeLocked (input : DashboardInput) : Program Exc (Site κ) (Except Failure Body) := do
  let key := setting.key input.call
  let entry ← getEntry input.recheckAt key
  match entry with
  | some (value, _) => return .ok value
  | none =>
    let result ← compute setting input.call input.compute
    match result with
    | .ok body =>
      Program.modify fun s => s.setCache (s.world.responseCache.put input.putAt key body)
      return .ok body
    | .error e => return .error e

/-- `wrapper`. -/
def cachedDashboard (input : DashboardInput) : Program Exc (Site κ) (Except Failure Body) := do
  if input.call.fresh then compute setting input.call input.compute
  else
    let key := setting.key input.call
    let entry ← getEntry input.lookupAt key
    match entry with
    | some (value, stale) =>
      if stale then scheduleRefresh setting input.call input.accepted
      return .ok value
    | none =>
      Program.await (fun s => !s.keyLocked key) fun s =>
        { s with keyLocked := Function.update s.keyLocked key true }
      Program.tryFinally (computeLocked setting input)
        [fun s => { s with keyLocked := Function.update s.keyLocked key false }]

/-- `dashboard_route`. -/
def dashboardRoute (input : DashboardInput) : Program Exc (Site κ) DashboardReply :=
  Program.tryExcept
    (do
      let result ← cachedDashboard setting input
      match result with
      | .ok body =>
        let status ← query input.overlayFault fun s => syncStatus s.world.db.syncState
        return .response body status
      | .error (.http status detail) => return .http status detail
      | .error (.raised _) => return .internalError)
    fun _ => return .internalError

/-- What a refresh worker meets. -/
structure RefreshInput where
  compute : ComputeInput
  putAt : ℚ

/-- A worker takes the oldest job. -/
def takeJob : Program Exc (Site κ) (Option Job) :=
  .step ⟨fun s => !s.jobs.isEmpty, fun _ => true, fun s => { s with jobs := s.jobs.tail }⟩
    fun s => .done (.ok s.jobs.head?)

/-- `_run` of `_schedule_refresh`; what the computation raises is logged. -/
def refresh (input : RefreshInput) : Program Exc (Site κ) Unit := do
  let job ← takeJob
  match job with
  | none => return
  | some job =>
    let key := setting.key job.call
    let result ← compute setting job.call input.compute
    match result with
    | .ok body =>
      Program.modify fun s =>
        s.setCache (s.world.responseCache.putIfGeneration input.putAt key body job.generation).1
    | .error _ => pure ()
    Program.modify fun s => { s with refreshing := Function.update s.refreshing key false }

/-! ### Calls

A call runs the program of one endpoint, an ingest, or a refresh of the cache.
-/

/-- What a thread of the process is called for. -/
inductive Call (μ : Type) where
  | ingest (input : RunInput μ)
  | health (input : HealthInput)
  | dashboard (input : DashboardInput)
  | refresh (input : RefreshInput)

/-- What a call returns. -/
inductive Answer where
  | ingest (outcome : Outcome)
  | health (reply : HealthReply)
  | dashboard (reply : DashboardReply)
  | refreshed

/-- What a call does. -/
def code : Call μ → Program Exc (Site κ) Answer
  | .ingest input => do
    let outcome ← (Stepwise.runIngest setting.py input).zoom Site.world fun w s => { s with world := w }
    return .ingest outcome
  | .health input => do return .health (← health input)
  | .dashboard input => do return .dashboard (← dashboardRoute setting input)
  | .refresh input => do
    refresh setting input
    return .refreshed

end Cached

end Ghpulse.Health
