import Ghpulse.Dashboard.Events
import Ghpulse.Library.Grouping

/-!
# The dashboard aggregate

The queries of `GET /api/dashboard` over one snapshot of the database, the folding of their rows into
dense buckets, and the body that is returned. SQL groups events by `FLOOR(epoch / width) * width`, exact,
while the buckets are enumerated in Python; `foldBuckets` joins the two by the epoch.

A query is a filter over lists of rows whose conditions are SQL truth values, so a comparison with NULL
drops a row as it does in the server. The order in which the server returns rows matters in two places,
the rows of a group and the list of repositories; there it is a parameter `collate`. All queries of a
request see one snapshot of the database, because they are in one read transaction.

Reference: `backend/api_dashboard.py`.
-/

open Python Ghpulse.Ingest

namespace Ghpulse.Dashboard

variable {ρ : Type}

/-! ## Queries

Each definition has the name of the function that runs the query, and its conditions stand in the order of
the `WHERE`. The edges of a window are inclusive on the left and exclusive on the right.
-/

/-- `_ISSUE_KEYS`. -/
def issueKeys : List Kind := [.opened, .completed, .notPlanned]

/-- `_PR_KEYS`. -/
def pullRequestKeys : List Kind := [.opened, .merged, .closedUnmerged]

/-- `_repository_predicate`. -/
def repositoryPredicate (repository : Option Str) (repositoryId : Str) : Sql.Truth :=
  match repository with
  | none => some true
  | some id => Sql.eq (some repositoryId) (some id)

/-- `column >= start AND column < end`. -/
def between (column : Option Instant) (start stop : Instant) : Sql.Truth :=
  Sql.and (Sql.compare (fun t a => decide (a ≤ t)) column (some start))
    (Sql.compare (fun t b => decide (t < b)) column (some stop))

/-- `_event_bounds`. -/
def eventBounds (db : Db) (repository : Option Str) : Option Instant :=
  (((eventUnion db).filter fun e => Sql.holds (Sql.and (Sql.isNotNull e.eventAt)
    (repositoryPredicate repository e.repositoryId))).filterMap Event.eventAt).min?

/-- The `WHERE` of `_event_rows` and `_event_repository_ids`. -/
def selects (window : RangeWindow) (repository : Option Str) (e : Event) : Sql.Truth :=
  Sql.and (Sql.isNotNull e.eventAt)
    (Sql.and (between e.eventAt window.start window.stop)
      (repositoryPredicate repository e.repositoryId))

/-- `FLOOR(EXTRACT(EPOCH FROM event_at) / width)::bigint * width`. -/
def sqlEpoch (width : ℤ) (eventAt : Instant) : ℤ := ⌊(eventAt : ℚ) / 1000000 / width⌋ * width

/-- The columns that `_event_rows` groups by. -/
def eventKeys (db : Db) (window : RangeWindow) (repository : Option Str) : List (ℤ × Panel × Kind) :=
  ((eventUnion db).filter fun e => Sql.holds (selects window repository e)).filterMap fun e =>
    e.eventAt.map fun t => (sqlEpoch window.bucketS t, e.panel, e.kind)

/-- A row of `_event_rows`. -/
structure EventRow where
  epoch : ℤ
  panel : Panel
  kind : Kind
  n : ℕ

/-- `ORDER BY 1, 2, 3`; `collate` is the text order of the server. -/
def EventRow.le (collate : Str → Str → Bool) (a b : EventRow) : Bool :=
  if a.epoch ≠ b.epoch then decide (a.epoch < b.epoch)
  else if a.panel ≠ b.panel then collate a.panel.text b.panel.text
  else collate a.kind.text b.kind.text

/-- `_event_rows`. -/
def eventRows (collate : Str → Str → Bool) (db : Db) (window : RangeWindow)
    (repository : Option Str) : List EventRow :=
  ((Grouping.groups (eventKeys db window repository)).map fun g =>
    ⟨g.1.1, g.1.2.1, g.1.2.2, g.2⟩).mergeSort (EventRow.le collate)

/-- One column of `_summary_open_counts`. -/
def openCount (db : Db) (c : Columns ρ) (items : List ρ) (window : RangeWindow)
    (repository : Option Str) : ℕ :=
  ((joined db c items).filter fun x =>
    Sql.holds (Sql.and (isPublic c x)
      (Sql.and (Sql.eq (some (c.state x.1)) (some (lit "OPEN")))
        (Sql.and (between (some (c.createdAt x.1)) window.start window.stop)
          (repositoryPredicate repository (c.repositoryId x.1)))))).length

/-- `_summary_open_counts`. -/
def summaryOpenCounts (db : Db) (window : RangeWindow) (repository : Option Str) : Panel → ℕ
  | .issues => openCount db issueColumns db.issues.rows window repository
  | .pullRequests => openCount db pullRequestColumns db.pullRequests.rows window repository

/-- `_event_repository_ids`. -/
def eventRepositoryIds (collate : Str → Str → Bool) (db : Db) (window : RangeWindow)
    (repository : Option Str) : List Str :=
  (((eventUnion db).filter fun e => Sql.holds (selects window repository e)).map
    Event.repositoryId).dedup.mergeSort collate

/-- `r.is_private IS FALSE AND r.is_external IS TRUE`. -/
def publicRepository (r : Repository) : Sql.Truth :=
  Sql.and (Sql.isBool (some r.isPrivate) false) (Sql.isBool (some r.isExternal) true)

/-- An entry of `body["repositories"]`. -/
structure RepositoryOption where
  nodeId : Str
  nameWithOwner : Str
  url : Str

/-- `_repository_rows`. -/
def repositoryRows (collate : Str → Str → Bool) (db : Db) (ids : List Str) : List RepositoryOption :=
  if ids = [] then []
  else
    ((db.repositories.rows.filter fun r =>
        Sql.holds (Sql.and (Sql.isIn (some r.nodeId) ids) (publicRepository r))).mergeSort
      fun a b => collate a.nameWithOwner b.nameWithOwner).map
        fun r => ⟨r.nodeId, r.nameWithOwner, r.url⟩

/-- `_last_ingest`. -/
def lastIngest (db : Db) : Option Instant := db.syncState.bind SyncState.lastCommittedAt

/-! ## Folding

The rows are folded into two dictionaries, and the enumerated bounds then look their counts up. An epoch
that the enumeration misses is in the totals and in no bucket; whether there is one is the question of
`Dashboard.Buckets`.
-/

/-- `by_epoch` and `totals`; a count that is not in a dictionary reads as 0. -/
structure Folded where
  byEpoch : ℤ → Kind → ℕ
  totals : Kind → ℕ

/-- One turn of the first loop of `_fold_buckets`. -/
def foldRow (keys : List Kind) (acc : Folded) (row : EventRow) : Folded :=
  if row.kind ∈ keys then
    { byEpoch := fun epoch kind =>
        acc.byEpoch epoch kind + if row.epoch = epoch ∧ row.kind = kind then row.n else 0
      totals := fun kind => acc.totals kind + if row.kind = kind then row.n else 0 }
  else acc

/-- An entry of `body["issues"]` or `body["pull_requests"]`; `ts` is `start` again. -/
structure Bucket where
  start : Instant
  stop : Instant
  counts : Kind → ℕ

/-- `_fold_buckets`. -/
def foldBuckets (rows : List EventRow) (window : RangeWindow) (keys : List Kind) :
    Except Exc (List Bucket × (Kind → ℕ)) := do
  let folded := rows.foldl (foldRow keys) ⟨fun _ _ => 0, fun _ => 0⟩
  let bounds ← denseBucketBounds window.start window.stop window.bucketS
  return (bounds.map fun b => ⟨b.left, b.right, folded.byEpoch b.epoch⟩, folded.totals)

/-! ## The body

The fields in the order of the response. Both panels share the bounds.
-/

/-- What `_dashboard_build` returns: the buckets and counts of each panel, and the rest. -/
structure Body where
  range : Str
  bucketS : ℤ
  start : Instant
  stop : Instant
  buckets : Panel → List Bucket
  totals : Panel → Kind → ℕ
  currentlyOpen : Panel → ℕ
  lastIngest : Option Instant
  repositories : List RepositoryOption
  generatedAt : Instant

/-- The keys of a panel. -/
def Panel.keys : Panel → List Kind
  | .issues => issueKeys
  | .pullRequests => pullRequestKeys

/-- A value for each panel. -/
def perPanel {α : Type} (issues pullRequests : α) : Panel → α
  | .issues => issues
  | .pullRequests => pullRequests

/-- `_dashboard_build`; `startedAt` is the clock at its beginning. -/
def dashboardBuild (collate : Str → Str → Bool) (db : Db) (window : RangeWindow)
    (repository : Option Str) (startedAt : Instant) : Except Exc Body := do
  let rows := eventRows collate db window repository
  let issueRows := rows.filter fun r => decide (r.panel = .issues)
  let pullRequestRows := rows.filter fun r => decide (r.panel = .pullRequests)
  let (issueBuckets, issueTotals) ← foldBuckets issueRows window issueKeys
  let (pullRequestBuckets, pullRequestTotals) ← foldBuckets pullRequestRows window pullRequestKeys
  return {
    range := window.name
    bucketS := window.bucketS
    start := window.start
    stop := window.stop
    buckets := perPanel issueBuckets pullRequestBuckets
    totals := perPanel issueTotals pullRequestTotals
    currentlyOpen := summaryOpenCounts db window repository
    lastIngest := lastIngest db
    repositories := repositoryRows collate db (eventRepositoryIds collate db window repository)
    generatedAt := startedAt }

/-! ## The request

The clock is read three times in a request, for the range, for the end of the window and for
`generated_at`, and the readings need not agree.
-/

/-- The readings of the clock in a request. -/
structure ReadClock where
  rangeAt : Instant
  now : Instant
  startedAt : Instant
  now_range : InRange now

/-- What a `datetime` cannot hold, the driver cannot load. -/
def loadError (t : Instant) : Exc :=
  ⟨lit "DataError",
    if t < minInstant then lit "timestamp too small (before year 1)"
    else lit "timestamp too large (after year 10K)"⟩

theorem range_of_shift {t r : Instant} {delta : ℤ} (h : shift t delta = .ok r) : InRange r := by
  unfold shift at h
  split_ifs at h with hrange
  exact Except.ok.inj h ▸ hrange

/-- The window of the range `all`. -/
def allWindow (db : Db) (clock : ReadClock) (delta : ℤ) (rng : Str) (repository : Option Str) :
    Except Failure RangeWindow :=
  match eventBounds db repository with
  -- without events the window is empty and has the width of `delta`
  | none => .ok (.ofDelta rng clock.now clock.now delta clock.now_range clock.now_range)
  | some start =>
    -- a timestamp of the server may lie outside of what a `datetime` can hold
    if hstart : InRange start then
      .ok (.ofDelta rng start clock.now (clock.now - start) hstart clock.now_range)
    else .error (.raised (loadError start))

/-- `build_window`. -/
def buildWindow (printable : CodePoint → Bool) (db : Db) (clock : ReadClock) (rng : Str)
    (repository : Option Str) : Except Failure RangeWindow := do
  let delta ← parseRange printable clock.rangeAt rng
  if rng = lit "all" then allWindow db clock delta rng repository
  else
    match hstart : shift clock.now (-delta) with
    | .ok start =>
      .ok (.ofDelta rng start clock.now delta (range_of_shift hstart) clock.now_range)
    | .error e => .error (.raised e)

/-- The driver cannot send `U+0000`. -/
def nulError : Exc :=
  ⟨lit "DataError", lit "PostgreSQL text fields cannot contain NUL (0x00) bytes"⟩

/-- `validate_repository`. -/
def validateRepository (db : Db) (repository : Option Str) : Except Failure Unit :=
  match repository with
  | none => .ok ()
  | some id =>
    -- the query is sent before anything else is known of the id
    if Fin.ofNat 0x110000 0 ∈ id then .error (.raised nulError)
    else if (db.repositories.find id).any fun r => Sql.holds (publicRepository r) then .ok ()
    else .error (.http 404 (lit "repository not found"))

/-- `dashboard`, inside one read transaction. -/
def dashboard (printable : CodePoint → Bool) (collate : Str → Str → Bool) (db : Db)
    (clock : ReadClock) (rng : Str) (repository : Option Str) : Except Failure Body := do
  validateRepository db repository
  let window ← buildWindow printable db clock rng repository
  (dashboardBuild collate db window repository clock.startedAt).mapError .raised

end Ghpulse.Dashboard
