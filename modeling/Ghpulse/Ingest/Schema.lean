import Ghpulse.Library.KeyedTable
import Ghpulse.Library.SqlTruth

/-!
# The database

The tables of the visualization database with their constraints, and the statements ingest sends. A
`Db` carries the primary keys, the row constraints and the foreign keys as fields, so a state that
violates the schema cannot be built; a statement returns nothing where the server refuses it. Row
constraints are evaluated in three-valued logic, as the schema writes them.

References: `backend/schema.sql`, `backend/ingest.py`.
-/

open Python

namespace Ghpulse.Ingest

/-- A `TIMESTAMPTZ`, and an aware UTC `datetime`: microseconds since the Unix epoch. -/
abbrev Instant := ℤ

/-! ## Rows

The columns that ingest and the read endpoints use, in the order of the schema.
-/

/-- A row of `repositories`. -/
structure Repository where
  nodeId : Str
  nameWithOwner : Str
  ownerLogin : Str
  url : Str
  isPrivate : Bool
  isExternal : Bool
  firstSeenAt : Instant
  lastSeenAt : Instant
  deriving DecidableEq

/-- A row of `issues`. -/
structure Issue where
  nodeId : Str
  repositoryId : Str
  number : ℤ
  url : Str
  isPrivate : Bool
  createdAt : Instant
  updatedAt : Instant
  closedAt : Option Instant
  state : Str
  stateReason : Option Str
  deriving DecidableEq

/-- A row of `pull_requests`. -/
structure PullRequest where
  nodeId : Str
  repositoryId : Str
  number : ℤ
  url : Str
  isPrivate : Bool
  createdAt : Instant
  updatedAt : Instant
  closedAt : Option Instant
  mergedAt : Option Instant
  state : Str
  merged : Bool
  deriving DecidableEq

/-- One number for each of the three collections. -/
structure Counts where
  repositories : ℕ
  issues : ℕ
  pullRequests : ℕ
  deriving DecidableEq

/-- A row of `ingest_runs`. -/
structure IngestRun where
  id : ℤ
  trigger : Str
  startedAt : Instant
  finishedAt : Option Instant
  committedAt : Option Instant
  sourceSnapshotAt : Option Instant
  fetched : Counts
  upserted : Counts
  deleted : Counts
  dataChanged : Bool
  error : Option Str

/-- The row of `sync_state` with `id = 1`; the schema admits no other. -/
structure SyncState where
  lastCommittedAt : Option Instant
  lastSourceSnapshotAt : Option Instant
  lastAttemptAt : Option Instant
  lastAttemptStatus : Option Str
  lastAttemptError : Option Str
  updatedAt : Instant

/-! ## Row constraints

A check is evaluated on columns that may be NULL, and an unknown result admits the row. Text columns carry
the domain of their type.
-/

/-- The constraints of `repositories`. -/
def Repository.check (r : Repository) : Bool :=
  Sql.storable r.nodeId && Sql.storable r.nameWithOwner && Sql.storable r.ownerLogin &&
    Sql.storable r.url && Sql.admits (Sql.isBool (some r.isPrivate) false) &&
    Sql.admits (Sql.isBool (some r.isExternal) true)

/-- `issues_state_reason_shape_check`. -/
def Issue.stateReasonShape (r : Issue) : Sql.Truth :=
  Sql.or (Sql.isNull r.stateReason)
    (Sql.and (Sql.between (r.stateReason.map List.length) 1 64)
      (Sql.ne (r.stateReason.map Sql.btrim) (some [])))

/-- `issues_state_reason_state_check`. -/
def Issue.stateReasonState (r : Issue) : Sql.Truth :=
  Sql.or
    (Sql.and (Sql.eq (some r.state) (some (lit "OPEN")))
      (Sql.and (Sql.isNull r.closedAt)
        (Sql.or (Sql.isNull r.stateReason)
          (Sql.not (Sql.isIn r.stateReason [lit "COMPLETED", lit "NOT_PLANNED"])))))
    (Sql.and (Sql.eq (some r.state) (some (lit "CLOSED")))
      (Sql.and (Sql.isNotNull r.closedAt)
        (Sql.and (Sql.isNotNull r.stateReason) (Sql.ne r.stateReason (some (lit "REOPENED"))))))

/-- The text columns of an issue can be stored. -/
def Issue.textStorable (r : Issue) : Bool :=
  Sql.storable r.nodeId && Sql.storable r.repositoryId && Sql.storable r.url &&
    Sql.storable r.state && r.stateReason.all Sql.storable

/-- The constraints of `issues`. -/
def Issue.check (r : Issue) : Bool :=
  r.textStorable && Sql.fitsInteger r.number &&
    Sql.admits (Sql.compare (fun a b => decide (b < a)) (some r.number) (some 0)) &&
    Sql.admits (Sql.isBool (some r.isPrivate) false) &&
    Sql.admits (Sql.isIn (some r.state) [lit "OPEN", lit "CLOSED"]) &&
    Sql.admits r.stateReasonShape && Sql.admits r.stateReasonState

/-- The unnamed row constraint of `pull_requests`. -/
def PullRequest.stateShape (r : PullRequest) : Sql.Truth :=
  Sql.or
    (Sql.or
      (Sql.and (Sql.eq (some r.state) (some (lit "OPEN")))
        (Sql.and (Sql.isBool (some r.merged) false)
          (Sql.and (Sql.isNull r.closedAt) (Sql.isNull r.mergedAt))))
      (Sql.and (Sql.eq (some r.state) (some (lit "CLOSED")))
        (Sql.and (Sql.isBool (some r.merged) false) (Sql.isNotNull r.closedAt))))
    (Sql.and (Sql.eq (some r.state) (some (lit "MERGED")))
      (Sql.and (Sql.isBool (some r.merged) true)
        (Sql.and (Sql.isNotNull r.closedAt) (Sql.isNotNull r.mergedAt))))

/-- The text columns of a pull request can be stored. -/
def PullRequest.textStorable (r : PullRequest) : Bool :=
  Sql.storable r.nodeId && Sql.storable r.repositoryId && Sql.storable r.url && Sql.storable r.state

/-- The constraints of `pull_requests`. -/
def PullRequest.check (r : PullRequest) : Bool :=
  r.textStorable && Sql.fitsInteger r.number &&
    Sql.admits (Sql.compare (fun a b => decide (b < a)) (some r.number) (some 0)) &&
    Sql.admits (Sql.isBool (some r.isPrivate) false) &&
    Sql.admits (Sql.isIn (some r.state) [lit "OPEN", lit "CLOSED", lit "MERGED"]) &&
    Sql.admits r.stateShape

/-- Three `INTEGER` columns. -/
def Counts.fit (c : Counts) : Bool :=
  Sql.fitsInteger c.repositories && Sql.fitsInteger c.issues && Sql.fitsInteger c.pullRequests

/-- The constraints of `ingest_runs`. -/
def IngestRun.check (r : IngestRun) : Bool :=
  Sql.fitsBigint r.id && Sql.storable r.trigger && r.fetched.fit && r.upserted.fit &&
    r.deleted.fit && r.error.all Sql.storable

/-- The constraints of `sync_state`. -/
def SyncState.check (s : SyncState) : Bool :=
  Sql.admits (Sql.or (Sql.isNull s.lastAttemptStatus)
    (Sql.isIn s.lastAttemptStatus [lit "success", lit "failure"])) &&
    s.lastAttemptStatus.all Sql.storable && s.lastAttemptError.all Sql.storable

/-! ## Tables

A table is a list of rows with distinct keys that meet their checks; the foreign keys are fields of the
database. A statement has to prove both for what it returns.
-/

/-- `repositories`. -/
def repositoryDecl : Keyed.Decl Str Repository := ⟨Repository.nodeId, Repository.check⟩

/-- `issues`. -/
def issueDecl : Keyed.Decl Str Issue := ⟨Issue.nodeId, Issue.check⟩

/-- `pull_requests`. -/
def pullRequestDecl : Keyed.Decl Str PullRequest := ⟨PullRequest.nodeId, PullRequest.check⟩

/-- `ingest_runs`. -/
def runDecl : Keyed.Decl ℤ IngestRun := ⟨IngestRun.id, IngestRun.check⟩

/-- A state of the database. -/
structure Db where
  repositories : Keyed.Table repositoryDecl
  issues : Keyed.Table issueDecl
  pullRequests : Keyed.Table pullRequestDecl
  ingestRuns : Keyed.Table runDecl
  syncState : Option SyncState
  issues_fk : ∀ r ∈ issues.rows, (repositories.find r.repositoryId).isSome = true
  pullRequests_fk : ∀ r ∈ pullRequests.rows, (repositories.find r.repositoryId).isSome = true

/-- The database without rows. -/
def Db.empty : Db where
  repositories := .empty
  issues := .empty
  pullRequests := .empty
  ingestRuns := .empty
  syncState := none
  issues_fk := fun _ h => absurd h List.not_mem_nil
  pullRequests_fk := fun _ h => absurd h List.not_mem_nil

/-! ## Statements

The conflict clauses are the part that matters: which columns an upsert sets, and under which condition it
writes at all.
-/

/-- The conflict clause of `_upsert_repositories`: `first_seen_at` is kept. -/
def repositoryConflict : Keyed.OnConflict repositoryDecl where
  set old new :=
    { old with
      nameWithOwner := new.nameWithOwner
      ownerLogin := new.ownerLogin
      url := new.url
      isPrivate := new.isPrivate
      isExternal := new.isExternal
      lastSeenAt := new.lastSeenAt }
  differs old new :=
    Sql.isDistinctFrom (some old.nameWithOwner) (some new.nameWithOwner) ||
      Sql.isDistinctFrom (some old.ownerLogin) (some new.ownerLogin) ||
      Sql.isDistinctFrom (some old.url) (some new.url) ||
      Sql.isDistinctFrom (some old.isPrivate) (some new.isPrivate) ||
      Sql.isDistinctFrom (some old.isExternal) (some new.isExternal)
  key_set _ _ := rfl

/-- The conflict clause of `_upsert_issues`. -/
def issueConflict : Keyed.OnConflict issueDecl where
  set old new :=
    { old with
      repositoryId := new.repositoryId
      number := new.number
      url := new.url
      isPrivate := new.isPrivate
      createdAt := new.createdAt
      updatedAt := new.updatedAt
      closedAt := new.closedAt
      state := new.state
      stateReason := new.stateReason }
  differs old new :=
    Sql.isDistinctFrom (some old.repositoryId) (some new.repositoryId) ||
      Sql.isDistinctFrom (some old.number) (some new.number) ||
      Sql.isDistinctFrom (some old.url) (some new.url) ||
      Sql.isDistinctFrom (some old.isPrivate) (some new.isPrivate) ||
      Sql.isDistinctFrom (some old.createdAt) (some new.createdAt) ||
      Sql.isDistinctFrom (some old.updatedAt) (some new.updatedAt) ||
      Sql.isDistinctFrom old.closedAt new.closedAt ||
      Sql.isDistinctFrom (some old.state) (some new.state) ||
      Sql.isDistinctFrom old.stateReason new.stateReason
  key_set _ _ := rfl

/-- The conflict clause of `_upsert_pull_requests`. -/
def pullRequestConflict : Keyed.OnConflict pullRequestDecl where
  set old new :=
    { old with
      repositoryId := new.repositoryId
      number := new.number
      url := new.url
      isPrivate := new.isPrivate
      createdAt := new.createdAt
      updatedAt := new.updatedAt
      closedAt := new.closedAt
      mergedAt := new.mergedAt
      state := new.state
      merged := new.merged }
  differs old new :=
    Sql.isDistinctFrom (some old.repositoryId) (some new.repositoryId) ||
      Sql.isDistinctFrom (some old.number) (some new.number) ||
      Sql.isDistinctFrom (some old.url) (some new.url) ||
      Sql.isDistinctFrom (some old.isPrivate) (some new.isPrivate) ||
      Sql.isDistinctFrom (some old.createdAt) (some new.createdAt) ||
      Sql.isDistinctFrom (some old.updatedAt) (some new.updatedAt) ||
      Sql.isDistinctFrom old.closedAt new.closedAt ||
      Sql.isDistinctFrom old.mergedAt new.mergedAt ||
      Sql.isDistinctFrom (some old.state) (some new.state) ||
      Sql.isDistinctFrom (some old.merged) (some new.merged)
  key_set _ _ := rfl

/-- Every column of an issue but its key is set. -/
theorem issue_set {old new : Issue} (hkey : old.nodeId = new.nodeId) :
    issueConflict.set old new = new := by
  cases old
  cases new
  cases hkey
  rfl

/-- Every column of a pull request but its key is set. -/
theorem pullRequest_set {old new : PullRequest} (hkey : old.nodeId = new.nodeId) :
    pullRequestConflict.set old new = new := by
  cases old
  cases new
  cases hkey
  rfl

/-- An issue that does not differ from the proposed row is the proposed row. -/
theorem issue_merged (old : Option Issue) (new : Issue) (hkey : ∀ r ∈ old, r.nodeId = new.nodeId) :
    Keyed.Table.merged issueConflict old new = new := by
  cases old with
  | none => rfl
  | some r =>
    have hr : r.nodeId = new.nodeId := hkey r rfl
    unfold Keyed.Table.merged
    dsimp only
    split_ifs with hdiff
    · exact issue_set hr
    · simp only [issueConflict, Sql.isDistinctFrom, Bool.or_eq_true, decide_eq_true_eq, ne_eq,
        Option.some.injEq, not_or, not_not] at hdiff
      cases r
      cases new
      simp_all

/-- A pull request that does not differ from the proposed row is the proposed row. -/
theorem pullRequest_merged (old : Option PullRequest) (new : PullRequest)
    (hkey : ∀ r ∈ old, r.nodeId = new.nodeId) :
    Keyed.Table.merged pullRequestConflict old new = new := by
  cases old with
  | none => rfl
  | some r =>
    have hr : r.nodeId = new.nodeId := hkey r rfl
    unfold Keyed.Table.merged
    dsimp only
    split_ifs with hdiff
    · exact pullRequest_set hr
    · simp only [pullRequestConflict, Sql.isDistinctFrom, Bool.or_eq_true, decide_eq_true_eq, ne_eq,
        Option.some.injEq, not_or, not_not] at hdiff
      cases r
      cases new
      simp_all

/-- The `INSERT … ON CONFLICT` of `_upsert_repositories`. -/
def Db.upsertRepository (db : Db) (r : Repository) : Option (Db × Bool) :=
  match h : db.repositories.upsert repositoryConflict r with
  | none => none
  | some (t, written) =>
    some
      ({ db with
          repositories := t
          issues_fk := fun x hx => Keyed.Table.isSome_find_upsert h (db.issues_fk x hx)
          pullRequests_fk := fun x hx =>
            Keyed.Table.isSome_find_upsert h (db.pullRequests_fk x hx) }, written)

/-- The `INSERT … ON CONFLICT` of `_upsert_issues`; a written row must refer to a repository. -/
def Db.upsertIssue (db : Db) (r : Issue) : Option (Db × Bool) :=
  match h : db.issues.upsert issueConflict r with
  | none => none
  | some (t, written) =>
    if hfk : written = true → (db.repositories.find r.repositoryId).isSome = true then
      some
        ({ db with
            issues := t
            issues_fk := by
              intro x hx
              cases written with
              | false => exact db.issues_fk x (Keyed.Table.eq_of_upsert_false h ▸ hx)
              | true =>
                rcases Keyed.Table.mem_rows_upsert h hx with hx | rfl
                · exact db.issues_fk x hx
                · rw [issue_merged _ _ fun y hy => (Keyed.Table.find_eq_some.mp hy).2]
                  exact hfk rfl }, written)
    else none

/-- The `INSERT … ON CONFLICT` of `_upsert_pull_requests`. -/
def Db.upsertPullRequest (db : Db) (r : PullRequest) : Option (Db × Bool) :=
  match h : db.pullRequests.upsert pullRequestConflict r with
  | none => none
  | some (t, written) =>
    if hfk : written = true → (db.repositories.find r.repositoryId).isSome = true then
      some
        ({ db with
            pullRequests := t
            pullRequests_fk := by
              intro x hx
              cases written with
              | false => exact db.pullRequests_fk x (Keyed.Table.eq_of_upsert_false h ▸ hx)
              | true =>
                rcases Keyed.Table.mem_rows_upsert h hx with hx | rfl
                · exact db.pullRequests_fk x hx
                · rw [pullRequest_merged _ _ fun y hy => (Keyed.Table.find_eq_some.mp hy).2]
                  exact hfk rfl }, written)
    else none

/-! ## After the upserts

Dating and deleting. What refers to a deleted repository is deleted with it, so that the foreign keys
still hold.
-/

/-- Set `last_seen_at` of the rows with one of the ids. -/
def touched (at' : Instant) (ids : List Str) (r : Repository) : Repository :=
  if r.nodeId ∈ ids then { r with lastSeenAt := at' } else r

/-- Dating a sighting keeps the id. -/
theorem key_touched (at' : Instant) (ids : List Str) (r : Repository) :
    (touched at' ids r).nodeId = r.nodeId := by
  unfold touched
  split_ifs <;> rfl

/-- `UPDATE repositories SET last_seen_at = … WHERE node_id = ANY(ids)`. -/
def Db.touchRepositories (db : Db) (at' : Instant) (ids : List Str) : Option Db :=
  match h : db.repositories.update (touched at' ids) (key_touched at' ids) with
  | none => none
  | some t =>
    some
      { db with
        repositories := t
        issues_fk := fun x hx => by
          rw [Keyed.Table.find_update h, Option.isSome_map]
          exact db.issues_fk x hx
        pullRequests_fk := fun x hx => by
          rw [Keyed.Table.find_update h, Option.isSome_map]
          exact db.pullRequests_fk x hx }

/-- `WHERE NOT (node_id = ANY(seen))`. -/
def unseen (seen : List Str) (nodeId : Str) : Bool := decide (nodeId ∉ seen)

/-- A node is kept when its id is in the snapshot. -/
@[simp] theorem unseen_eq_false {seen : List Str} {nodeId : Str} :
    unseen seen nodeId = false ↔ nodeId ∈ seen := by
  simp [unseen]

/-- `_delete_unseen(connection, "issues", seen)`. -/
def Db.deleteIssues (db : Db) (seen : List Str) : Db × ℕ :=
  ({ db with
      issues := db.issues.delete fun r => unseen seen r.nodeId
      issues_fk := fun x hx => db.issues_fk x (List.mem_of_mem_filter hx) },
    db.issues.rows.countP fun r => unseen seen r.nodeId)

/-- `_delete_unseen(connection, "pull_requests", seen)`. -/
def Db.deletePullRequests (db : Db) (seen : List Str) : Db × ℕ :=
  ({ db with
      pullRequests := db.pullRequests.delete fun r => unseen seen r.nodeId
      pullRequests_fk := fun x hx => db.pullRequests_fk x (List.mem_of_mem_filter hx) },
    db.pullRequests.rows.countP fun r => unseen seen r.nodeId)

/-- `_delete_unseen(connection, "repositories", seen)`; the rows that refer to a deleted repository go
with it (`ON DELETE CASCADE`). -/
def Db.deleteRepositories (db : Db) (seen : List Str) : Db × ℕ :=
  have hfind {id : Str} (hid : unseen seen id = false) (h : (db.repositories.find id).isSome = true) :
      ((db.repositories.delete fun r => unseen seen r.nodeId).find id).isSome = true := by
    obtain ⟨r, hr⟩ := Option.isSome_iff_exists.mp h
    have hkey : r.nodeId = id := (Keyed.Table.find_eq_some.mp hr).2
    rw [Keyed.Table.find_delete, hr, Option.filter_some, hkey, hid]
    rfl
  ({ db with
      repositories := db.repositories.delete fun r => unseen seen r.nodeId
      issues := db.issues.delete fun r => unseen seen r.repositoryId
      pullRequests := db.pullRequests.delete fun r => unseen seen r.repositoryId
      issues_fk := fun x hx => by
        have hx := List.mem_filter.mp hx
        exact hfind (by simpa using hx.2) (db.issues_fk x hx.1)
      pullRequests_fk := fun x hx => by
        have hx := List.mem_filter.mp hx
        exact hfind (by simpa using hx.2) (db.pullRequests_fk x hx.1) },
    db.repositories.rows.countP fun r => unseen seen r.nodeId)

/-! ## Recording runs

One row for the state of synchronization, and one for each run.
-/

/-- Write the row of `sync_state`. -/
def Db.setSyncState (db : Db) (s : SyncState) : Option Db :=
  if s.check = true then some { db with syncState := some s } else none

/-- `INSERT INTO ingest_runs (trigger, started_at)` with the id the sequence gave. -/
def Db.insertRun (db : Db) (id : ℤ) (trigger : Str) (startedAt : Instant) : Option Db :=
  (db.ingestRuns.insert
    { id := id
      trigger := trigger
      startedAt := startedAt
      finishedAt := none
      committedAt := none
      sourceSnapshotAt := none
      fetched := ⟨0, 0, 0⟩
      upserted := ⟨0, 0, 0⟩
      deleted := ⟨0, 0, 0⟩
      dataChanged := false
      error := none }).map fun t => { db with ingestRuns := t }

/-- `UPDATE ingest_runs SET … WHERE id = runId`. -/
def Db.updateRun (db : Db) (runId : ℤ) (f : IngestRun → IngestRun) (hf : ∀ r, (f r).id = r.id) :
    Option Db :=
  (db.ingestRuns.update (Keyed.Table.setAt runId f) (Keyed.Table.key_setAt hf)).map fun t =>
    { db with ingestRuns := t }

/-! ## What the statements do

Each statement acts on one table as the statement of the table library does, and leaves the others. -/

/-- The upsert of a repository writes its table alone. -/
theorem of_upsertRepository {db db' : Db} {r : Repository} {written : Bool}
    (h : db.upsertRepository r = some (db', written)) :
    db.repositories.upsert repositoryConflict r = some (db'.repositories, written) ∧
      db'.issues = db.issues ∧ db'.pullRequests = db.pullRequests ∧
      db'.ingestRuns = db.ingestRuns := by
  unfold Db.upsertRepository at h
  split at h
  · cases h
  · rename_i t written' ht
    cases h
    exact ⟨ht, rfl, rfl, rfl⟩

/-- That of an issue writes its table alone. -/
theorem of_upsertIssue {db db' : Db} {r : Issue} {written : Bool}
    (h : db.upsertIssue r = some (db', written)) :
    db.issues.upsert issueConflict r = some (db'.issues, written) ∧
      db'.repositories = db.repositories ∧ db'.pullRequests = db.pullRequests ∧
      db'.ingestRuns = db.ingestRuns := by
  unfold Db.upsertIssue at h
  split at h
  · cases h
  · rename_i t written' ht
    split_ifs at h
    cases h
    exact ⟨ht, rfl, rfl, rfl⟩

/-- That of a pull request writes its table alone. -/
theorem of_upsertPullRequest {db db' : Db} {r : PullRequest} {written : Bool}
    (h : db.upsertPullRequest r = some (db', written)) :
    db.pullRequests.upsert pullRequestConflict r = some (db'.pullRequests, written) ∧
      db'.repositories = db.repositories ∧ db'.issues = db.issues ∧
      db'.ingestRuns = db.ingestRuns := by
  unfold Db.upsertPullRequest at h
  split at h
  · cases h
  · rename_i t written' ht
    split_ifs at h
    cases h
    exact ⟨ht, rfl, rfl, rfl⟩

/-- Dating the sightings writes the repositories alone. -/
theorem of_touchRepositories {db db' : Db} {at' : Instant} {ids : List Str}
    (h : db.touchRepositories at' ids = some db') :
    db.repositories.update (touched at' ids) (key_touched at' ids) = some db'.repositories ∧
      db'.issues = db.issues ∧ db'.pullRequests = db.pullRequests ∧
      db'.ingestRuns = db.ingestRuns := by
  unfold Db.touchRepositories at h
  split at h
  · cases h
  · rename_i t ht
    cases h
    exact ⟨ht, rfl, rfl, rfl⟩

/-- Two databases agree on the three current-state tables. -/
structure Db.SameTables (db' db : Db) : Prop where
  repositories : db'.repositories = db.repositories
  issues : db'.issues = db.issues
  pullRequests : db'.pullRequests = db.pullRequests

/-- Writing `sync_state` leaves the tables and the audit rows. -/
theorem of_setSyncState {db db' : Db} {s : SyncState} (h : db.setSyncState s = some db') :
    s.check = true ∧ db'.SameTables db ∧ db'.ingestRuns = db.ingestRuns ∧ db'.syncState = some s := by
  unfold Db.setSyncState at h
  split_ifs at h with hs
  cases h
  exact ⟨hs, ⟨rfl, rfl, rfl⟩, rfl, rfl⟩

/-- Inserting an audit row leaves the tables and `sync_state`. -/
theorem of_insertRun {db db' : Db} {id : ℤ} {trigger : Str} {startedAt : Instant}
    (h : db.insertRun id trigger startedAt = some db') :
    db'.SameTables db ∧ db'.syncState = db.syncState := by
  obtain ⟨t, -, rfl⟩ := Option.map_eq_some_iff.mp h
  exact ⟨⟨rfl, rfl, rfl⟩, rfl⟩

/-- Updating one does, too. -/
theorem of_updateRun {db db' : Db} {runId : ℤ} {f : IngestRun → IngestRun} {hf : ∀ r, (f r).id = r.id}
    (h : db.updateRun runId f hf = some db') :
    db.ingestRuns.update (Keyed.Table.setAt runId f) (Keyed.Table.key_setAt hf) =
        some db'.ingestRuns ∧
      db'.SameTables db ∧ db'.syncState = db.syncState := by
  obtain ⟨t, ht, rfl⟩ := Option.map_eq_some_iff.mp h
  exact ⟨ht, ⟨rfl, rfl, rfl⟩, rfl⟩

/-- The row of a run after its update. -/
theorem find_updateRun {db db' : Db} {runId : ℤ} {f : IngestRun → IngestRun}
    {hf : ∀ r, (f r).id = r.id} (h : db.updateRun runId f hf = some db') :
    db'.ingestRuns.find runId = (db.ingestRuns.find runId).map f := by
  rw [Keyed.Table.find_update (of_updateRun h).1]
  cases hold : db.ingestRuns.find runId with
  | none => rfl
  | some old =>
    have hkey : runDecl.key old = runId := (Keyed.Table.find_eq_some.mp hold).2
    rw [Option.map_some, Option.map_some, Keyed.Table.setAt, if_pos hkey]

end Ghpulse.Ingest
