import Ghpulse.Ingest.Sound
import Ghpulse.Ingest.Commit

/-!
# Complete replacement

A commit makes the database show the snapshot, whatever it held before. `CurrentState` is what the
current-state tables mean, as functions of the node id; `commitSnapshot_replaces` says that a commit
refines the assignment of the snapshot's state to the database's, and that its counters measure the
difference between the two.

References: `backend/ingest.py`, `backend/schema.sql`.

The refinement has three steps: what a single upsert does to a table as a function of the id, what a loop
of them does, and what the deletions leave. The library of keyed tables has all three for any table; here
they are applied to each of the three tables, and put together in `replaceTables_spec`.
-/

open Python Effect Keyed

namespace Ghpulse.Ingest

variable {κ ν μ : Type}

/-! ## The current state

A table says for each id what is known, so the current state is three functions, and two databases are
compared by them and not by the order of their rows.
-/

/-- The columns of a repository that a snapshot determines. -/
structure RepositoryColumns where
  nodeId : Str
  nameWithOwner : Str
  ownerLogin : Str
  url : Str
  isPrivate : Bool
  isExternal : Bool
  deriving DecidableEq

/-- The snapshot columns of a stored repository. -/
def Repository.columns (r : Repository) : RepositoryColumns :=
  ⟨r.nodeId, r.nameWithOwner, r.ownerLogin, r.url, r.isPrivate, r.isExternal⟩

/-- The snapshot columns of a repository of a snapshot. -/
def RepositoryRecord.columns (r : RepositoryRecord) : RepositoryColumns :=
  ⟨r.nodeId, r.nameWithOwner, r.ownerLogin, r.url, false, true⟩

/-- The two times of a row are all that its record does not determine, so whether an upsert writes does
not depend on them. -/
@[simp] theorem row_columns (r : RepositoryRecord) (firstSeenAt lastSeenAt : Instant) :
    (r.row firstSeenAt lastSeenAt).columns = r.columns := rfl

/-- The meaning of the three tables: what is known about each node. -/
@[ext] structure CurrentState where
  repositories : Str → Option RepositoryColumns
  issues : Str → Option Issue
  pullRequests : Str → Option PullRequest

/-- The state that a database holds. -/
def Db.currentState (db : Db) : CurrentState where
  repositories id := (db.repositories.find id).map Repository.columns
  issues := db.issues.find
  pullRequests := db.pullRequests.find

/-- The rows of the issues of a snapshot. -/
def Snapshot.issueRows (s : Snapshot) : List Issue := s.issues.filterMap IssueRecord.row

/-- The rows of the pull requests of a snapshot. -/
def Snapshot.pullRequestRows (s : Snapshot) : List PullRequest :=
  s.pullRequests.filterMap PullRequestRecord.row

/-- The repository of a snapshot with an id. -/
def Snapshot.repository (s : Snapshot) (id : Str) : Option RepositoryRecord :=
  s.repositories.find? fun r => decide (r.nodeId = id)

/-- The state that a snapshot describes. -/
def Snapshot.currentState (s : Snapshot) : CurrentState where
  repositories id := (s.repository id).map RepositoryRecord.columns
  issues := lookup issueDecl s.issueRows
  pullRequests := lookup pullRequestDecl s.pullRequestRows

/-- When a stored repository was first seen, or the time of the commit. -/
def Db.firstSeenAt (db : Db) (committedAt : Instant) (id : Str) : Instant :=
  match db.repositories.find id with
  | some old => old.firstSeenAt
  | none => committedAt

/-- How many stored rows are not in the snapshot. -/
def Db.unseenCounts (db : Db) (s : Snapshot) : Counts :=
  ⟨db.repositories.rows.countP fun r =>
      unseen (s.repositories.map RepositoryRecord.nodeId) r.nodeId,
    db.issues.rows.countP fun r => unseen (s.issues.map IssueRecord.nodeId) r.nodeId,
    db.pullRequests.rows.countP fun r =>
      unseen (s.pullRequests.map PullRequestRecord.nodeId) r.nodeId⟩

/-- What the statements of a commit do to the three tables, and what they count. -/
structure Replaced (s : Snapshot) (committedAt : Instant) (before after : Db)
    (upserted deleted : Counts) : Prop where
  /-- The repositories are those of the snapshot, with the times of their first and last sighting. -/
  repositories : ∀ id, after.repositories.find id =
    (s.repository id).map fun r => r.row (before.firstSeenAt committedAt id) committedAt
  issues : ∀ id, after.issues.find id = lookup issueDecl s.issueRows id
  pullRequests : ∀ id, after.pullRequests.find id = lookup pullRequestDecl s.pullRequestRows id
  /-- A written row was absent before or differed in a snapshot column. -/
  upserted : upserted =
    ⟨s.repositories.countP fun r =>
        decide (before.currentState.repositories r.nodeId ≠ some r.columns),
      s.issueRows.countP fun r => decide (before.issues.find r.nodeId ≠ some r),
      s.pullRequestRows.countP fun r => decide (before.pullRequests.find r.nodeId ≠ some r)⟩
  /-- A deleted row was stored before and is not in the snapshot. -/
  deleted : deleted = before.unseenCounts s

/-- What a commit does to the database, and what it reports. -/
structure Committed (s : Snapshot) (committedAt : Instant) (before after : Db) (summary : Summary) :
    Prop extends Replaced s committedAt before after summary.upserted summary.deleted where
  dataChanged : summary.dataChanged = true ↔ after.currentState ≠ before.currentState
  /-- The audit row of the run reports the same. -/
  audited : ∀ run, after.ingestRuns.find summary.id = some run → run.upserted = summary.upserted ∧
    run.deleted = summary.deleted ∧ run.dataChanged = summary.dataChanged

/-! ## Rows and records

Every record of an accepted snapshot has a row, with the id of the record.
-/

/-- The row of an issue has its id. -/
theorem nodeId_of_issue_row {r : IssueRecord} {row : Issue} (h : r.row = some row) :
    row.nodeId = r.nodeId := by
  obtain ⟨createdAt, updatedAt, -, -, rfl⟩ := of_issue_row h
  rfl

/-- The row of a pull request has its id. -/
theorem nodeId_of_pullRequest_row {r : PullRequestRecord} {row : PullRequest} (h : r.row = some row) :
    row.nodeId = r.nodeId := by
  obtain ⟨createdAt, updatedAt, -, -, rfl⟩ := of_pullRequest_row h
  rfl

/-! ## Accepted snapshots

The ids are distinct across the tables; within each table they are keys.
-/

/-- Every accepted issue has a row. -/
theorem IssueRecord.Accepted.row_isSome {repositories : List RepositoryRecord} {r : IssueRecord}
    (h : r.Accepted repositories) : r.row.isSome = true := by
  obtain ⟨createdAt, hcreated⟩ := Option.isSome_iff_exists.mp h.created
  obtain ⟨updatedAt, hupdated⟩ := Option.isSome_iff_exists.mp h.updated
  rw [IssueRecord.row, hcreated, hupdated]
  rfl

/-- Every accepted pull request has a row. -/
theorem PullRequestRecord.Accepted.row_isSome {repositories : List RepositoryRecord}
    {r : PullRequestRecord} (h : r.Accepted repositories) : r.row.isSome = true := by
  obtain ⟨createdAt, hcreated⟩ := Option.isSome_iff_exists.mp h.created
  obtain ⟨updatedAt, hupdated⟩ := Option.isSome_iff_exists.mp h.updated
  rw [PullRequestRecord.row, hcreated, hupdated]
  rfl

section Accepted

variable {py : PyLib} {s : Snapshot} (hs : s.Accepted py)
include hs

/-- The ids of an accepted snapshot are distinct within each table. -/
theorem Snapshot.Accepted.nodup : (s.repositories.map RepositoryRecord.nodeId).Nodup ∧
    (s.issues.map IssueRecord.nodeId).Nodup ∧
    (s.pullRequests.map PullRequestRecord.nodeId).Nodup := by
  have h := List.nodup_append.mp hs.distinct
  have h' := List.nodup_append.mp h.1
  exact ⟨h'.1, h'.2.1, h.2.1⟩

/-- Every issue of an accepted snapshot has a row. -/
theorem Snapshot.Accepted.map_issueRows : s.issues.map IssueRecord.row = s.issueRows.map some :=
  map_of_isSome fun r hr => (hs.issues r hr).row_isSome

/-- Every pull request of an accepted snapshot has a row. -/
theorem Snapshot.Accepted.map_pullRequestRows :
    s.pullRequests.map PullRequestRecord.row = s.pullRequestRows.map some :=
  map_of_isSome fun r hr => (hs.pullRequests r hr).row_isSome

/-- The issue rows have the ids of the issues. -/
theorem Snapshot.Accepted.key_issueRows :
    s.issueRows.map Issue.nodeId = s.issues.map IssueRecord.nodeId :=
  (rows_of_map (d := issueDecl) (fun _ _ h => nodeId_of_issue_row h) hs.map_issueRows).2

/-- The pull request rows have the ids of the pull requests. -/
theorem Snapshot.Accepted.key_pullRequestRows :
    s.pullRequestRows.map PullRequest.nodeId = s.pullRequests.map PullRequestRecord.nodeId :=
  (rows_of_map (d := pullRequestDecl) (fun _ _ h => nodeId_of_pullRequest_row h)
    hs.map_pullRequestRows).2

/-- The rows of an accepted snapshot refer to its repositories. -/
theorem Snapshot.Accepted.issueRows_fk {r : Issue} (hr : r ∈ s.issueRows) :
    r.repositoryId ∈ s.repositories.map RepositoryRecord.nodeId := by
  obtain ⟨record, hrecord, hrow⟩ := List.mem_filterMap.mp hr
  obtain ⟨createdAt, updatedAt, -, -, rfl⟩ := of_issue_row hrow
  exact (hs.issues record hrecord).repositoryId_mem

/-- The repository of a pull request is in the snapshot. -/
theorem Snapshot.Accepted.pullRequestRows_fk {r : PullRequest} (hr : r ∈ s.pullRequestRows) :
    r.repositoryId ∈ s.repositories.map RepositoryRecord.nodeId := by
  obtain ⟨record, hrecord, hrow⟩ := List.mem_filterMap.mp hr
  obtain ⟨createdAt, updatedAt, -, -, rfl⟩ := of_pullRequest_row hrow
  exact (hs.pullRequests record hrecord).repositoryId_mem

end Accepted

/-! ## Conflicts

Each `WHERE` of a conflict clause covers every column its `SET` changes, `last_seen_at` apart. -/

/-- The upsert of a repository writes when a snapshot column differs. -/
theorem writes_repository {old : Option Repository} {new : Repository}
    (hkey : ∀ r ∈ old, r.nodeId = new.nodeId) :
    Table.writes repositoryConflict old new =
      decide (old.map Repository.columns ≠ some new.columns) := by
  cases old with
  | none => rfl
  | some r =>
    have hr : r.nodeId = new.nodeId := hkey r rfl
    rw [Bool.eq_iff_iff, decide_eq_true_eq]
    simp only [Table.writes, repositoryConflict, Sql.isDistinctFrom, Bool.or_eq_true,
      decide_eq_true_eq, ne_eq, Option.some.injEq, Option.map_some, Repository.columns,
      RepositoryColumns.mk.injEq, hr, true_and, not_and_or, or_assoc]

/-- The upsert of an issue writes when a column differs. -/
theorem writes_issue {old : Option Issue} {new : Issue} (hkey : ∀ r ∈ old, r.nodeId = new.nodeId) :
    Table.writes issueConflict old new = decide (old ≠ some new) := by
  cases old with
  | none => rfl
  | some r =>
    have hr : r.nodeId = new.nodeId := hkey r rfl
    rw [Bool.eq_iff_iff, decide_eq_true_eq]
    cases r
    cases new
    cases hr
    simp only [Table.writes, issueConflict, Sql.isDistinctFrom, Bool.or_eq_true, decide_eq_true_eq,
      ne_eq, Option.some.injEq, Issue.mk.injEq, true_and, not_and_or, or_assoc]

/-- The upsert of a pull request writes when a column differs. -/
theorem writes_pullRequest {old : Option PullRequest} {new : PullRequest}
    (hkey : ∀ r ∈ old, r.nodeId = new.nodeId) :
    Table.writes pullRequestConflict old new = decide (old ≠ some new) := by
  cases old with
  | none => rfl
  | some r =>
    have hr : r.nodeId = new.nodeId := hkey r rfl
    rw [Bool.eq_iff_iff, decide_eq_true_eq]
    cases r
    cases new
    cases hr
    simp only [Table.writes, pullRequestConflict, Sql.isDistinctFrom, Bool.or_eq_true,
      decide_eq_true_eq, ne_eq, Option.some.injEq, PullRequest.mk.injEq, true_and, not_and_or,
      or_assoc]

/-- An upserted repository whose `last_seen_at` is then set has the columns of the snapshot and its
old `first_seen_at`. -/
theorem touched_merged (db : Db) {r : RepositoryRecord} {ids : List Str} (committedAt : Instant)
    (hr : r.nodeId ∈ ids) :
    touched committedAt ids (Table.merged repositoryConflict (db.repositories.find r.nodeId)
      (r.row committedAt committedAt)) =
    r.row (db.firstSeenAt committedAt r.nodeId) committedAt := by
  unfold Db.firstSeenAt
  cases hold : db.repositories.find r.nodeId with
  | none =>
    show touched committedAt ids (r.row committedAt committedAt) = _
    rw [touched, if_pos (show (r.row committedAt committedAt).nodeId ∈ ids from hr)]
    rfl
  | some old =>
    have hkey : old.nodeId = r.nodeId := (Table.find_eq_some.mp hold).2
    simp only [Table.merged]
    split_ifs with hdiff
    · rw [touched, if_pos (hkey.symm ▸ hr)]
      cases r
      cases hkey
      rfl
    · have hsame : old.columns = r.columns := by
        have hwrites : Table.writes repositoryConflict (some old) (r.row committedAt committedAt) = _ :=
          writes_repository fun x hx => Option.some.inj hx ▸ hkey
        simpa [Table.writes, hdiff] using hwrites
      rw [touched, if_pos (hkey.symm ▸ hr)]
      cases old
      cases hsame
      rfl

/-! ## The loops

One loop per table, and each leaves the other two tables as they were.
-/

/-- The loop over the repositories leaves the other tables. -/
theorem of_upsertRepositories {input : RunInput μ} {records : List RepositoryRecord}
    {observedAt : Instant} {db db' : Db} {n : ℕ}
    (h : upsertRepositories input records observedAt db = .ok (db', n)) :
    db'.issues = db.issues ∧ db'.pullRequests = db.pullRequests ∧
      db'.ingestRuns = db.ingestRuns :=
  upsertAll_preserves
    (R := fun db db' : Db => db'.issues = db.issues ∧ db'.pullRequests = db.pullRequests ∧
      db'.ingestRuns = db.ingestRuns)
    (fun _ => ⟨rfl, rfl, rfl⟩)
    (fun _ _ _ h h' => ⟨h'.1.trans h.1, h'.2.1.trans h.2.1, h'.2.2.trans h.2.2⟩)
    (fun _ _ _ _ _ h => (of_upsertRepository (RunInput.execute_eq_ok.mp h).2).2) h

/-- The loop over the issues leaves the other tables. -/
theorem of_upsertIssues {input : RunInput μ} {records : List IssueRecord} {db db' : Db} {n : ℕ}
    (h : upsertIssues input records db = .ok (db', n)) :
    db'.repositories = db.repositories ∧ db'.pullRequests = db.pullRequests ∧
      db'.ingestRuns = db.ingestRuns :=
  upsertAll_preserves
    (R := fun db db' : Db => db'.repositories = db.repositories ∧ db'.pullRequests = db.pullRequests ∧
      db'.ingestRuns = db.ingestRuns)
    (fun _ => ⟨rfl, rfl, rfl⟩)
    (fun _ _ _ h h' => ⟨h'.1.trans h.1, h'.2.1.trans h.2.1, h'.2.2.trans h.2.2⟩)
    (fun _ _ _ _ _ h => by
      obtain ⟨row, -, hrow⟩ := Option.bind_eq_some_iff.mp (RunInput.execute_eq_ok.mp h).2
      exact (of_upsertIssue hrow).2) h

/-- The loop over the pull requests leaves the other tables. -/
theorem of_upsertPullRequests {input : RunInput μ} {records : List PullRequestRecord} {db db' : Db}
    {n : ℕ} (h : upsertPullRequests input records db = .ok (db', n)) :
    db'.repositories = db.repositories ∧ db'.issues = db.issues ∧
      db'.ingestRuns = db.ingestRuns :=
  upsertAll_preserves
    (R := fun db db' : Db => db'.repositories = db.repositories ∧ db'.issues = db.issues ∧
      db'.ingestRuns = db.ingestRuns)
    (fun _ => ⟨rfl, rfl, rfl⟩)
    (fun _ _ _ h h' => ⟨h'.1.trans h.1, h'.2.1.trans h.2.1, h'.2.2.trans h.2.2⟩)
    (fun _ _ _ _ _ h => by
      obtain ⟨row, -, hrow⟩ := Option.bind_eq_some_iff.mp (RunInput.execute_eq_ok.mp h).2
      exact (of_upsertPullRequest hrow).2) h

/-- What the loop over the repositories leaves in its table. -/
theorem upsertRepositories_replaces {input : RunInput μ} {records : List RepositoryRecord}
    {observedAt : Instant} {db db' : Db} {n : ℕ}
    (h : upsertRepositories input records observedAt db = .ok (db', n))
    (hnodup : (records.map RepositoryRecord.nodeId).Nodup) :
    (∀ id, (db'.repositories.delete fun r =>
        unseen (records.map RepositoryRecord.nodeId) r.nodeId).find id =
      (records.find? fun r => decide (r.nodeId = id)).map fun r =>
        Table.merged repositoryConflict (db.repositories.find id) (r.row observedAt observedAt)) ∧
      n = (records.countP fun r =>
        decide (db.currentState.repositories r.nodeId ≠ some r.columns)) ∧
      (db'.repositories.rows.countP fun r =>
          unseen (records.map RepositoryRecord.nodeId) r.nodeId) =
        db.repositories.rows.countP fun r =>
          unseen (records.map RepositoryRecord.nodeId) r.nodeId := by
  obtain ⟨hfind, hcount, hother⟩ := upsertAll_replaces Db.repositories
    (fun r : RepositoryRecord => some (r.row observedAt observedAt)) RepositoryRecord.nodeId
    (fun _ _ h => Option.some.inj h ▸ rfl)
    (fun _ _ _ _ _ h => ⟨_, rfl, (of_upsertRepository (RunInput.execute_eq_ok.mp h).2).1⟩) h hnodup
    fun _ => unseen_eq_false
  rw [List.filterMap_eq_map'] at hfind hcount
  refine ⟨fun id => (hfind id).trans ?_, ?_, hother⟩
  · rw [lookup, List.find?_map, Option.map_map]
    rfl
  · rw [hcount, List.countP_map]
    refine List.countP_congr fun r _ => ?_
    rw [Function.comp_apply, writes_repository fun x hx => (Table.find_eq_some.mp hx).2]
    rfl

/-- What the loop over the issues leaves in its table. -/
theorem upsertIssues_replaces {input : RunInput μ} {records : List IssueRecord} {db db' : Db} {n : ℕ}
    (h : upsertIssues input records db = .ok (db', n))
    (hnodup : (records.map IssueRecord.nodeId).Nodup) :
    (∀ id, (db'.issues.delete fun r => unseen (records.map IssueRecord.nodeId) r.nodeId).find id =
      lookup issueDecl (records.filterMap IssueRecord.row) id) ∧
      n = ((records.filterMap IssueRecord.row).countP fun r =>
        decide (db.issues.find r.nodeId ≠ some r)) ∧
      (db'.issues.rows.countP fun r => unseen (records.map IssueRecord.nodeId) r.nodeId) =
        db.issues.rows.countP fun r => unseen (records.map IssueRecord.nodeId) r.nodeId := by
  obtain ⟨hfind, hcount, hother⟩ := upsertAll_replaces Db.issues IssueRecord.row IssueRecord.nodeId
    (fun _ _ h => nodeId_of_issue_row h)
    (fun _ _ _ _ _ h => by
      obtain ⟨row, hrow, hupsert⟩ := Option.bind_eq_some_iff.mp (RunInput.execute_eq_ok.mp h).2
      exact ⟨row, hrow, (of_upsertIssue hupsert).1⟩) h hnodup fun _ => unseen_eq_false
  refine ⟨fun id => (hfind id).trans ?_, ?_, hother⟩
  · cases hlookup : lookup issueDecl (records.filterMap IssueRecord.row) id with
    | none => rfl
    | some r =>
      have hkey : r.nodeId = id := key_of_lookup hlookup
      rw [Option.map_some, issue_merged _ _ fun x hx => (Table.find_eq_some.mp hx).2.trans hkey.symm]
  · rw [hcount]
    refine List.countP_congr fun r _ => ?_
    rw [writes_issue fun x hx => (Table.find_eq_some.mp hx).2]
    rfl

/-- What the loop over the pull requests leaves in its table. -/
theorem upsertPullRequests_replaces {input : RunInput μ} {records : List PullRequestRecord}
    {db db' : Db} {n : ℕ} (h : upsertPullRequests input records db = .ok (db', n))
    (hnodup : (records.map PullRequestRecord.nodeId).Nodup) :
    (∀ id, (db'.pullRequests.delete fun r =>
        unseen (records.map PullRequestRecord.nodeId) r.nodeId).find id =
      lookup pullRequestDecl (records.filterMap PullRequestRecord.row) id) ∧
      n = ((records.filterMap PullRequestRecord.row).countP fun r =>
        decide (db.pullRequests.find r.nodeId ≠ some r)) ∧
      (db'.pullRequests.rows.countP fun r =>
          unseen (records.map PullRequestRecord.nodeId) r.nodeId) =
        db.pullRequests.rows.countP fun r =>
          unseen (records.map PullRequestRecord.nodeId) r.nodeId := by
  obtain ⟨hfind, hcount, hother⟩ := upsertAll_replaces Db.pullRequests PullRequestRecord.row
    PullRequestRecord.nodeId (fun _ _ h => nodeId_of_pullRequest_row h)
    (fun _ _ _ _ _ h => by
      obtain ⟨row, hrow, hupsert⟩ := Option.bind_eq_some_iff.mp (RunInput.execute_eq_ok.mp h).2
      exact ⟨row, hrow, (of_upsertPullRequest hupsert).1⟩) h hnodup fun _ => unseen_eq_false
  refine ⟨fun id => (hfind id).trans ?_, ?_, hother⟩
  · cases hlookup : lookup pullRequestDecl (records.filterMap PullRequestRecord.row) id with
    | none => rfl
    | some r =>
      have hkey : r.nodeId = id := key_of_lookup hlookup
      rw [Option.map_some,
        pullRequest_merged _ _ fun x hx => (Table.find_eq_some.mp hx).2.trans hkey.symm]
  · rw [hcount]
    refine List.countP_congr fun r _ => ?_
    rw [writes_pullRequest fun x hx => (Table.find_eq_some.mp hx).2]
    rfl

/-! ## The transaction

The deletions come after the upserts. A deletion of a repository takes its issues with it, but these are
not in the snapshot anyway, because an accepted item refers to a repository of the snapshot.
-/

/-- The statements of a transaction that returned. -/
theorem of_replaceTables {input : RunInput μ} {s : Snapshot} {db db' : Db} {upserted deleted : Counts}
    {w w' : World κ ν} (h : replaceTables input s db w = (.ok (db', upserted, deleted), w')) :
    ∃ db₁ db₂ db₃ db₄,
      upsertRepositories input s.repositories input.clock.committedAt db =
        .ok (db₁, upserted.repositories) ∧
      upsertIssues input s.issues db₁ = .ok (db₂, upserted.issues) ∧
      upsertPullRequests input s.pullRequests db₂ = .ok (db₃, upserted.pullRequests) ∧
      db₃.touchRepositories input.clock.committedAt (s.repositories.map RepositoryRecord.nodeId) =
        some db₄ ∧
      let issues := db₄.deleteIssues (s.issues.map IssueRecord.nodeId)
      let pullRequests := issues.1.deletePullRequests (s.pullRequests.map PullRequestRecord.nodeId)
      let repositories := pullRequests.1.deleteRepositories
        (s.repositories.map RepositoryRecord.nodeId)
      db' = repositories.1 ∧ deleted = ⟨repositories.2, issues.2, pullRequests.2⟩ := by
  unfold replaceTables at h
  obtain ⟨⟨db₁, n₁⟩, h₁, h⟩ := Prog.ofExcept_bind_eq_ok.mp h
  have h := Prog.modify_bind.mp h
  obtain ⟨⟨db₂, n₂⟩, h₂, h⟩ := Prog.ofExcept_bind_eq_ok.mp h
  have h := Prog.modify_bind.mp h
  obtain ⟨⟨db₃, n₃⟩, h₃, h⟩ := Prog.ofExcept_bind_eq_ok.mp h
  have h := Prog.modify_bind.mp h
  obtain ⟨db₄, h₄, h⟩ := Prog.ofExcept_bind_eq_ok.mp h
  obtain ⟨_, h₅, h⟩ := Prog.ofExcept_bind_eq_ok.mp h
  obtain ⟨_, h₆, h⟩ := Prog.ofExcept_bind_eq_ok.mp h
  obtain ⟨_, h₇, h⟩ := Prog.ofExcept_bind_eq_ok.mp h
  cases (RunInput.execute_eq_ok.mp h₅).2
  cases (RunInput.execute_eq_ok.mp h₆).2
  cases (RunInput.execute_eq_ok.mp h₇).2
  cases h
  exact ⟨db₁, db₂, db₃, db₄, h₁, h₂, h₃, (RunInput.execute_eq_ok.mp h₄).2, rfl, rfl⟩

/-- The statements on the three tables replace their state by that of the snapshot. -/
theorem replaceTables_spec {py : PyLib} {input : RunInput μ} {s : Snapshot} (hs : s.Accepted py)
    {db db' : Db} {upserted deleted : Counts} {w w' : World κ ν}
    (h : replaceTables input s db w = (.ok (db', upserted, deleted), w')) :
    Replaced s input.clock.committedAt db db' upserted deleted := by
  obtain ⟨db₁, db₂, db₃, db₄, h₁, h₂, h₃, h₄, rfl, rfl⟩ := of_replaceTables h
  obtain ⟨hnodup, hnodup', hnodup''⟩ := hs.nodup
  obtain ⟨hrepositories, hcount, hother⟩ := upsertRepositories_replaces h₁ hnodup
  obtain ⟨hissues, hcount', hother'⟩ := upsertIssues_replaces h₂ hnodup'
  obtain ⟨hpullRequests, hcount'', hother''⟩ := upsertPullRequests_replaces h₃ hnodup''
  obtain ⟨hi₁, hp₁, -⟩ := of_upsertRepositories h₁
  obtain ⟨hr₂, hp₂, -⟩ := of_upsertIssues h₂
  obtain ⟨hr₃, hi₃, -⟩ := of_upsertPullRequests h₃
  obtain ⟨htouch, hi₄, hp₄, -⟩ := of_touchRepositories h₄
  rw [hr₃, hr₂] at htouch
  rw [hi₁] at hcount' hother'
  rw [hp₂, hp₁] at hcount'' hother''
  have hcountTouch := Table.countP_update htouch
    fun id => unseen (s.repositories.map RepositoryRecord.nodeId) id
  constructor
  -- repositories: upserted, then dated, then those that are unseen are deleted
  · intro id
    have hfind := hrepositories id
    rw [Table.find_delete] at hfind
    show (db₄.repositories.delete _).find id = _
    rw [Table.find_delete, Table.find_update htouch, Option.filter_map]
    simp only [Function.comp_def, key_touched]
    rw [hfind, Option.map_map]
    cases hr : s.repository id with
    | none =>
      rw [Snapshot.repository] at hr
      rw [hr]
      rfl
    | some r =>
      rw [Snapshot.repository] at hr
      have hid : r.nodeId = id := by simpa using List.find?_some hr
      rw [hr, ← hid]
      exact congrArg some
        (touched_merged db _ (List.mem_map_of_mem (List.mem_of_find?_eq_some hr)))
  -- issues: those of deleted repositories are unseen as well
  · intro id
    show ((db₄.issues.delete _).delete _).find id = _
    rw [Table.find_delete, hi₄, hi₃, hissues]
    exact filter_lookup (fun r hr => by simpa using hs.issueRows_fk hr) id
  · intro id
    show ((db₄.pullRequests.delete _).delete _).find id = _
    rw [Table.find_delete, hp₄, hpullRequests]
    exact filter_lookup (fun r hr => by simpa using hs.pullRequestRows_fk hr) id
  · rw [← hcount, Snapshot.issueRows, ← hcount', Snapshot.pullRequestRows, ← hcount'']
  · show Counts.mk _ _ _ = Counts.mk _ _ _
    rw [Counts.mk.injEq]
    refine ⟨?_, ?_, ?_⟩
    · exact hcountTouch.trans hother
    · show db₄.issues.rows.countP _ = _
      rw [hi₄, hi₃]
      exact hother'
    · show db₄.pullRequests.rows.countP _ = _
      rw [hp₄]
      exact hother''

/-- It stays replaced while the three tables stay. -/
theorem Replaced.of_sameTables {s : Snapshot} {committedAt : Instant} {before after after' : Db}
    {upserted deleted : Counts} (h : Replaced s committedAt before after upserted deleted)
    (hsame : after'.SameTables after) : Replaced s committedAt before after' upserted deleted where
  repositories id := by rw [hsame.repositories, h.repositories]
  issues id := by rw [hsame.issues, h.issues]
  pullRequests id := by rw [hsame.pullRequests, h.pullRequests]
  upserted := h.upserted
  deleted := h.deleted

/-! ## The difference that a commit makes

A counter is zero exactly if there was nothing to do. For the repositories this holds because the dates of
the sightings are not counted.
-/

/-- A replaced database shows the snapshot. -/
theorem Replaced.currentState_eq {s : Snapshot} {committedAt : Instant} {before after : Db}
    {upserted deleted : Counts} (h : Replaced s committedAt before after upserted deleted) :
    after.currentState = s.currentState := by
  apply CurrentState.ext
  · funext id
    show (after.repositories.find id).map Repository.columns = _
    rw [h.repositories id, Option.map_map]
    rfl
  · funext id
    exact h.issues id
  · funext id
    exact h.pullRequests id

section Counters

variable {py : PyLib} {s : Snapshot} (hs : s.Accepted py) {committedAt : Instant} {before after : Db}
  {upserted deleted : Counts} (h : Replaced s committedAt before after upserted deleted)
include hs h

/-- The counters of the repositories are zero exactly when they already showed the snapshot. -/
theorem Replaced.repositories_unchanged :
    before.currentState.repositories = s.currentState.repositories ↔
      upserted.repositories = 0 ∧ deleted.repositories = 0 := by
  have hkeys : (s.repositories.map fun r => r.row committedAt committedAt).map Repository.nodeId =
      s.repositories.map RepositoryRecord.nodeId := List.map_map
  have hshows := shows_iff before.repositories
    (s.repositories.map fun r => r.row committedAt committedAt) (hkeys ▸ hs.nodup.1)
    (unseen (s.repositories.map RepositoryRecord.nodeId))
    (fun id => unseen_eq_false.trans (by rw [← hkeys]; rfl)) Repository.columns
  have hlookup : ∀ id, (lookup repositoryDecl
      (s.repositories.map fun r => r.row committedAt committedAt) id).map Repository.columns =
      (s.repository id).map RepositoryRecord.columns := by
    intro id
    rw [lookup, List.find?_map, Option.map_map]
    rfl
  rw [List.countP_map] at hshows
  simp only [hlookup] at hshows
  rw [funext_iff, h.upserted, h.deleted]
  exact hshows

/-- The counters of the issues are zero exactly when they already showed the snapshot. -/
theorem Replaced.issues_unchanged :
    before.currentState.issues = s.currentState.issues ↔
      upserted.issues = 0 ∧ deleted.issues = 0 := by
  have hshows := shows_iff before.issues s.issueRows (hs.key_issueRows ▸ hs.nodup.2.1)
    (unseen (s.issues.map IssueRecord.nodeId))
    (fun id => unseen_eq_false.trans (by rw [← hs.key_issueRows]; rfl)) id
  simp only [Option.map_id, id_eq] at hshows
  rw [funext_iff, h.upserted, h.deleted]
  exact hshows

/-- The counters of the pull requests are zero exactly when they already showed the snapshot. -/
theorem Replaced.pullRequests_unchanged :
    before.currentState.pullRequests = s.currentState.pullRequests ↔
      upserted.pullRequests = 0 ∧ deleted.pullRequests = 0 := by
  have hshows := shows_iff before.pullRequests s.pullRequestRows
    (hs.key_pullRequestRows ▸ hs.nodup.2.2) (unseen (s.pullRequests.map PullRequestRecord.nodeId))
    (fun id => unseen_eq_false.trans (by rw [← hs.key_pullRequestRows]; rfl)) id
  simp only [Option.map_id, id_eq] at hshows
  rw [funext_iff, h.upserted, h.deleted]
  exact hshows

/-- Something was written or deleted exactly when the database did not show the snapshot before. -/
theorem Replaced.anyCount_iff :
    anyCount upserted deleted = true ↔ after.currentState ≠ before.currentState := by
  have hzero : anyCount upserted deleted = false ↔
      (upserted.repositories = 0 ∧ deleted.repositories = 0) ∧
      (upserted.issues = 0 ∧ deleted.issues = 0) ∧
      upserted.pullRequests = 0 ∧ deleted.pullRequests = 0 := by
    simp only [anyCount, List.any_cons, List.any_nil, Bool.or_false, Bool.or_eq_false_iff,
      decide_eq_false_iff_not, not_not, ne_eq]
    tauto
  rw [h.currentState_eq, ne_comm, ne_eq, CurrentState.ext_iff, h.repositories_unchanged hs,
    h.issues_unchanged hs, h.pullRequests_unchanged hs, ← hzero, Bool.not_eq_false]

end Counters

/-! ## The commit

The same for the whole transaction, with its audit row and `sync_state`.
-/

/-- A transaction that returned has replaced the tables, dated `sync_state` and closed its audit row. -/
theorem of_applySnapshot {input : RunInput μ} {runId : ℤ} {startedAt : Instant} {s : Snapshot}
    {db db' : Db} {summary : Summary} {w w' : World κ ν}
    (h : applySnapshot input runId startedAt s db w = (.ok (db', summary), w')) :
    ∃ db₁ db₂ upserted deleted,
      replaceTables input s db w = (.ok (db₁, upserted, deleted), w') ∧
      db₁.setSyncState (committedState s.sourceAt input.clock.committedAt) = some db₂ ∧
      summary = commitSummary input.clock runId startedAt s upserted deleted ∧
      db₂.updateRun runId (committedRun summary) (committedRun_id summary) = some db' := by
  unfold applySnapshot at h
  obtain ⟨⟨db₁, upserted, deleted⟩, w₁, h₁, h⟩ := Prog.bind_eq_ok.mp h
  obtain ⟨db₂, h₂, h⟩ := Prog.ofExcept_bind_eq_ok.mp h
  obtain ⟨db₃, h₃, h⟩ := Prog.ofExcept_bind_eq_ok.mp h
  obtain ⟨-, -, h⟩ := Prog.ofExcept_bind_eq_ok.mp h
  cases h
  exact ⟨db₁, db₂, upserted, deleted, h₁, (RunInput.execute_eq_ok.mp h₂).2, rfl,
    (RunInput.execute_eq_ok.mp h₃).2⟩

/-- A commit that returned has run its whole transaction on the database it found. -/
theorem of_commitSnapshot {input : RunInput μ} {runId : ℤ} {startedAt : Instant} {s : Snapshot}
    {summary : Summary} {w w' : World κ ν}
    (h : commitSnapshot input runId startedAt s w = (.ok summary, w')) :
    ∃ w₁ w₂ : World κ ν,
      applySnapshot input runId startedAt s w.db w₁ = (.ok (w'.db, summary), w₂) := by
  unfold commitSnapshot at h
  have h := Prog.modify_bind.mp h
  obtain ⟨-, -, h⟩ := Prog.ofExcept_bind_eq_ok.mp h
  have h := Prog.get_bind.mp h
  obtain ⟨⟨db', summary'⟩, w₂, htry, h⟩ := Prog.bind_eq_ok.mp h
  cases Prog.modify_bind.mp h
  rcases Prog.of_tryExcept_ok htry with happly | ⟨e, w₃, -, hraise⟩
  · exact ⟨_, w₂, happly⟩
  · -- the handler always raises
    obtain ⟨-, -, hraise⟩ := Prog.ofExcept_bind_eq_ok.mp hraise
    cases hraise

/-- A commit of an accepted snapshot makes the database show it. -/
theorem committed_of_commitSnapshot {py : PyLib} {s : Snapshot} (hs : s.Accepted py)
    {input : RunInput μ} {runId : ℤ} {startedAt : Instant} {summary : Summary} {w w' : World κ ν}
    (h : commitSnapshot input runId startedAt s w = (.ok summary, w')) :
    Committed s input.clock.committedAt w.db w'.db summary := by
  obtain ⟨w₁, w₂, happly⟩ := of_commitSnapshot h
  obtain ⟨db₁, db₂, upserted, deleted, hreplace, hstate, rfl, hrun⟩ := of_applySnapshot happly
  obtain ⟨-, hsame, -, -⟩ := of_setSyncState hstate
  obtain ⟨-, hsame', -⟩ := of_updateRun hrun
  -- the last two statements do not touch the three tables
  have hafter := ((replaceTables_spec hs hreplace).of_sameTables hsame).of_sameTables hsame'
  refine { hafter with dataChanged := hafter.anyCount_iff hs, audited := ?_ }
  intro run hfind
  obtain ⟨old, -, rfl⟩ := Option.map_eq_some_iff.mp ((find_updateRun hrun).symm.trans hfind)
  exact ⟨rfl, rfl, rfl⟩

/-- Complete replacement: a commit of a snapshot that validation accepted leaves exactly its rows and
reports the difference exactly. Another commit of the snapshot, from whatever state, shows the same
state; if the state is still shown, it changes nothing and says so. -/
theorem commitSnapshot_replaces {py : PyLib} {json : Json ν} {s : Snapshot}
    (hvalid : validateSnapshot py json = .ok s) {input : RunInput μ} {runId : ℤ}
    {startedAt : Instant} {summary : Summary} {w w' : World κ ν}
    (hcommit : commitSnapshot input runId startedAt s w = (.ok summary, w')) :
    Committed s input.clock.committedAt w.db w'.db summary ∧
      ∀ (input₂ : RunInput μ) (runId₂ : ℤ) (startedAt₂ : Instant) (summary₂ : Summary)
        (w₂ w₂' : World κ ν), commitSnapshot input₂ runId₂ startedAt₂ s w₂ = (.ok summary₂, w₂') →
        w₂'.db.currentState = w'.db.currentState ∧
        (w₂.db.currentState = w'.db.currentState → summary₂.dataChanged = false) := by
  have hs := accepted_of_validateSnapshot hvalid
  have hcommitted := committed_of_commitSnapshot hs hcommit
  refine ⟨hcommitted, fun input₂ runId₂ startedAt₂ summary₂ w₂ w₂' hcommit₂ => ?_⟩
  have hcommitted₂ := committed_of_commitSnapshot hs hcommit₂
  have hsame : w₂'.db.currentState = w'.db.currentState :=
    hcommitted₂.currentState_eq.trans hcommitted.currentState_eq.symm
  refine ⟨hsame, fun hunchanged => ?_⟩
  rw [← Bool.not_eq_true, hcommitted₂.dataChanged, not_not, hsame, hunchanged]

/-- A run at a fixed time. -/
def inputAt (now : Instant) : RunInput Unit :=
  { quietInput fun _ _ => .raised [] with clock := ⟨now, now, now, now, now⟩ }

/-- A snapshot with another address and another number for the repository and the issue of the sample, and
with a second repository that has an issue of its own. -/
def staleSnapshot : Snapshot where
  sourceAt := 1786406300000000
  login := lit "me"
  repositories := [⟨lit "R", lit "org/r", lit "org", lit "o"⟩, ⟨lit "Q", lit "org/q", lit "org", lit "o"⟩]
  issues :=
    [⟨lit "I", lit "R", 6, lit "v", some 1786406300000000, some 1786406300000000, none, lit "OPEN", none⟩,
      ⟨lit "J", lit "Q", 6, lit "v", some 1786406300000000, some 1786406300000000, none, lit "OPEN", none⟩]
  pullRequests := []

/-- A process with the audit row of a run. -/
def withRun (id : ℤ) (startedAt : Instant) (w : World Unit Unit) : World Unit Unit :=
  { w with db := (w.db.insertRun id (lit "manual") startedAt).getD w.db }

/-- Run 2 has its audit row, after run 1 has committed the stale snapshot at time 10. -/
def openedSecond : World Unit Unit :=
  withRun 2 20 (commitSnapshot (inputAt 10) 1 10 staleSnapshot (withRun 1 10 (.start .empty 300))).2

/-- The commit of the sample snapshot by run 2. -/
def sampleCommit : Except Exc Summary × World Unit Unit :=
  commitSnapshot (inputAt 20) 2 20 (sampleSnapshot 7) openedSecond

/-- The sample commit updates the repository and the issue, keeps when the repository was first seen and
deletes the other repository with its issue; committing the sample again reports no change. -/
theorem sampleCommit_replaces :
    (sampleCommit.2.db.repositories.rows.map fun r => (r.nodeId, r.firstSeenAt, r.lastSeenAt)) =
        [(lit "R", 10, 20)] ∧
      (Committed (sampleSnapshot 7) 20 openedSecond.db sampleCommit.2.db
          (commitSummary (inputAt 20).clock 2 20 (sampleSnapshot 7) ⟨1, 1, 0⟩ ⟨1, 1, 0⟩) ∧
        ∀ (input₂ : RunInput Unit) (runId₂ : ℤ) (startedAt₂ : Instant) (summary₂ : Summary)
          (w₂ w₂' : World Unit Unit),
          commitSnapshot input₂ runId₂ startedAt₂ (sampleSnapshot 7) w₂ = (.ok summary₂, w₂') →
          w₂'.db.currentState = sampleCommit.2.db.currentState ∧
          (w₂.db.currentState = sampleCommit.2.db.currentState → summary₂.dataChanged = false)) :=
  ⟨rfl, commitSnapshot_replaces
    (show validateSnapshot samplePy (sampleJson 7 : Json Unit) = .ok (sampleSnapshot 7) from rfl)
    (show commitSnapshot (inputAt 20) 2 20 (sampleSnapshot 7) openedSecond =
      (.ok _, sampleCommit.2) from rfl)⟩

end Ghpulse.Ingest
