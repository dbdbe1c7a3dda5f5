import Ghpulse.Ingest.Replacement

/-!
# What the database admits

The validator and the schema accept snapshots by two sets of conditions written independently. Here the
two are compared: every `CHECK`, `NOT NULL` and key of the schema follows from what validation checked,
but two column domains do not. `commitSnapshot_returns_iff` says exactly which accepted snapshots a
fault-free commit stores.

References: `backend/ingest.py`, `backend/schema.sql`.

What differs is the domain of a column: PostgreSQL stores no text with `U+0000` and no lone surrogate, and
an `INTEGER` ends at `2 ^ 31`. Both kinds of values pass the validator, and the statement that would store
them raises.
-/

open Python Effect Keyed

namespace Ghpulse.Ingest

variable {κ ν μ : Type}

/-! ## Row constraints

One lemma per table: an accepted record meets every check of its row, and what is left are the two
domains.
-/

/-- The text of a repository can be stored. -/
def RepositoryRecord.Storable (r : RepositoryRecord) : Prop :=
  Sql.storable r.nodeId = true ∧ Sql.storable r.nameWithOwner = true ∧
    Sql.storable r.ownerLogin = true ∧ Sql.storable r.url = true

/-- The text and the number of an issue can be stored. -/
def IssueRecord.Storable (r : IssueRecord) : Prop :=
  Sql.storable r.nodeId = true ∧ Sql.storable r.repositoryId = true ∧ Sql.storable r.url = true ∧
    r.stateReason.all Sql.storable = true ∧ r.number ≤ 2 ^ 31 - 1

/-- The text and the number of a pull request can be stored. -/
def PullRequestRecord.Storable (r : PullRequestRecord) : Prop :=
  Sql.storable r.nodeId = true ∧ Sql.storable r.repositoryId = true ∧ Sql.storable r.url = true ∧
    r.number ≤ 2 ^ 31 - 1

/-- A positive number is an `INTEGER` exactly when it is below `2 ^ 31`. -/
theorem fitsInteger_of_pos {z : ℤ} (h : 1 ≤ z) :
    Sql.fitsInteger z = true ↔ z ≤ 2 ^ 31 - 1 := by
  rw [Sql.fitsInteger, decide_eq_true_eq]
  omega

/-- The checks of the server admit a repository that can be stored. -/
theorem check_repository_row (r : RepositoryRecord) (firstSeenAt lastSeenAt : Instant) :
    (r.row firstSeenAt lastSeenAt).check = true ↔ r.Storable := by
  simp [Repository.check, RepositoryRecord.row, RepositoryRecord.Storable, Sql.isBool, and_assoc]

/-- An accepted `state_reason` meets `issues_state_reason_shape_check`. -/
theorem admits_stateReasonShape {r : IssueRecord} {row : Issue}
    (h : ∀ reason ∈ r.stateReason,
      reason ≠ [] ∧ reason.length ≤ maxStateReasonLength ∧ strip reason ≠ [])
    (hrow : r.row = some row) : Sql.admits row.stateReasonShape = true := by
  obtain ⟨createdAt, updatedAt, -, -, rfl⟩ := of_issue_row hrow
  unfold Issue.stateReasonShape
  cases hreason : r.stateReason with
  | none => rfl
  | some reason =>
    obtain ⟨hne, hlength, hstrip⟩ := h reason hreason
    have hpos : 1 ≤ reason.length := List.length_pos_of_ne_nil hne
    have hbetween : Sql.between (some reason.length) 1 64 = some true :=
      congrArg some (decide_eq_true ⟨hpos, hlength⟩)
    have hblank : Sql.eq (some (Sql.btrim reason)) (some []) = some false :=
      congrArg some (decide_eq_false (Sql.btrim_ne_nil hstrip))
    rw [Option.map_some, Option.map_some, hbetween, Sql.ne, hblank]
    rfl

/-- An accepted state of an issue meets the state constraints. -/
theorem admits_issueState {r : IssueRecord} {row : Issue} (hshape : r.StateShape)
    (hrow : r.row = some row) :
    Sql.admits (Sql.isIn (some row.state) [lit "OPEN", lit "CLOSED"]) = true ∧
      Sql.admits row.stateReasonState = true ∧ Sql.storable row.state = true := by
  obtain ⟨createdAt, updatedAt, -, -, rfl⟩ := of_issue_row hrow
  rcases hshape with ⟨hstate, hclosed, hcompleted, hplanned⟩ | ⟨hstate, hclosed, hreason, hreopened⟩
  · simp only [Issue.stateReasonState, hstate, hclosed]
    refine ⟨rfl, ?_, rfl⟩
    cases hreason : r.stateReason with
    | none => rfl
    | some reason =>
      have hin : Sql.isIn (some reason) [lit "COMPLETED", lit "NOT_PLANNED"] = some false := by
        rw [hreason, ne_eq, Option.some.injEq] at hcompleted hplanned
        simp [Sql.isIn, hcompleted, hplanned]
      rw [hin]
      rfl
  · obtain ⟨reason, hsome⟩ := Option.ne_none_iff_exists'.mp hreason
    obtain ⟨closedAt, hat⟩ := Option.isSome_iff_exists.mp hclosed
    rw [hsome, ne_eq, Option.some.injEq] at hreopened
    have hne : Sql.ne (some reason) (some (lit "REOPENED")) = some true := by
      simp [Sql.ne, Sql.eq, Sql.compare, Sql.not, hreopened]
    simp only [Issue.stateReasonState, hstate, hat, hsome, hne]
    exact ⟨rfl, rfl, rfl⟩

/-- An accepted state of a pull request meets the state constraints. -/
theorem admits_pullRequestState {r : PullRequestRecord} {row : PullRequest} (hshape : r.StateShape)
    (hrow : r.row = some row) :
    Sql.admits (Sql.isIn (some row.state) [lit "OPEN", lit "CLOSED", lit "MERGED"]) = true ∧
      Sql.admits row.stateShape = true ∧ Sql.storable row.state = true := by
  obtain ⟨createdAt, updatedAt, -, -, rfl⟩ := of_pullRequest_row hrow
  rcases hshape with ⟨hstate, hmerged, hclosed, hat⟩ | ⟨hstate, hmerged, hclosed, hat⟩ |
    ⟨hstate, hmerged, hclosed, hat⟩
  · simp only [PullRequest.stateShape, hstate, hmerged, hclosed, hat]
    exact ⟨rfl, rfl, rfl⟩
  · obtain ⟨closedAt, hclosed⟩ := Option.isSome_iff_exists.mp hclosed
    simp only [PullRequest.stateShape, hstate, hmerged, hclosed, hat]
    exact ⟨rfl, rfl, rfl⟩
  · obtain ⟨closedAt, hclosed⟩ := Option.isSome_iff_exists.mp hclosed
    obtain ⟨mergedAt, hat⟩ := Option.isSome_iff_exists.mp hat
    simp only [PullRequest.stateShape, hstate, hmerged, hclosed, hat]
    exact ⟨rfl, rfl, rfl⟩

/-- The constraints of an issue row that validation does not imply are those of its column domains. -/
theorem check_issue_row {repositories : List RepositoryRecord} {r : IssueRecord} {row : Issue}
    (h : r.Accepted repositories) (hrow : r.row = some row) : row.check = true ↔ r.Storable := by
  obtain ⟨hstates, hstate, hstored⟩ := admits_issueState h.shape hrow
  have hshape := admits_stateReasonShape h.reason hrow
  obtain ⟨createdAt, updatedAt, -, -, rfl⟩ := of_issue_row hrow
  have hpos : (0 : ℤ) < r.number := h.number_pos
  simp only [Issue.check, Issue.textStorable, hstates, hstate, hstored, hshape,
    Bool.and_eq_true, fitsInteger_of_pos h.number_pos, IssueRecord.Storable, Sql.compare,
    Sql.admits_some, Sql.isBool, hpos, decide_true, and_true, and_assoc]

/-- The constraints of a pull request row that validation does not imply are those of its column
domains. -/
theorem check_pullRequest_row {repositories : List RepositoryRecord} {r : PullRequestRecord}
    {row : PullRequest} (h : r.Accepted repositories) (hrow : r.row = some row) :
    row.check = true ↔ r.Storable := by
  obtain ⟨hstates, hstate, hstored⟩ := admits_pullRequestState h.shape hrow
  obtain ⟨createdAt, updatedAt, -, -, rfl⟩ := of_pullRequest_row hrow
  have hpos : (0 : ℤ) < r.number := h.number_pos
  simp only [PullRequest.check, PullRequest.textStorable, hstates, hstate, hstored,
    Bool.and_eq_true, fitsInteger_of_pos h.number_pos, PullRequestRecord.Storable, Sql.compare,
    Sql.admits_some, Sql.isBool, hpos, decide_true, and_true, and_assoc]

/-! ## When a statement is executed

A statement returns where the schema admits its row, and for an issue or a pull request where its
repository is stored. The loops run in this order for that reason.
-/

/-- Its upsert succeeds when they do. -/
theorem upsertRepository_isSome {db : Db} {r : Repository} :
    (db.upsertRepository r).isSome = true ↔ r.check = true := by
  have hupsert : (db.repositories.upsert repositoryConflict r).isSome = true ↔ r.check = true :=
    Table.upsert_isSome fun old hkey hcheck => by
      simp only [repositoryDecl, Repository.check, repositoryConflict] at hkey hcheck ⊢
      rw [hkey]
      exact hcheck
  rw [← hupsert, Db.upsertRepository]
  split
  · rename_i h
    simp [h]
  · rename_i t written h
    simp [h]

/-- An issue whose repository is stored is written if it meets its constraints. -/
theorem upsertIssue_isSome {db : Db} {r : Issue}
    (hfk : (db.repositories.find r.repositoryId).isSome = true) :
    (db.upsertIssue r).isSome = true ↔ r.check = true := by
  have hupsert : (db.issues.upsert issueConflict r).isSome = true ↔ r.check = true :=
    Table.upsert_isSome fun old hkey hcheck => (issue_set hkey).symm ▸ hcheck
  rw [← hupsert, Db.upsertIssue]
  split
  · rename_i h
    simp [h]
  · rename_i t written h
    rw [dif_pos fun _ => hfk]
    simp [h]

/-- A pull request whose repository is stored is written if it meets its constraints. -/
theorem upsertPullRequest_isSome {db : Db} {r : PullRequest}
    (hfk : (db.repositories.find r.repositoryId).isSome = true) :
    (db.upsertPullRequest r).isSome = true ↔ r.check = true := by
  have hupsert : (db.pullRequests.upsert pullRequestConflict r).isSome = true ↔ r.check = true :=
    Table.upsert_isSome fun old hkey hcheck => (pullRequest_set hkey).symm ▸ hcheck
  rw [← hupsert, Db.upsertPullRequest]
  split
  · rename_i h
    simp [h]
  · rename_i t written h
    rw [dif_pos fun _ => hfk]
    simp [h]

/-- Setting `last_seen_at` breaks no constraint. -/
theorem touchRepositories_isSome (db : Db) (at' : Instant) (ids : List Str) :
    (db.touchRepositories at' ids).isSome = true := by
  have hupdate : (db.repositories.update (touched at' ids) (key_touched at' ids)).isSome = true :=
    Table.update_isSome.mpr fun r hr => by
      unfold touched
      split_ifs
      · exact db.repositories.checked r hr
      · exact db.repositories.checked r hr
  unfold Db.touchRepositories
  split
  · rename_i h
    simp [h] at hupdate
  · rfl

/-- The row a commit writes to `sync_state` is always stored. -/
theorem setSyncState_committed (db : Db) (sourceAt committedAt : Instant) :
    (db.setSyncState (committedState sourceAt committedAt)).isSome = true := rfl

/-- A stored run can be finished with counts that fit. -/
theorem check_committedRun {r : IngestRun} (hr : r.check = true) (summary : Summary) :
    (committedRun summary r).check = true ↔
      summary.fetched.fit = true ∧ summary.upserted.fit = true ∧ summary.deleted.fit = true := by
  simp only [IngestRun.check, Bool.and_eq_true, and_assoc] at hr
  simp only [IngestRun.check, committedRun, hr.1, hr.2.1, Bool.and_eq_true, true_and, and_assoc,
    Option.all_none, and_true]

/-- The counts of a commit are stored in the row of its run, if there is one, when they fit. -/
theorem updateRun_isSome {db : Db} {runId : ℤ} {summary : Summary} :
    (db.updateRun runId (committedRun summary) fun _ => rfl).isSome = true ↔
      ((db.ingestRuns.find runId).isSome = true → summary.fetched.fit = true ∧
        summary.upserted.fit = true ∧ summary.deleted.fit = true) := by
  unfold Db.updateRun
  rw [Option.isSome_map, Table.update_isSome]
  constructor
  · intro h hsome
    obtain ⟨r, hfind⟩ := Option.isSome_iff_exists.mp hsome
    obtain ⟨hr, hid⟩ := Table.find_eq_some.mp hfind
    have hcheck := h r hr
    rw [Table.setAt, if_pos hid] at hcheck
    exact (check_committedRun (db.ingestRuns.checked r hr) summary).mp hcheck
  · intro h r hr
    unfold Table.setAt
    split_ifs with hid
    · have hfind := Table.find_eq_some.mpr ⟨hr, hid⟩
      exact (check_committedRun (db.ingestRuns.checked r hr) summary).mpr (h (by rw [hfind]; rfl))
    · exact db.ingestRuns.checked r hr

/-! ## The transaction

Statement by statement, without faults: each returns exactly when its records can be stored, whatever the
tables held before.
-/

/-- The connection raises nowhere by itself. -/
def RunInput.Quiet (input : RunInput μ) : Prop := ∀ p, input.faults p = none

/-- Without a fault a statement returns when the server executes it. -/
theorem RunInput.Quiet.execute_returns {α : Type} {input : RunInput μ} (hq : input.Quiet) {p : Point}
    {effect : Option α} : (∃ a, input.execute p effect = .ok a) ↔ effect.isSome = true := by
  rw [Option.isSome_iff_exists]
  exact exists_congr fun a => RunInput.execute_eq_ok.trans (and_iff_right (hq p))

section Transaction

variable {input : RunInput μ} (hq : input.Quiet)
include hq

/-- The loop over the repositories returns when each can be stored. -/
theorem upsertRepositories_returns_iff (records : List RepositoryRecord) (observedAt : Instant)
    (db : Db) : (∃ out, upsertRepositories input records observedAt db = .ok out) ↔
      ∀ r ∈ records, r.Storable :=
  upsertAll_returns_iff (I := fun _ => True) (fun _ _ _ _ _ _ _ => trivial)
    (fun r _ _ _ _ => hq.execute_returns.trans
      (upsertRepository_isSome.trans (check_repository_row r observedAt observedAt))) trivial

/-- The repositories that issues and pull requests refer to are stored. -/
def Db.Stores (db : Db) (repositories : List RepositoryRecord) : Prop :=
  ∀ id ∈ repositories.map RepositoryRecord.nodeId, (db.repositories.find id).isSome = true

/-- So does the loop over the issues, once their repositories are there. -/
theorem upsertIssues_returns_iff {repositories : List RepositoryRecord} {records : List IssueRecord}
    (haccepted : ∀ r ∈ records, r.Accepted repositories) {db : Db} (hdb : db.Stores repositories) :
    (∃ out, upsertIssues input records db = .ok out) ↔ ∀ r ∈ records, r.Storable := by
  refine upsertAll_returns_iff (I := fun db : Db => db.Stores repositories) ?_ ?_ hdb
  · intro i r db db' changed hdb h
    obtain ⟨row, -, hupsert⟩ := Option.bind_eq_some_iff.mp (RunInput.execute_eq_ok.mp h).2
    intro id hid
    rw [(of_upsertIssue hupsert).2.1]
    exact hdb id hid
  · intro r hr i db hdb
    obtain ⟨row, hrow⟩ := Option.isSome_iff_exists.mp (haccepted r hr).row_isSome
    have hfk : (db.repositories.find row.repositoryId).isSome = true := by
      obtain ⟨createdAt, updatedAt, -, -, rfl⟩ := of_issue_row hrow
      exact hdb _ (haccepted r hr).repositoryId_mem
    rw [hq.execute_returns, hrow, Option.bind_some, upsertIssue_isSome hfk]
    exact check_issue_row (haccepted r hr) hrow

/-- And the loop over the pull requests. -/
theorem upsertPullRequests_returns_iff {repositories : List RepositoryRecord}
    {records : List PullRequestRecord} (haccepted : ∀ r ∈ records, r.Accepted repositories) {db : Db}
    (hdb : db.Stores repositories) :
    (∃ out, upsertPullRequests input records db = .ok out) ↔ ∀ r ∈ records, r.Storable := by
  refine upsertAll_returns_iff (I := fun db : Db => db.Stores repositories) ?_ ?_ hdb
  · intro i r db db' changed hdb h
    obtain ⟨row, -, hupsert⟩ := Option.bind_eq_some_iff.mp (RunInput.execute_eq_ok.mp h).2
    intro id hid
    rw [(of_upsertPullRequest hupsert).2.1]
    exact hdb id hid
  · intro r hr i db hdb
    obtain ⟨row, hrow⟩ := Option.isSome_iff_exists.mp (haccepted r hr).row_isSome
    have hfk : (db.repositories.find row.repositoryId).isSome = true := by
      obtain ⟨createdAt, updatedAt, -, -, rfl⟩ := of_pullRequest_row hrow
      exact hdb _ (haccepted r hr).repositoryId_mem
    rw [hq.execute_returns, hrow, Option.bind_some, upsertPullRequest_isSome hfk]
    exact check_pullRequest_row (haccepted r hr) hrow

omit hq in
/-- After the first loop the repositories of the snapshot are stored. -/
theorem stores_of_upsertRepositories {records : List RepositoryRecord} {observedAt : Instant}
    {db db' : Db} {n : ℕ} (h : upsertRepositories input records observedAt db = .ok (db', n))
    (hnodup : (records.map RepositoryRecord.nodeId).Nodup) : db'.Stores records := by
  intro id hid
  obtain ⟨r, hr, rfl⟩ := List.mem_map.mp hid
  have hfind := (upsertRepositories_replaces h hnodup).1 r.nodeId
  have hsome : (records.find? fun x => decide (x.nodeId = r.nodeId)).isSome = true := by
    rw [List.find?_isSome]
    exact ⟨r, hr, decide_eq_true rfl⟩
  rw [Table.find_delete] at hfind
  have hkept := congrArg Option.isSome hfind
  rw [Option.isSome_map, hsome] at hkept
  exact Option.isSome_of_isSome_filter _ _ hkept

/-- The column domains that validation does not check. -/
structure Snapshot.Storable (s : Snapshot) : Prop where
  repositories : ∀ r ∈ s.repositories, r.Storable
  issues : ∀ r ∈ s.issues, r.Storable
  pullRequests : ∀ r ∈ s.pullRequests, r.Storable

/-- The statements on the three tables are all executed exactly when the records can be stored. -/
theorem replaceTables_returns_iff {py : PyLib} {s : Snapshot} (hs : s.Accepted py) (db : Db)
    (w : World κ ν) : (∃ out w', replaceTables input s db w = (.ok out, w')) ↔ s.Storable := by
  constructor
  · rintro ⟨⟨db', upserted, deleted⟩, w', h⟩
    obtain ⟨db₁, db₂, db₃, db₄, h₁, h₂, h₃, -⟩ := of_replaceTables h
    have hdb₁ := stores_of_upsertRepositories h₁ hs.nodup.1
    have hdb₂ : db₂.Stores s.repositories := by
      rw [Db.Stores, (of_upsertIssues h₂).1]
      exact hdb₁
    exact ⟨(upsertRepositories_returns_iff hq _ _ _).mp ⟨_, h₁⟩,
      (upsertIssues_returns_iff hq hs.issues hdb₁).mp ⟨_, h₂⟩,
      (upsertPullRequests_returns_iff hq hs.pullRequests hdb₂).mp ⟨_, h₃⟩⟩
  · intro hstorable
    obtain ⟨⟨db₁, n₁⟩, h₁⟩ := (upsertRepositories_returns_iff hq s.repositories
      input.clock.committedAt db).mpr hstorable.repositories
    have hdb₁ := stores_of_upsertRepositories h₁ hs.nodup.1
    obtain ⟨⟨db₂, n₂⟩, h₂⟩ := (upsertIssues_returns_iff hq hs.issues hdb₁).mpr hstorable.issues
    have hdb₂ : db₂.Stores s.repositories := by
      rw [Db.Stores, (of_upsertIssues h₂).1]
      exact hdb₁
    obtain ⟨⟨db₃, n₃⟩, h₃⟩ :=
      (upsertPullRequests_returns_iff hq hs.pullRequests hdb₂).mpr hstorable.pullRequests
    obtain ⟨db₄, h₄⟩ := Option.isSome_iff_exists.mp (touchRepositories_isSome db₃
      input.clock.committedAt (s.repositories.map RepositoryRecord.nodeId))
    have h₄ := RunInput.execute_eq_ok.mpr ⟨hq .touchRepositories, h₄⟩
    have hdelete {α : Type} (p : Point) (a : α) : input.execute p (some a) = .ok a :=
      RunInput.execute_eq_ok.mpr ⟨hq p, rfl⟩
    exact ⟨_, _, Prog.ofExcept_bind_eq_ok.mpr ⟨_, h₁, Prog.modify_bind.mpr
      (Prog.ofExcept_bind_eq_ok.mpr ⟨_, h₂, Prog.modify_bind.mpr
      (Prog.ofExcept_bind_eq_ok.mpr ⟨_, h₃, Prog.modify_bind.mpr
      (Prog.ofExcept_bind_eq_ok.mpr ⟨_, h₄,
      Prog.ofExcept_bind_eq_ok.mpr ⟨_, hdelete _ _,
      Prog.ofExcept_bind_eq_ok.mpr ⟨_, hdelete _ _,
      Prog.ofExcept_bind_eq_ok.mpr ⟨_, hdelete _ _, rfl⟩⟩⟩⟩)⟩)⟩)⟩⟩

end Transaction

/-! ## The commit

The counts of a commit go into `INTEGER` columns too, so a snapshot with very many records, or a database
with very many rows to delete, does not fit.
-/

/-- Everything an accepted snapshot needs to be stored: its text and numbers fit their columns, and if
the run has an audit row, so do the numbers of its records and of the stored rows it lacks. -/
structure Snapshot.Fits (s : Snapshot) (db : Db) (runId : ℤ) : Prop extends Snapshot.Storable s where
  counts : (db.ingestRuns.find runId).isSome = true →
    s.fetched.fit = true ∧ (db.unseenCounts s).fit = true

/-- Smaller counts fit, too. -/
theorem Counts.fit_mono {c c' : Counts} (hrepositories : c.repositories ≤ c'.repositories)
    (hissues : c.issues ≤ c'.issues) (hpullRequests : c.pullRequests ≤ c'.pullRequests)
    (h : c'.fit = true) : c.fit = true := by
  simp only [Counts.fit, Sql.fitsInteger, Bool.and_eq_true, decide_eq_true_eq] at h ⊢
  omega

/-- A commit writes at most the rows it fetched. -/
theorem Replaced.upserted_fit {py : PyLib} {s : Snapshot} (hs : s.Accepted py)
    {committedAt : Instant} {before after : Db} {upserted deleted : Counts}
    (h : Replaced s committedAt before after upserted deleted) (hfit : s.fetched.fit = true) :
    upserted.fit = true := by
  have hissues : s.issueRows.length = s.issues.length := by
    simpa using congrArg List.length hs.key_issueRows
  have hpullRequests : s.pullRequestRows.length = s.pullRequests.length := by
    simpa using congrArg List.length hs.key_pullRequestRows
  rw [h.upserted]
  exact Counts.fit_mono List.countP_le_length (List.countP_le_length.trans_eq hissues)
    (List.countP_le_length.trans_eq hpullRequests) hfit

/-- The audit row of a run is not touched by the statements on the three tables. -/
theorem ingestRuns_replaceTables {input : RunInput μ} {s : Snapshot} {db db' : Db}
    {upserted deleted : Counts} {w w' : World κ ν}
    (h : replaceTables input s db w = (.ok (db', upserted, deleted), w')) :
    db'.ingestRuns = db.ingestRuns := by
  obtain ⟨db₁, db₂, db₃, db₄, h₁, h₂, h₃, h₄, rfl, -⟩ := of_replaceTables h
  exact (of_touchRepositories h₄).2.2.2.trans <| (of_upsertPullRequests h₃).2.2.trans <|
    (of_upsertIssues h₂).2.2.trans (of_upsertRepositories h₁).2.2

/-- A transaction runs to its end exactly when the snapshot fits. -/
theorem applySnapshot_returns_iff {py : PyLib} {s : Snapshot} (hs : s.Accepted py)
    {input : RunInput μ} (hq : input.Quiet) (runId : ℤ) (startedAt : Instant) (db : Db)
    (w : World κ ν) :
    (∃ out w', applySnapshot input runId startedAt s db w = (.ok out, w')) ↔ s.Fits db runId := by
  constructor
  · rintro ⟨⟨db', summary⟩, w', h⟩
    obtain ⟨db₁, db₂, upserted, deleted, hreplace, hstate, rfl, hrun⟩ := of_applySnapshot h
    refine ⟨(replaceTables_returns_iff hq hs _ _).mp ⟨_, _, hreplace⟩, fun hsome => ?_⟩
    have hruns : db₂.ingestRuns = db.ingestRuns :=
      (of_setSyncState hstate).2.2.1.trans (ingestRuns_replaceTables hreplace)
    have hfit := updateRun_isSome.mp (by rw [hrun]; rfl) (by rw [hruns]; exact hsome)
    rw [← (replaceTables_spec hs hreplace).deleted]
    exact ⟨hfit.1, hfit.2.2⟩
  · intro hfits
    obtain ⟨⟨db₁, upserted, deleted⟩, w', hreplace⟩ :=
      (replaceTables_returns_iff hq hs db w).mpr hfits.toStorable
    have hreplaced := replaceTables_spec hs hreplace
    obtain ⟨db₂, hstate⟩ := Option.isSome_iff_exists.mp
      (setSyncState_committed db₁ s.sourceAt input.clock.committedAt)
    -- the row of the run is the one that was there before the transaction
    have hruns : db₂.ingestRuns = db.ingestRuns :=
      (of_setSyncState hstate).2.2.1.trans (ingestRuns_replaceTables hreplace)
    obtain ⟨db₃, hrun⟩ := Option.isSome_iff_exists.mp <| updateRun_isSome.mpr
      (show (db₂.ingestRuns.find runId).isSome = true →
          (commitSummary input.clock runId startedAt s upserted deleted).fetched.fit = true ∧
          upserted.fit = true ∧ deleted.fit = true by
        intro hsome
        rw [hruns] at hsome
        have hfit := hfits.counts hsome
        exact ⟨hfit.1, hreplaced.upserted_fit hs hfit.1, hreplaced.deleted ▸ hfit.2⟩)
    have hstate := RunInput.execute_eq_ok.mpr ⟨hq .syncState, hstate⟩
    have hrun := RunInput.execute_eq_ok.mpr ⟨hq .finishRun, hrun⟩
    have hcommit : input.reach .commit = .ok () := RunInput.execute_eq_ok.mpr ⟨hq .commit, rfl⟩
    exact ⟨_, _, Prog.bind_eq_ok.mpr ⟨_, _, hreplace,
      Prog.ofExcept_bind_eq_ok.mpr ⟨_, hstate, Prog.ofExcept_bind_eq_ok.mpr ⟨_, hrun,
      Prog.ofExcept_bind_eq_ok.mpr ⟨_, hcommit, rfl⟩⟩⟩⟩⟩

/-- A commit without faults stores an accepted snapshot exactly when it fits. -/
theorem commitSnapshot_returns_iff {py : PyLib} {json : Json ν} {s : Snapshot}
    (hvalid : validateSnapshot py json = .ok s) {input : RunInput μ} (hq : input.Quiet) (runId : ℤ)
    (startedAt : Instant) (w : World κ ν) :
    (∃ summary w', commitSnapshot input runId startedAt s w = (.ok summary, w')) ↔
      s.Fits w.db runId := by
  have hs := accepted_of_validateSnapshot hvalid
  constructor
  · rintro ⟨summary, w', h⟩
    obtain ⟨w₁, w₂, happly⟩ := of_commitSnapshot h
    exact (applySnapshot_returns_iff hs hq _ _ _ _).mp ⟨_, _, happly⟩
  · intro hfits
    have hconnect : input.reach .commitConnect = .ok () :=
      RunInput.execute_eq_ok.mpr ⟨hq .commitConnect, rfl⟩
    obtain ⟨⟨db', summary⟩, w', happly⟩ := (applySnapshot_returns_iff hs hq runId startedAt w.db
      { w with progress := { w.progress with
        phase := .committing
        total := s.repositories.length + s.issues.length + s.pullRequests.length
        done := 0 } }).mpr hfits
    exact ⟨_, _, Prog.modify_bind.mpr (Prog.ofExcept_bind_eq_ok.mpr ⟨_, hconnect,
      Prog.get_bind.mpr (Prog.bind_eq_ok.mpr ⟨_, _, Prog.tryExcept_ok happly, rfl⟩)⟩)⟩

/-- The number `2 ^ 31` passes validation and is refused by the server. -/
theorem largeNumber_refused :
    validateSnapshot samplePy (sampleJson 2147483648 : Json Unit) =
        .ok (sampleSnapshot 2147483648) ∧
      ¬ ∃ summary w', commitSnapshot (quietInput (fun _ _ => .raised []) : RunInput Unit) 1 0
        (sampleSnapshot 2147483648) (.start .empty 300 : World Unit Unit) = (.ok summary, w') := by
  refine ⟨rfl, ?_⟩
  rintro ⟨summary, w', h⟩
  cases h

/-- The sample snapshot with the number 7 is stored, and so it fits. -/
theorem smallNumber_stored :
    (∃ summary w', commitSnapshot (quietInput (fun _ _ => .raised []) : RunInput Unit) 1 0
      (sampleSnapshot 7) (.start .empty 300 : World Unit Unit) = (.ok summary, w')) ∧
      (sampleSnapshot 7).Fits .empty 1 := by
  have hstored : ∃ summary w', commitSnapshot (quietInput (fun _ _ => .raised []) : RunInput Unit) 1 0
      (sampleSnapshot 7) (.start .empty 300 : World Unit Unit) = (.ok summary, w') := ⟨_, _, rfl⟩
  have hvalid : validateSnapshot samplePy (sampleJson 7 : Json Unit) = .ok (sampleSnapshot 7) := rfl
  exact ⟨hstored,
    (commitSnapshot_returns_iff hvalid (fun _ => rfl) 1 0 (.start .empty 300)).mp hstored⟩

end Ghpulse.Ingest
