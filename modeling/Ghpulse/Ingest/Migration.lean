import Ghpulse.Ingest.Schema
import Ghpulse.Library.Ddl

/-!
# The migration script

`backend/schema.sql` as a script of statements, and the tables of the first version of the schema. The
script replaces the two reason checks of `issues`. In the old row check an unknown `IN` lets a closed
issue without a reason pass; the new one asks for a reason with `IS NOT NULL`.

Keys, references and the types of indexes are left out: the script neither adds nor drops one.

The main result (`applySchema_upgrades_iff`) is about any database of the first version, whatever its rows
are: the script upgrades it exactly when no issue is closed without a reason, and after that it may be
applied any number of times. The proof goes table by table, because a script succeeds exactly when its
part for each table does: `repositories` has nothing to migrate, `pull_requests` gets indexes,
`ingest_runs` and `sync_state` change columns, and `issues` is where rows can be in the way.

Reference: `backend/schema.sql`.
-/

open Python

namespace Ghpulse.Ingest

/-- The tables of the schema. -/
inductive TableName where
  | repositories
  | issues
  | pullRequests
  | ingestRuns
  | syncState
  deriving DecidableEq

open Sql (Column Check Row Datum textAt integerAt booleanAt)

/-! ## Checks

A check is a condition with three truth values on a row, and a row passes unless the condition is false:
one that is unknown, because it compares with NULL, passes as well. The conditions below are transcribed
operator by operator, so that the two versions of the reason checks differ here exactly where they differ
in the script.
-/

/-- `CHECK (column IS FALSE)` and `CHECK (column IS TRUE)`. -/
def booleanCheck (name column : Str) (b : Bool) : Check :=
  ⟨name, fun r => Sql.isBool (booleanAt r column) b⟩

/-- `CHECK (number > 0)`. -/
def numberCheck (name : Str) : Check :=
  ⟨name, fun r => Sql.compare (fun a b => decide (b < a)) (integerAt r (lit "number")) (some 0)⟩

/-- `CHECK (state IN (…))`. -/
def stateCheck (name : Str) (states : List Str) : Check :=
  ⟨name, fun r => Sql.isIn (textAt r (lit "state")) states⟩

/-- `issues_state_reason_shape_check`. -/
def stateReasonShape (r : Row) : Sql.Truth :=
  Sql.or (Sql.isNull (textAt r (lit "state_reason")))
    (Sql.and (Sql.between ((textAt r (lit "state_reason")).map List.length) 1 64)
      (Sql.ne ((textAt r (lit "state_reason")).map Sql.btrim) (some [])))

/-- `issues_state_reason_state_check`. -/
def stateReasonState (r : Row) : Sql.Truth :=
  Sql.or
    (Sql.and (Sql.eq (textAt r (lit "state")) (some (lit "OPEN")))
      (Sql.and (Sql.isNull (r (lit "closed_at")))
        (Sql.or (Sql.isNull (textAt r (lit "state_reason")))
          (Sql.not (Sql.isIn (textAt r (lit "state_reason"))
            [lit "COMPLETED", lit "NOT_PLANNED"])))))
    (Sql.and (Sql.eq (textAt r (lit "state")) (some (lit "CLOSED")))
      (Sql.and (Sql.isNotNull (r (lit "closed_at")))
        -- `IS NOT NULL` is never unknown, so a closed issue cannot pass without a reason
        (Sql.and (Sql.isNotNull (textAt r (lit "state_reason")))
          (Sql.ne (textAt r (lit "state_reason")) (some (lit "REOPENED"))))))

/-- The column check of the first version. -/
def oldStateReason (r : Row) : Sql.Truth :=
  Sql.or (Sql.isNull (textAt r (lit "state_reason")))
    (Sql.isIn (textAt r (lit "state_reason")) [lit "COMPLETED", lit "NOT_PLANNED", lit "REOPENED"])

/-- The row check of the first version. -/
def oldStateShape (r : Row) : Sql.Truth :=
  Sql.or
    (Sql.and (Sql.eq (textAt r (lit "state")) (some (lit "OPEN")))
      (Sql.and (Sql.isNull (r (lit "closed_at")))
        (Sql.or (Sql.isNull (textAt r (lit "state_reason")))
          (Sql.eq (textAt r (lit "state_reason")) (some (lit "REOPENED"))))))
    (Sql.and (Sql.eq (textAt r (lit "state")) (some (lit "CLOSED")))
      (Sql.and (Sql.isNotNull (r (lit "closed_at")))
        -- unknown without a reason, and a check admits what is unknown
        (Sql.isIn (textAt r (lit "state_reason")) [lit "COMPLETED", lit "NOT_PLANNED"])))

/-- The row check of `pull_requests`. -/
def pullRequestShape (r : Row) : Sql.Truth :=
  Sql.or
    (Sql.or
      (Sql.and (Sql.eq (textAt r (lit "state")) (some (lit "OPEN")))
        (Sql.and (Sql.isBool (booleanAt r (lit "merged")) false)
          (Sql.and (Sql.isNull (r (lit "closed_at"))) (Sql.isNull (r (lit "merged_at"))))))
      (Sql.and (Sql.eq (textAt r (lit "state")) (some (lit "CLOSED")))
        (Sql.and (Sql.isBool (booleanAt r (lit "merged")) false)
          (Sql.isNotNull (r (lit "closed_at"))))))
    (Sql.and (Sql.eq (textAt r (lit "state")) (some (lit "MERGED")))
      (Sql.and (Sql.isBool (booleanAt r (lit "merged")) true)
        (Sql.and (Sql.isNotNull (r (lit "closed_at"))) (Sql.isNotNull (r (lit "merged_at"))))))

/-- `sync_state_attempt_status_check`. -/
def attemptStatus (r : Row) : Sql.Truth :=
  Sql.or (Sql.isNull (textAt r (lit "last_attempt_status")))
    (Sql.isIn (textAt r (lit "last_attempt_status")) [lit "success", lit "failure"])

/-! ## Tables

The columns in the order of the `CREATE TABLE` statements, each with its type, `NOT NULL` and its default.
A statement for a table that exists does nothing, so on a database of the first version these lists are
what the script means to reach, not what it creates.
-/

/-- A `NOT NULL` column without default. -/
def required (name : Str) (type : Sql.ColumnType) : Column := ⟨name, type, true, .null⟩

/-- A column that may be NULL. -/
def nullable (name : Str) (type : Sql.ColumnType) : Column := ⟨name, type, false, .null⟩

/-- A `NOT NULL` column with a constant default. -/
def defaulted (name : Str) (d : Datum) : Column := ⟨name, d.type, true, .value d⟩

/-- `CREATE TABLE repositories`. -/
def repositoriesColumns : List Column :=
  [required (lit "node_id") .text, required (lit "name_with_owner") .text,
    required (lit "owner_login") .text, required (lit "url") .text,
    defaulted (lit "is_private") (.boolean false), defaulted (lit "is_external") (.boolean true),
    required (lit "first_seen_at") .timestamp, required (lit "last_seen_at") .timestamp]

def repositoriesChecks : List Check :=
  [booleanCheck (lit "repositories_is_private_check") (lit "is_private") false,
    booleanCheck (lit "repositories_is_external_check") (lit "is_external") true]

/-- `CREATE TABLE issues`; both versions have these columns. -/
def issuesColumns : List Column :=
  [required (lit "node_id") .text, required (lit "repository_id") .text,
    required (lit "number") .integer, required (lit "url") .text,
    defaulted (lit "is_private") (.boolean false), required (lit "created_at") .timestamp,
    required (lit "updated_at") .timestamp, nullable (lit "closed_at") .timestamp,
    required (lit "state") .text, nullable (lit "state_reason") .text]

/-- The checks that both versions have. -/
def issuesCommonChecks : List Check :=
  [numberCheck (lit "issues_number_check"),
    booleanCheck (lit "issues_is_private_check") (lit "is_private") false,
    stateCheck (lit "issues_state_check") [lit "OPEN", lit "CLOSED"]]

/-- The two reason checks. -/
def shapeCheck : Check := ⟨lit "issues_state_reason_shape_check", stateReasonShape⟩

def reasonCheck : Check := ⟨lit "issues_state_reason_state_check", stateReasonState⟩

/-- `CREATE TABLE pull_requests`. -/
def pullRequestsColumns : List Column :=
  [required (lit "node_id") .text, required (lit "repository_id") .text,
    required (lit "number") .integer, required (lit "url") .text,
    defaulted (lit "is_private") (.boolean false), required (lit "created_at") .timestamp,
    required (lit "updated_at") .timestamp, nullable (lit "closed_at") .timestamp,
    nullable (lit "merged_at") .timestamp, required (lit "state") .text,
    defaulted (lit "merged") (.boolean false)]

def pullRequestsChecks : List Check :=
  [numberCheck (lit "pull_requests_number_check"),
    booleanCheck (lit "pull_requests_is_private_check") (lit "is_private") false,
    stateCheck (lit "pull_requests_state_check") [lit "OPEN", lit "CLOSED", lit "MERGED"],
    ⟨lit "pull_requests_check", pullRequestShape⟩]

/-- The nine counters of `ingest_runs`. -/
def counterColumns : List Column :=
  ([lit "repositories_fetched", lit "issues_fetched", lit "pull_requests_fetched",
    lit "repositories_upserted", lit "issues_upserted", lit "pull_requests_upserted",
    lit "repositories_deleted", lit "issues_deleted", lit "pull_requests_deleted"]).map
      fun name => defaulted name (.integer 0)

/-- `CREATE TABLE ingest_runs`; the sequence behind `id` is not used by the script. -/
def ingestRunsColumns : List Column :=
  [required (lit "id") .integer, required (lit "trigger") .text,
    required (lit "started_at") .timestamp, nullable (lit "finished_at") .timestamp,
    nullable (lit "committed_at") .timestamp, nullable (lit "source_snapshot_at") .timestamp] ++
  counterColumns ++
  [defaulted (lit "data_changed") (.boolean false), nullable (lit "error") .text]

/-- The check of `sync_state`. -/
def idCheck : Check :=
  ⟨lit "sync_state_id_check", fun r => Sql.eq (integerAt r (lit "id")) (some 1)⟩

/-- `CREATE TABLE sync_state`. -/
def syncStateColumns : List Column :=
  [required (lit "id") .integer, nullable (lit "last_committed_at") .timestamp,
    nullable (lit "last_source_snapshot_at") .timestamp,
    nullable (lit "last_attempt_at") .timestamp, nullable (lit "last_attempt_status") .text,
    nullable (lit "last_attempt_error") .text, ⟨lit "updated_at", .timestamp, true, .now⟩]

/-! ## The script

Every statement of the script with the table it is about, in its order. The order matters twice: the
reason checks are dropped before they are added again under the same names, and the row of `sync_state` is
inserted after all of its columns and its status check are in place.
-/

/-- `backend/schema.sql`. -/
def schemaSql : List (TableName × Sql.Action) :=
  [(.repositories, .createTable repositoriesColumns repositoriesChecks),
    (.issues, .createTable issuesColumns (issuesCommonChecks ++ [shapeCheck, reasonCheck])),
    (.issues, .createIndex (lit "issues_repository_idx")),
    (.issues, .createIndex (lit "issues_created_at_idx")),
    (.issues, .createIndex (lit "issues_updated_at_idx")),
    (.issues, .createIndex (lit "issues_closed_at_idx")),
    (.pullRequests, .createTable pullRequestsColumns pullRequestsChecks),
    (.pullRequests, .createIndex (lit "pull_requests_repository_idx")),
    (.pullRequests, .createIndex (lit "pull_requests_created_at_idx")),
    (.pullRequests, .createIndex (lit "pull_requests_updated_at_idx")),
    (.pullRequests, .createIndex (lit "pull_requests_closed_at_idx")),
    (.pullRequests, .createIndex (lit "pull_requests_merged_at_idx")),
    (.ingestRuns, .createTable ingestRunsColumns []),
    (.syncState, .createTable syncStateColumns [idCheck]),
    (.ingestRuns, .addColumn (nullable (lit "committed_at") .timestamp)),
    (.ingestRuns, .addColumn (nullable (lit "source_snapshot_at") .timestamp)),
    (.ingestRuns, .addColumn (defaulted (lit "data_changed") (.boolean false))),
    (.syncState, .addColumn (nullable (lit "last_committed_at") .timestamp)),
    (.syncState, .addColumn (nullable (lit "last_source_snapshot_at") .timestamp)),
    (.syncState, .addColumn (nullable (lit "last_attempt_at") .timestamp)),
    (.syncState, .addColumn (nullable (lit "last_attempt_status") .text)),
    (.syncState, .addColumn (nullable (lit "last_attempt_error") .text)),
    (.ingestRuns, .dropColumn (lit "full_sync")),
    (.syncState, .dropColumn (lit "last_successful_high_water")),
    (.syncState, .dropConstraint (lit "sync_state_attempt_status_check")),
    (.syncState, .addConstraint ⟨lit "sync_state_attempt_status_check", attemptStatus⟩),
    (.issues, .dropConstraint (lit "issues_state_reason_check")),
    (.issues, .dropConstraint (lit "issues_check")),
    (.issues, .dropConstraint (lit "issues_state_reason_shape_check")),
    (.issues, .dropConstraint (lit "issues_state_reason_state_check")),
    (.issues, .addConstraint shapeCheck),
    (.issues, .addConstraint reasonCheck),
    (.syncState, .insert (lit "id") (.integer 1))]

/-- Apply the script. -/
def applySchema (db : TableName → Option Sql.Table) (now : ℤ) : Option (TableName → Option Sql.Table) :=
  Runs.run (Sql.runStatement now) db schemaSql

/-! ## The first version

The tables as the first version of the script left them: `ingest_runs` with `full_sync` and without the
times of the commit, `sync_state` with the high water mark alone, and `issues` with a column check and a
row check on the reason. The rows are any that these constraints admit.
-/

/-- The columns of `ingest_runs` in the first version. -/
def oldIngestRunsColumns : List Column :=
  [required (lit "id") .integer, required (lit "trigger") .text,
    required (lit "full_sync") .boolean, required (lit "started_at") .timestamp,
    nullable (lit "finished_at") .timestamp] ++
  counterColumns ++ [nullable (lit "error") .text]

/-- The columns of `sync_state` in the first version. -/
def oldSyncStateColumns : List Column :=
  [required (lit "id") .integer, nullable (lit "last_successful_high_water") .timestamp,
    ⟨lit "updated_at", .timestamp, true, .now⟩]

/-- The checks of `issues` in the first version, under the names the server gave them. -/
def oldIssuesChecks : List Check :=
  issuesCommonChecks ++
    [⟨lit "issues_state_reason_check", oldStateReason⟩, ⟨lit "issues_check", oldStateShape⟩]

/-- A table of the first version, with any rows that its constraints admit. -/
def HasShape (t : Option Sql.Table) (columns : List Column) (checks : List Check) : Prop :=
  ∃ table, t = some table ∧ table.columns = columns ∧ table.checks = checks

/-- A database of the first version. -/
structure FirstVersion (db : TableName → Option Sql.Table) : Prop where
  repositories : HasShape (db .repositories) repositoriesColumns repositoriesChecks
  issues : HasShape (db .issues) issuesColumns oldIssuesChecks
  pullRequests : HasShape (db .pullRequests) pullRequestsColumns pullRequestsChecks
  ingestRuns : HasShape (db .ingestRuns) oldIngestRunsColumns []
  syncState : HasShape (db .syncState) oldSyncStateColumns [idCheck]

/-! ## Old rows under the new checks

The only place where the outcome depends on the data. The old checks leave five kinds of rows: open
without a reason or reopened, and closed as completed, as not planned, or without a reason. The last one
passes because `IN` is unknown for NULL. All five have the new shape, and all but the last one meet the
new row check.
-/

/-- A closed issue without a reason. -/
def ClosedWithoutReason (r : Row) : Prop :=
  textAt r (lit "state") = some (lit "CLOSED") ∧ textAt r (lit "state_reason") = none

instance (r : Row) : Decidable (ClosedWithoutReason r) := inferInstanceAs (Decidable (_ ∧ _))

/-- The state of a row is one of the two. -/
theorem state_of_valid {r : Row} {checks : List Check}
    (hcheck : stateCheck (lit "issues_state_check") [lit "OPEN", lit "CLOSED"] ∈ checks)
    (h : Sql.Valid issuesColumns checks r) :
    textAt r (lit "state") = some (lit "OPEN") ∨ textAt r (lit "state") = some (lit "CLOSED") := by
  have hcolumn : (required (lit "state") .text).admits r = true := h.1 _ (by decide)
  have hin : Sql.admits (Sql.isIn (textAt r (lit "state")) [lit "OPEN", lit "CLOSED"]) = true :=
    h.2 _ hcheck
  -- the column is `NOT NULL` and a text, so its check cannot be unknown
  have htext : ∃ s, textAt r (lit "state") = some s := by
    simp only [Column.admits, required] at hcolumn
    unfold textAt
    cases hvalue : r (lit "state") with
    | none =>
      rw [hvalue] at hcolumn
      cases hcolumn
    | some d =>
      rw [hvalue] at hcolumn
      cases d with
      | text s => exact ⟨s, rfl⟩
      | integer | boolean | timestamp => cases hcolumn
  obtain ⟨s, hs⟩ := htext
  rw [hs] at hin ⊢
  have hmem : s ∈ [lit "OPEN", lit "CLOSED"] := by simpa [Sql.isIn] using hin
  simpa using hmem

/-- What the old checks admit: a reason that is unknown lets a closed row pass. -/
theorem cases_of_old {r : Row} (h : Sql.Valid issuesColumns oldIssuesChecks r) :
    (textAt r (lit "state") = some (lit "OPEN") ∧ r (lit "closed_at") = none ∧
      (textAt r (lit "state_reason") = none ∨
        textAt r (lit "state_reason") = some (lit "REOPENED"))) ∨
    (textAt r (lit "state") = some (lit "CLOSED") ∧ (r (lit "closed_at")).isSome = true ∧
      (textAt r (lit "state_reason") = none ∨
        textAt r (lit "state_reason") = some (lit "COMPLETED") ∨
        textAt r (lit "state_reason") = some (lit "NOT_PLANNED"))) := by
  have hshape : Sql.admits (oldStateShape r) = true :=
    h.2 ⟨lit "issues_check", oldStateShape⟩ (by simp [oldIssuesChecks])
  have hmem : stateCheck (lit "issues_state_check") [lit "OPEN", lit "CLOSED"] ∈ oldIssuesChecks := by
    simp [oldIssuesChecks, issuesCommonChecks]
  have hdiff : lit "OPEN" ≠ lit "CLOSED" := by decide
  simp only [oldStateShape, Sql.admits_or, Sql.admits_and, Sql.admits_eq, Sql.admits_isIn, Sql.isNull,
    Sql.isNotNull, Sql.admits_some] at hshape
  rcases state_of_valid hmem h with hopen | hclosed
  -- an open row: the second half of the check is false, and the first says which reasons pass
  · left
    rw [hopen] at hshape ⊢
    simp only [Option.all_some, hdiff, decide_true, decide_false, Bool.true_and, Bool.false_and,
      Bool.or_false, Bool.and_eq_true, Option.isNone_iff_eq_none] at hshape
    refine ⟨rfl, hshape.1, ?_⟩
    cases hreason : textAt r (lit "state_reason") with
    | none => exact Or.inl rfl
    | some reason =>
      rw [hreason] at hshape
      exact Or.inr (congrArg some (by simpa using hshape.2))
  -- a closed row: the `IN` of the second half is unknown for NULL
  · right
    rw [hclosed] at hshape ⊢
    simp only [Option.all_some, hdiff.symm, decide_true, decide_false, Bool.true_and, Bool.false_and,
      Bool.false_or, Bool.and_eq_true] at hshape
    refine ⟨rfl, hshape.1, ?_⟩
    cases hreason : textAt r (lit "state_reason") with
    | none => exact Or.inl rfl
    | some reason =>
      rw [hreason] at hshape
      exact Or.inr (by simpa using hshape.2)

/-- An old row meets the new shape check. -/
theorem stateReasonShape_of_old {r : Row} (h : Sql.Valid issuesColumns oldIssuesChecks r) :
    Sql.admits (stateReasonShape r) = true := by
  unfold stateReasonShape
  rcases cases_of_old h with ⟨-, -, hreason | hreason⟩ | ⟨-, -, hreason | hreason | hreason⟩
  all_goals
    rw [hreason]
    decide

/-- An old row meets the new row check unless it is closed without a reason. -/
theorem stateReasonState_of_old {r : Row} (h : Sql.Valid issuesColumns oldIssuesChecks r) :
    Sql.admits (stateReasonState r) = true ↔ ¬ ClosedWithoutReason r := by
  unfold stateReasonState ClosedWithoutReason
  rcases cases_of_old h with ⟨hstate, hclosed, hreason | hreason⟩ |
    ⟨hstate, hclosed, hreason | hreason | hreason⟩
  · rw [hstate, hclosed, hreason]
    decide
  · rw [hstate, hclosed, hreason]
    decide
  -- the closed rows; the check only asks whether the time of the closing is NULL
  all_goals
    obtain ⟨closed, hclosed⟩ := Option.isSome_iff_exists.mp hclosed
    have hnull : Sql.isNull (some closed) = some false := rfl
    have hnotNull : Sql.isNotNull (some closed) = some true := rfl
    rw [hstate, hclosed, hreason, hnull, hnotNull]
    decide

/-! ## Rows of the model of the run

The model of an ingest (`Ingest.Schema`) stores records with typed fields; here they become rows of the
script's tables. The two reason checks agree on them, and every issue that a run can store is a row that
the upgraded table admits.
-/

/-- An issue as a row. -/
def Issue.row (r : Issue) : Row := fun name =>
  if name = lit "node_id" then some (.text r.nodeId)
  else if name = lit "repository_id" then some (.text r.repositoryId)
  else if name = lit "number" then some (.integer r.number)
  else if name = lit "url" then some (.text r.url)
  else if name = lit "is_private" then some (.boolean r.isPrivate)
  else if name = lit "created_at" then some (.timestamp r.createdAt)
  else if name = lit "updated_at" then some (.timestamp r.updatedAt)
  else if name = lit "closed_at" then r.closedAt.map .timestamp
  else if name = lit "state" then some (.text r.state)
  else if name = lit "state_reason" then r.stateReason.map .text
  else none

/-- The state of a row is that of its issue. -/
theorem Issue.row_state (r : Issue) : textAt r.row (lit "state") = some r.state := rfl

/-- So is the time of its closing. -/
theorem Issue.row_closedAt (r : Issue) : r.row (lit "closed_at") = r.closedAt.map .timestamp := rfl

/-- So is its reason. -/
theorem Issue.row_stateReason (r : Issue) : textAt r.row (lit "state_reason") = r.stateReason := by
  show (r.stateReason.map Datum.text).bind _ = _
  cases r.stateReason <;> rfl

/-- The reason checks of the script are those of the run. -/
theorem Issue.stateReason_row (r : Issue) :
    Ingest.stateReasonShape r.row = r.stateReasonShape ∧
      Ingest.stateReasonState r.row = r.stateReasonState := by
  have hnull : Sql.isNull (r.closedAt.map Datum.timestamp) = Sql.isNull r.closedAt := by
    cases r.closedAt <;> rfl
  have hnotNull : Sql.isNotNull (r.closedAt.map Datum.timestamp) = Sql.isNotNull r.closedAt := by
    cases r.closedAt <;> rfl
  unfold Ingest.stateReasonShape Ingest.stateReasonState
  rw [r.row_state, r.row_closedAt, r.row_stateReason, hnull, hnotNull]
  exact ⟨rfl, rfl⟩

/-- A nullable column admits an optional value of its type. -/
theorem nullable_admits {α : Type} {name : Str} {type : Sql.ColumnType} {r : Sql.Row} {value : Option α}
    {f : α → Datum} (hread : r name = value.map f) (htype : ∀ a, (f a).type = type) :
    (nullable name type).admits r = true := by
  cases value with
  | none => simp [Sql.Column.admits, nullable, hread]
  | some a => simp [Sql.Column.admits, nullable, hread, htype]

/-- An issue that a run can store is a row of the upgraded table. -/
theorem Issue.valid_row {r : Issue} (h : r.check = true) :
    Sql.Valid issuesColumns (issuesCommonChecks ++ [shapeCheck, reasonCheck]) r.row := by
  simp only [Issue.check, Bool.and_eq_true] at h
  obtain ⟨⟨⟨⟨⟨-, hnumber⟩, hprivate⟩, hstate⟩, hshape⟩, hreason⟩ := h
  refine ⟨?_, ?_⟩
  · have hclosed : (nullable (lit "closed_at") .timestamp).admits r.row = true :=
      nullable_admits r.row_closedAt fun _ => rfl
    have hread : r.row (lit "state_reason") = r.stateReason.map .text := rfl
    have hstateReason : (nullable (lit "state_reason") .text).admits r.row = true :=
      nullable_admits hread fun _ => rfl
    simp only [issuesColumns, List.forall_mem_cons]
    exact ⟨rfl, rfl, rfl, rfl, rfl, rfl, rfl, hclosed, rfl, hstateReason,
      fun c hc => absurd hc List.not_mem_nil⟩
  · simp only [issuesCommonChecks, List.cons_append, List.nil_append, List.forall_mem_cons]
    exact ⟨hnumber, hprivate, hstate, (congrArg Sql.admits r.stateReason_row.1).trans hshape,
      (congrArg Sql.admits r.stateReason_row.2).trans hreason, fun k hk => absurd hk List.not_mem_nil⟩

/-! ## The script on each table

For each table, what its part of the script does to an old table and that it changes nothing in an
upgraded one. The second half is what makes the script idempotent.
-/

section Parts

variable {now : ℤ} {t : Sql.Table}

/-- The indexes that the script creates on `issues`. -/
def issuesIndexes : List Str :=
  [lit "issues_repository_idx", lit "issues_created_at_idx", lit "issues_updated_at_idx",
    lit "issues_closed_at_idx"]

/-- The constraints that the script drops from `issues`. -/
def droppedConstraints : List Str :=
  [lit "issues_state_reason_check", lit "issues_check", lit "issues_state_reason_shape_check",
    lit "issues_state_reason_state_check"]

/-- What the script does to `issues`. -/
theorem actionsOn_issues :
    Sql.actionsOn schemaSql .issues =
      .createTable issuesColumns (issuesCommonChecks ++ [shapeCheck, reasonCheck]) ::
        (issuesIndexes.map .createIndex ++ (droppedConstraints.map .dropConstraint ++
          [.addConstraint shapeCheck, .addConstraint reasonCheck])) := rfl

/-- The script on `issues`: it replaces the two checks exactly when every row meets the new ones. -/
theorem run_issues {x : Option Sql.Table}
    (hbase : t.checks.filter (fun k => decide (k.name ∉ droppedConstraints)) = issuesCommonChecks) :
    Runs.run (Sql.runOn now) (some t) (Sql.actionsOn schemaSql .issues) = some x ↔
      ∃ t', x = some t' ∧ (∀ r ∈ t.rows, Sql.admits (stateReasonShape r) = true ∧
          Sql.admits (stateReasonState r) = true) ∧
        t'.columns = t.columns ∧ t'.checks = issuesCommonChecks ++ [shapeCheck, reasonCheck] ∧
        t'.indexes = (t.createIndexes issuesIndexes).indexes ∧ t'.rows = t.rows := by
  obtain ⟨hcolumns, hchecks, hrows, -⟩ := t.createIndexes_spec issuesIndexes
  obtain ⟨hcolumns', hchecks', hindexes', hrows'⟩ :=
    (t.createIndexes issuesIndexes).dropConstraints_spec droppedConstraints
  have hfirst : (Sql.Action.createTable issuesColumns
      (issuesCommonChecks ++ [shapeCheck, reasonCheck])).exec now (some t) = some t := rfl
  rw [actionsOn_issues, Sql.run_runOn_cons hfirst, Sql.run_createIndexes, Sql.run_dropConstraints]
  -- only the columns, checks, indexes and rows of the table before the two additions matter from here on
  generalize (t.createIndexes issuesIndexes).dropConstraints droppedConstraints = p at *
  rw [hchecks, hbase] at hchecks'
  rw [hcolumns] at hcolumns'
  rw [hrows] at hrows'
  have hshape : shapeCheck.name ∉ p.checks.map Check.name := by
    rw [hchecks']
    decide
  rw [Sql.run_runOn_cons_iff]
  constructor
  · rintro ⟨m, hm, hrun⟩
    obtain ⟨hadmits, hmcolumns, hmchecks, hmindexes, hmrows⟩ :=
      (Sql.Table.addConstraint_eq_some hshape).mp hm
    -- the first addition leaves the rows alone, so both checks are decided on the rows of `t`
    have hreason : reasonCheck.name ∉ m.checks.map Check.name := by
      rw [hmchecks, hchecks']
      decide
    obtain ⟨t', ht', hend⟩ := Sql.run_runOn_cons_iff.mp hrun
    obtain ⟨hadmits', htcolumns, htchecks, htindexes, htrows⟩ :=
      (Sql.Table.addConstraint_eq_some hreason).mp ht'
    rw [hmrows, hrows'] at hadmits'
    rw [hrows'] at hadmits
    refine ⟨t', (Option.some.inj hend).symm, fun r hr => ⟨hadmits r hr, hadmits' r hr⟩, ?_, ?_, ?_, ?_⟩
    · rw [htcolumns, hmcolumns, hcolumns']
    · rw [htchecks, hmchecks, hchecks', List.append_assoc]
      rfl
    · rw [htindexes, hmindexes, hindexes']
    · rw [htrows, hmrows, hrows']
  · rintro ⟨t', rfl, hadmits, htcolumns, htchecks, htindexes, htrows⟩
    obtain ⟨m, hm, hmcolumns, hmchecks, hmindexes, hmrows⟩ :=
      Sql.Table.exists_addConstraint hshape fun r hr => (hadmits r (hrows' ▸ hr)).1
    have hreason : reasonCheck.name ∉ m.checks.map Check.name := by
      rw [hmchecks, hchecks']
      decide
    have ht' : m.addConstraint reasonCheck = some t' := by
      rw [Sql.Table.addConstraint_eq_some hreason, hmrows, hrows', hmcolumns, hcolumns', hmchecks,
        hchecks', hmindexes, hindexes', List.append_assoc]
      exact ⟨fun r hr => (hadmits r hr).2, htcolumns, htchecks, htindexes, htrows⟩
    exact ⟨m, hm, Sql.run_runOn_cons_iff.mpr ⟨t', ht', rfl⟩⟩

/-- The script on `issues` when it has been upgraded. -/
theorem run_issues_of_current (hchecks : t.checks = issuesCommonChecks ++ [shapeCheck, reasonCheck])
    (hindexes : ∀ name ∈ issuesIndexes, name ∈ t.indexes) :
    Runs.run (Sql.runOn now) (some t) (Sql.actionsOn schemaSql .issues) = some (some t) := by
  have hbase : t.checks.filter (fun k => decide (k.name ∉ droppedConstraints)) =
      issuesCommonChecks := by
    rw [hchecks]
    rfl
  -- the rows of a table with the new checks meet them
  refine (run_issues hbase).mpr ⟨t, rfl, fun r hr => ⟨?_, ?_⟩, rfl, hchecks, ?_, rfl⟩
  · exact (t.valid r hr).2 shapeCheck (by simp [hchecks])
  · exact (t.valid r hr).2 reasonCheck (by simp [hchecks])
  · rw [Sql.Table.createIndexes_of_mem hindexes]

/-- The script keeps a table of repositories. -/
theorem run_repositories :
    Runs.run (Sql.runOn now) (some t) (Sql.actionsOn schemaSql .repositories) = some (some t) := rfl

/-- The indexes that the script creates on `pull_requests`. -/
def pullRequestsIndexes : List Str :=
  [lit "pull_requests_repository_idx", lit "pull_requests_created_at_idx",
    lit "pull_requests_updated_at_idx", lit "pull_requests_closed_at_idx",
    lit "pull_requests_merged_at_idx"]

/-- The script on `pull_requests`: it creates the indexes. -/
theorem run_pullRequests :
    Runs.run (Sql.runOn now) (some t) (Sql.actionsOn schemaSql .pullRequests) =
      some (some (t.createIndexes pullRequestsIndexes)) := rfl

/-- The columns that the script adds to `ingest_runs`. -/
def ingestRunsAdded : List Column :=
  [nullable (lit "committed_at") .timestamp, nullable (lit "source_snapshot_at") .timestamp,
    defaulted (lit "data_changed") (.boolean false)]

/-- On `ingest_runs` the script adds its columns and drops `full_sync`. -/
theorem actionsOn_ingestRuns :
    Sql.actionsOn schemaSql .ingestRuns =
      .createTable ingestRunsColumns [] ::
        (ingestRunsAdded.map .addColumn ++ [.dropColumn (lit "full_sync")]) := rfl

/-- The columns that the script adds to `sync_state`. -/
def syncStateAdded : List Column :=
  [nullable (lit "last_committed_at") .timestamp, nullable (lit "last_source_snapshot_at") .timestamp,
    nullable (lit "last_attempt_at") .timestamp, nullable (lit "last_attempt_status") .text,
    nullable (lit "last_attempt_error") .text]

/-- `sync_state_attempt_status_check`. -/
def statusCheck : Check := ⟨lit "sync_state_attempt_status_check", attemptStatus⟩

/-- On `sync_state` it adds its columns, drops the high water, replaces the status check and inserts the
row. -/
theorem actionsOn_syncState :
    Sql.actionsOn schemaSql .syncState =
      .createTable syncStateColumns [idCheck] ::
        (syncStateAdded.map .addColumn ++ [.dropColumn (lit "last_successful_high_water"),
          .dropConstraint (lit "sync_state_attempt_status_check"), .addConstraint statusCheck,
          .insert (lit "id") (.integer 1)]) := rfl

/-- The script on `ingest_runs` when it has the new columns and not the old one. -/
theorem run_ingestRuns_of_current (hadded : ∀ c ∈ ingestRunsAdded, t.HasColumn c.name)
    (habsent : ¬ t.HasColumn (lit "full_sync")) :
    Runs.run (Sql.runOn now) (some t) (Sql.actionsOn schemaSql .ingestRuns) = some (some t) := by
  have hfirst : (Sql.Action.createTable ingestRunsColumns []).exec now (some t) = some t := rfl
  have hdrop : (Sql.Action.dropColumn (lit "full_sync")).exec now (some t) = some t :=
    Sql.Table.dropColumn_of_absent habsent
  rw [actionsOn_ingestRuns, Sql.run_runOn_cons hfirst, Sql.run_addColumns_of_mem hadded,
    Sql.run_runOn_cons hdrop]
  rfl

/-- The script on an old `ingest_runs`. -/
theorem run_ingestRuns_of_old (now : ℤ) (hcolumns : t.columns = oldIngestRunsColumns)
    (hchecks : t.checks = []) :
    ∃ t', Runs.run (Sql.runOn now) (some t) (Sql.actionsOn schemaSql .ingestRuns) = some (some t') ∧
      ∀ later, Runs.run (Sql.runOn later) (some t') (Sql.actionsOn schemaSql .ingestRuns) =
        some (some t') := by
  -- there are no checks that could read a new column
  have hunread : ∀ k ∈ t.checks, ∀ c ∈ ingestRunsAdded, ∀ r v,
      k.condition (Function.update r c.name v) = k.condition r := by
    rw [hchecks]
    exact fun k hk => absurd hk List.not_mem_nil
  have hnew : ∀ c ∈ ingestRunsAdded, ¬ t.HasColumn c.name := by
    unfold Sql.Table.HasColumn
    rw [hcolumns]
    decide
  have hdefault : ∀ c ∈ ingestRunsAdded, c.AdmitsDefault now := by
    simp only [ingestRunsAdded, List.forall_mem_cons]
    exact ⟨rfl, rfl, rfl, fun c hc => absurd hc List.not_mem_nil⟩
  obtain ⟨m, hm, hmcolumns, hmchecks, -, -⟩ :=
    Sql.run_addColumns_of_new (by decide) hnew hdefault hunread
  -- `full_sync` is still there when the new columns are
  have hold : m.HasColumn (lit "full_sync") := by
    rw [Sql.Table.HasColumn, hmcolumns, hcolumns]
    decide
  rw [hchecks] at hmchecks
  obtain ⟨t', ht', hcolumns', -, -, -⟩ := Sql.Table.dropColumn_of_unread hold fun k hk => by
    rw [hmchecks] at hk
    cases hk
  have hfirst : (Sql.Action.createTable ingestRunsColumns []).exec now (some t) = some t := rfl
  have hdrop : (Sql.Action.dropColumn (lit "full_sync")).exec now (some m) = some t' := ht'
  refine ⟨t', ?_, fun later => run_ingestRuns_of_current ?_ ?_⟩
  · rw [actionsOn_ingestRuns, Sql.run_runOn_cons hfirst, hm, Sql.run_runOn_cons hdrop]
    rfl
  · unfold Sql.Table.HasColumn
    rw [hcolumns', hmcolumns, hcolumns]
    decide
  · unfold Sql.Table.HasColumn
    rw [hcolumns', hmcolumns, hcolumns]
    decide

/-- The columns that the script leaves in an old `sync_state`. -/
def upgradedSyncStateColumns : List Column :=
  [required (lit "id") .integer, ⟨lit "updated_at", .timestamp, true, .now⟩] ++ syncStateAdded

/-- The script on `sync_state` when it has been upgraded. -/
theorem run_syncState_of_current (hcolumns : t.columns = upgradedSyncStateColumns)
    (hchecks : t.checks = [idCheck, statusCheck])
    (hrow : ∃ r ∈ t.rows, r (lit "id") = some (.integer 1)) :
    Runs.run (Sql.runOn now) (some t) (Sql.actionsOn schemaSql .syncState) = some (some t) := by
  have hadded : ∀ c ∈ syncStateAdded, t.HasColumn c.name := by
    unfold Sql.Table.HasColumn
    rw [hcolumns]
    decide
  have habsent : ¬ t.HasColumn (lit "last_successful_high_water") := by
    unfold Sql.Table.HasColumn
    rw [hcolumns]
    decide
  have hfirst : (Sql.Action.createTable syncStateColumns [idCheck]).exec now (some t) = some t := rfl
  have hdrop : (Sql.Action.dropColumn (lit "last_successful_high_water")).exec now (some t) = some t :=
    Sql.Table.dropColumn_of_absent habsent
  -- the status check is dropped and added again; the rows of `t` meet it
  let m := t.dropConstraint (lit "sync_state_attempt_status_check")
  have hconstraint : (Sql.Action.dropConstraint (lit "sync_state_attempt_status_check")).exec now
      (some t) = some m := rfl
  have hmchecks : m.checks = [idCheck] := by
    show t.checks.filter _ = _
    rw [hchecks]
    rfl
  have hadd : (Sql.Action.addConstraint statusCheck).exec now (some m) = some t := by
    have hnew : statusCheck.name ∉ m.checks.map Check.name := by
      rw [hmchecks]
      decide
    have hadmits : ∀ r ∈ m.rows, Sql.admits (statusCheck.condition r) = true := fun r hr =>
      (t.valid r hr).2 statusCheck (hchecks ▸ List.mem_cons_of_mem _ List.mem_cons_self)
    refine (Sql.Table.addConstraint_eq_some hnew).mpr ⟨hadmits, rfl, ?_, rfl, rfl⟩
    rw [hmchecks, hchecks]
    rfl
  have hinsert : (Sql.Action.insert (lit "id") (.integer 1)).exec now (some t) = some t := if_pos hrow
  rw [actionsOn_syncState, Sql.run_runOn_cons hfirst, Sql.run_addColumns_of_mem hadded,
    Sql.run_runOn_cons hdrop, Sql.run_runOn_cons hconstraint, Sql.run_runOn_cons hadd,
    Sql.run_runOn_cons hinsert]
  rfl

/-- The check of the id reads no other column. -/
theorem idCheck_update {r : Row} {name : Str} {v : Option Datum} (h : lit "id" ≠ name) :
    idCheck.condition (Function.update r name v) = idCheck.condition r := by
  show Sql.eq (integerAt (Function.update r name v) (lit "id")) (some 1) = _
  rw [integerAt, Function.update_of_ne h]
  rfl

/-- The row that the script inserts into `sync_state`. -/
theorem valid_insertedRow (hcolumns : t.columns = upgradedSyncStateColumns)
    (hchecks : t.checks = [idCheck, statusCheck]) :
    Sql.Valid t.columns t.checks (t.insertedRow now (lit "id") (.integer 1)) := by
  unfold Sql.Table.insertedRow
  rw [hcolumns, hchecks]
  refine ⟨?_, ?_⟩
  · simp only [upgradedSyncStateColumns, syncStateAdded, List.cons_append, List.nil_append,
      List.forall_mem_cons]
    exact ⟨rfl, rfl, rfl, rfl, rfl, rfl, rfl, fun c hc => absurd hc List.not_mem_nil⟩
  · simp only [List.forall_mem_cons]
    exact ⟨rfl, rfl, fun k hk => absurd hk List.not_mem_nil⟩

/-- The script gives an old `sync_state` its new columns and takes the old one away; no attempt is recorded
yet. -/
theorem exists_syncState_columns (now : ℤ) (hcolumns : t.columns = oldSyncStateColumns)
    (hchecks : t.checks = [idCheck]) :
    ∃ n : Sql.Table,
      (∀ as, Runs.run (Sql.runOn now) (some t) (syncStateAdded.map Sql.Action.addColumn ++
          .dropColumn (lit "last_successful_high_water") :: as) = Runs.run (Sql.runOn now) (some n) as) ∧
      n.columns = upgradedSyncStateColumns ∧ n.checks = [idCheck] ∧
      ∀ r ∈ n.rows, r (lit "last_attempt_status") = none := by
  -- the check of the id reads neither the new columns nor the old one
  have hunread : ∀ k ∈ t.checks, ∀ c ∈ syncStateAdded, ∀ r v,
      k.condition (Function.update r c.name v) = k.condition r := by
    rw [hchecks]
    intro k hk c hc r v
    have hne : ∀ c ∈ syncStateAdded, lit "id" ≠ c.name := by decide
    rw [List.mem_singleton.mp hk, idCheck_update (hne c hc)]
  have hnew : ∀ c ∈ syncStateAdded, ¬ t.HasColumn c.name := by
    unfold Sql.Table.HasColumn
    rw [hcolumns]
    decide
  have hdefault : ∀ c ∈ syncStateAdded, c.AdmitsDefault now := by
    simp only [syncStateAdded, List.forall_mem_cons]
    exact ⟨rfl, rfl, rfl, rfl, rfl, fun c hc => absurd hc List.not_mem_nil⟩
  obtain ⟨m, hm, hmcolumns, hmchecks, -, hmrows⟩ :=
    Sql.run_addColumns_of_new (by decide) hnew hdefault hunread
  have hold : m.HasColumn (lit "last_successful_high_water") := by
    rw [Sql.Table.HasColumn, hmcolumns, hcolumns]
    decide
  rw [hchecks] at hmchecks
  obtain ⟨n, hn, hncolumns, hnchecks, -, hnrows⟩ := Sql.Table.dropColumn_of_unread hold fun k hk r v => by
    rw [hmchecks] at hk
    rw [List.mem_singleton.mp hk, idCheck_update (by decide)]
  have hdrop : (Sql.Action.dropColumn (lit "last_successful_high_water")).exec now (some m) = some n :=
    hn
  refine ⟨n, fun as => ?_, ?_, hnchecks.trans hmchecks, fun r' hr' => ?_⟩
  · rw [hm, Sql.run_runOn_cons hdrop]
  · rw [hncolumns, hmcolumns, hcolumns]
    decide
  -- a row of `n` is an old row with NULL in the new columns
  · obtain ⟨r, hr, rfl⟩ := List.mem_map.mp (hnrows ▸ hr' : r' ∈ _)
    obtain ⟨-, -, hvalues, -⟩ := hmrows r hr
    rw [Function.update_of_ne (by decide)]
    exact hvalues (nullable (lit "last_attempt_status") .text) (by decide)

/-- The script on an old `sync_state`. -/
theorem run_syncState_of_old (now : ℤ) (hcolumns : t.columns = oldSyncStateColumns)
    (hchecks : t.checks = [idCheck]) :
    ∃ t', Runs.run (Sql.runOn now) (some t) (Sql.actionsOn schemaSql .syncState) = some (some t') ∧
      ∀ later, Runs.run (Sql.runOn later) (some t') (Sql.actionsOn schemaSql .syncState) =
        some (some t') := by
  obtain ⟨n, hn, hncolumns, hnchecks, hnull⟩ := exists_syncState_columns now hcolumns hchecks
  let p := n.dropConstraint (lit "sync_state_attempt_status_check")
  have hpchecks : p.checks = [idCheck] := by
    show n.checks.filter _ = _
    rw [hnchecks]
    rfl
  have hnew : statusCheck.name ∉ p.checks.map Check.name := by
    rw [hpchecks]
    decide
  -- no attempt is recorded yet, so every row meets the new check
  have hadmits : ∀ r ∈ p.rows, Sql.admits (statusCheck.condition r) = true := by
    intro r hr
    show Sql.admits (attemptStatus r) = true
    rw [attemptStatus, textAt, hnull r hr]
    rfl
  obtain ⟨q, hq, hqcolumns, hqchecks, -, -⟩ := Sql.Table.exists_addConstraint hnew hadmits
  rw [hpchecks] at hqchecks
  have hqcolumns' : q.columns = upgradedSyncStateColumns := hqcolumns.trans hncolumns
  have hvalid : Sql.Valid q.columns q.checks (q.insertedRow now (lit "id") (.integer 1)) :=
    valid_insertedRow hqcolumns' hqchecks
  obtain ⟨t', ht', hcolumns', hchecks', hrow⟩ := Sql.Table.exists_insert hvalid
  have hfirst : (Sql.Action.createTable syncStateColumns [idCheck]).exec now (some t) = some t := rfl
  have hconstraint : (Sql.Action.dropConstraint (lit "sync_state_attempt_status_check")).exec now
      (some n) = some p := rfl
  have hadd : (Sql.Action.addConstraint statusCheck).exec now (some p) = some q := hq
  have hinsert : (Sql.Action.insert (lit "id") (.integer 1)).exec now (some q) = some t' := ht'
  refine ⟨t', ?_, fun later => run_syncState_of_current (hcolumns'.trans hqcolumns')
    (hchecks'.trans hqchecks) hrow⟩
  rw [actionsOn_syncState, Sql.run_runOn_cons hfirst, hn, Sql.run_runOn_cons hconstraint,
    Sql.run_runOn_cons hadd, Sql.run_runOn_cons hinsert]
  rfl

end Parts

/-! ## The upgrade

The parts are put together: the database after the script holds, under each name, the table that its part
leaves.
-/

/-- The rows of a table. -/
def rowsOf (t : Option Sql.Table) : List Row := (t.map Sql.Table.rows).getD []

section Upgrade

variable {db : TableName → Option Sql.Table}

/-- The old checks without those that the script drops. -/
theorem base_of_old {t : Sql.Table} (hchecks : t.checks = oldIssuesChecks) :
    t.checks.filter (fun k => decide (k.name ∉ droppedConstraints)) = issuesCommonChecks := by
  rw [hchecks]
  rfl

/-- An old row that is not closed without a reason meets the new constraints. -/
theorem valid_of_old {r : Row} (h : Sql.Valid issuesColumns oldIssuesChecks r)
    (hreason : ¬ ClosedWithoutReason r) :
    Sql.Valid issuesColumns (issuesCommonChecks ++ [shapeCheck, reasonCheck]) r := by
  refine ⟨h.1, fun k hk => ?_⟩
  rcases List.mem_append.mp hk with hk | hk
  · exact h.2 k (List.mem_append_left _ hk)
  · rw [List.mem_pair] at hk
    rcases hk with rfl | rfl
    · exact stateReasonShape_of_old h
    · exact (stateReasonState_of_old h).mpr hreason

/-- The script on old `issues`, none of which is closed without a reason. -/
theorem run_issues_of_old {t : Sql.Table} (now : ℤ) (hcolumns : t.columns = issuesColumns)
    (hchecks : t.checks = oldIssuesChecks) (hreasons : ∀ r ∈ t.rows, ¬ ClosedWithoutReason r) :
    ∃ t', Runs.run (Sql.runOn now) (some t) (Sql.actionsOn schemaSql .issues) = some (some t') ∧
      (∀ later, Runs.run (Sql.runOn later) (some t') (Sql.actionsOn schemaSql .issues) =
        some (some t')) ∧ t'.rows = t.rows := by
  have hvalid : ∀ r ∈ t.rows, Sql.Valid issuesColumns oldIssuesChecks r := by
    intro r hr
    rw [← hcolumns, ← hchecks]
    exact t.valid r hr
  let t' : Sql.Table :=
    { columns := issuesColumns
      checks := issuesCommonChecks ++ [shapeCheck, reasonCheck]
      indexes := (t.createIndexes issuesIndexes).indexes
      rows := t.rows
      valid := fun r hr => valid_of_old (hvalid r hr) (hreasons r hr) }
  have hindexes : ∀ name ∈ issuesIndexes, name ∈ t'.indexes := fun name hname =>
    (t.createIndexes_spec issuesIndexes).2.2.2 name (Or.inl hname)
  refine ⟨t', (run_issues (base_of_old hchecks)).mpr ⟨t', rfl, fun r hr => ?_, hcolumns.symm, rfl, rfl,
    rfl⟩, fun later => run_issues_of_current rfl hindexes, rfl⟩
  exact ⟨stateReasonShape_of_old (hvalid r hr),
    (stateReasonState_of_old (hvalid r hr)).mpr (hreasons r hr)⟩

/-- The script on old `pull_requests`. -/
theorem run_pullRequests_of_old (now : ℤ) (t : Sql.Table) :
    ∃ t', Runs.run (Sql.runOn now) (some t) (Sql.actionsOn schemaSql .pullRequests) = some (some t') ∧
      (∀ later, Runs.run (Sql.runOn later) (some t') (Sql.actionsOn schemaSql .pullRequests) =
        some (some t')) ∧ t'.rows = t.rows := by
  obtain ⟨-, -, hrows, hindexes⟩ := t.createIndexes_spec pullRequestsIndexes
  refine ⟨t.createIndexes pullRequestsIndexes, run_pullRequests, fun later => ?_, hrows⟩
  refine run_pullRequests.trans ?_
  rw [Sql.Table.createIndexes_of_mem fun name hname => hindexes name (Or.inl hname)]

/-- The script on the database is the script on each table. -/
theorem exists_upgraded {now : ℤ} {R : TableName → Sql.Table → Prop}
    (h : ∀ name, ∃ t',
      Runs.run (Sql.runOn now) (db name) (Sql.actionsOn schemaSql name) = some (some t') ∧
      (∀ later, Runs.run (Sql.runOn later) (some t') (Sql.actionsOn schemaSql name) =
        some (some t')) ∧ R name t') :
    ∃ db', applySchema db now = some db' ∧ (∀ name, ∃ t', db' name = some t' ∧ R name t') ∧
      ∀ later, Runs.run applySchema db' later = some db' := by
  choose t' hrun hagain hR using h
  refine ⟨fun name => some (t' name), Sql.run_script_iff.mpr hrun, fun name => ⟨t' name, rfl, hR name⟩, ?_⟩
  exact Runs.run_of_fixed fun later => Sql.run_script_iff.mpr fun name => hagain name later

/-- The script upgrades a database of the first version, and then changes nothing however often it is
applied, exactly when no issue is closed without a reason. -/
theorem applySchema_upgrades_iff (h : FirstVersion db) (now : ℤ) :
    (∃ db', applySchema db now = some db' ∧
      (∀ name ∈ [TableName.repositories, .issues, .pullRequests],
        rowsOf (db' name) = rowsOf (db name)) ∧
      ∀ later, Runs.run applySchema db' later = some db') ↔
    ∀ r ∈ rowsOf (db .issues), ¬ ClosedWithoutReason r := by
  obtain ⟨issues, hissues, hcolumns, hchecks⟩ := h.issues
  have hvalid : ∀ r ∈ issues.rows, Sql.Valid issuesColumns oldIssuesChecks r := by
    intro r hr
    rw [← hcolumns, ← hchecks]
    exact issues.valid r hr
  rw [hissues]
  show _ ↔ ∀ r ∈ issues.rows, ¬ ClosedWithoutReason r
  constructor
  -- a run of the script added the row check, so every row of `issues` meets it
  · rintro ⟨db', hdb', -, -⟩ r hr
    have hrun := Sql.run_script_iff.mp hdb' .issues
    rw [hissues] at hrun
    obtain ⟨t', -, hadmits, -⟩ := (run_issues (base_of_old hchecks)).mp hrun
    exact (stateReasonState_of_old (hvalid r hr)).mp (hadmits r hr).2
  · intro hreasons
    obtain ⟨repositories, hrepositories, -, -⟩ := h.repositories
    obtain ⟨pullRequests, hpullRequests, -, -⟩ := h.pullRequests
    obtain ⟨ingestRuns, hingestRuns, hrunsColumns, hrunsChecks⟩ := h.ingestRuns
    obtain ⟨syncState, hsyncState, hsyncColumns, hsyncChecks⟩ := h.syncState
    -- table by table; the rows of the two bookkeeping tables are not kept as they are
    have htables : ∀ name, ∃ t',
        Runs.run (Sql.runOn now) (db name) (Sql.actionsOn schemaSql name) = some (some t') ∧
        (∀ later, Runs.run (Sql.runOn later) (some t') (Sql.actionsOn schemaSql name) =
          some (some t')) ∧
        (name ∈ [TableName.repositories, .issues, .pullRequests] → t'.rows = rowsOf (db name)) := by
      intro name
      cases name with
      | repositories =>
        rw [hrepositories]
        exact ⟨repositories, run_repositories, fun _ => run_repositories, fun _ => rfl⟩
      | issues =>
        rw [hissues]
        obtain ⟨t', hrun, hagain, hrows⟩ := run_issues_of_old now hcolumns hchecks hreasons
        exact ⟨t', hrun, hagain, fun _ => hrows⟩
      | pullRequests =>
        rw [hpullRequests]
        obtain ⟨t', hrun, hagain, hrows⟩ := run_pullRequests_of_old now pullRequests
        exact ⟨t', hrun, hagain, fun _ => hrows⟩
      | ingestRuns =>
        rw [hingestRuns]
        obtain ⟨t', hrun, hagain⟩ := run_ingestRuns_of_old now hrunsColumns hrunsChecks
        exact ⟨t', hrun, hagain, fun hmem => absurd hmem (by decide)⟩
      | syncState =>
        rw [hsyncState]
        obtain ⟨t', hrun, hagain⟩ := run_syncState_of_old now hsyncColumns hsyncChecks
        exact ⟨t', hrun, hagain, fun hmem => absurd hmem (by decide)⟩
    obtain ⟨db', hdb', hrows, hagain⟩ := exists_upgraded htables
    refine ⟨db', hdb', fun name hname => ?_, hagain⟩
    obtain ⟨t', ht', hsame⟩ := hrows name
    rw [ht']
    exact hsame hname

/-! ### Two databases of the first version -/

/-- The row of a repository. -/
def repositoryRow : Row := fun name =>
  if name = lit "node_id" then some (.text (lit "R_1"))
  else if name = lit "name_with_owner" then some (.text (lit "a/b"))
  else if name = lit "owner_login" then some (.text (lit "a"))
  else if name = lit "url" then some (.text (lit "https://github.com/a/b"))
  else if name = lit "is_private" then some (.boolean false)
  else if name = lit "is_external" then some (.boolean true)
  else if name = lit "first_seen_at" then some (.timestamp 0)
  else if name = lit "last_seen_at" then some (.timestamp 1)
  else none

/-- The repository row is admitted. -/
theorem valid_repositoryRow :
    ∀ r ∈ [repositoryRow], Sql.Valid repositoriesColumns repositoriesChecks r := by
  decide

/-- An open issue of it. -/
def openIssue : Issue where
  nodeId := lit "I_1"
  repositoryId := lit "R_1"
  number := 1
  url := lit "https://github.com/a/b/issues/1"
  isPrivate := false
  createdAt := 0
  updatedAt := 1
  closedAt := none
  state := lit "OPEN"
  stateReason := none

/-- A completed issue. -/
def completedIssue : Issue :=
  { openIssue with
    nodeId := lit "I_2"
    number := 2
    url := lit "https://github.com/a/b/issues/2"
    closedAt := some 1
    state := lit "CLOSED"
    stateReason := some (lit "COMPLETED") }

/-- A closed issue whose reason is NULL. -/
def unreasonedIssue : Issue := { openIssue with closedAt := some 1, state := lit "CLOSED" }

/-- A database of the first version with the repository and these issues. -/
def firstDatabase (rows : List Row) (h : ∀ r ∈ rows, Sql.Valid issuesColumns oldIssuesChecks r) :
    TableName → Option Sql.Table := fun name => match name with
  | .repositories => some ⟨repositoriesColumns, repositoriesChecks, [], [repositoryRow], valid_repositoryRow⟩
  | .issues => some ⟨issuesColumns, oldIssuesChecks, [], rows, h⟩
  | .pullRequests => some ⟨pullRequestsColumns, pullRequestsChecks, [], [], by simp⟩
  | .ingestRuns => some ⟨oldIngestRunsColumns, [], [], [], by simp⟩
  | .syncState => some ⟨oldSyncStateColumns, [idCheck], [], [], by simp⟩

/-- Its tables have the columns and the checks of the first version. -/
theorem firstVersion_firstDatabase {rows : List Row}
    (h : ∀ r ∈ rows, Sql.Valid issuesColumns oldIssuesChecks r) :
    FirstVersion (firstDatabase rows h) :=
  ⟨⟨_, rfl, rfl, rfl⟩, ⟨_, rfl, rfl, rfl⟩, ⟨_, rfl, rfl, rfl⟩, ⟨_, rfl, rfl, rfl⟩, ⟨_, rfl, rfl, rfl⟩⟩

/-- The old checks admit the open and the completed issue. -/
theorem valid_openIssue_completedIssue :
    ∀ r ∈ [openIssue.row, completedIssue.row], Sql.Valid issuesColumns oldIssuesChecks r := by
  decide +kernel

/-- They admit the closed issue without a reason, too. -/
theorem valid_unreasonedIssue : ∀ r ∈ [unreasonedIssue.row], Sql.Valid issuesColumns oldIssuesChecks r := by
  decide +kernel

/-- With an open and a completed issue the script upgrades the database and keeps its rows. -/
theorem openAndCompleted_upgrade :
    ∃ db', applySchema (firstDatabase _ valid_openIssue_completedIssue) 2 = some db' ∧
      (∀ name ∈ [TableName.repositories, .issues, .pullRequests],
        rowsOf (db' name) = rowsOf (firstDatabase _ valid_openIssue_completedIssue name)) ∧
      ∀ later, Runs.run applySchema db' later = some db' := by
  apply (applySchema_upgrades_iff (firstVersion_firstDatabase valid_openIssue_completedIssue) 2).mpr
  show ∀ r ∈ [openIssue.row, completedIssue.row], ¬ ClosedWithoutReason r
  decide +kernel

/-- A row that the old checks admit, because its reason is unknown to them, stops the script. -/
theorem unreasonedIssue_not_upgraded :
    FirstVersion (firstDatabase [unreasonedIssue.row] valid_unreasonedIssue) ∧
      applySchema (firstDatabase [unreasonedIssue.row] valid_unreasonedIssue) 2 = none := by
  refine ⟨firstVersion_firstDatabase valid_unreasonedIssue, ?_⟩
  apply Option.isNone_iff_eq_none.mp
  decide +kernel

end Upgrade

end Ghpulse.Ingest
