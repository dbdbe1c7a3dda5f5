import Ghpulse.Dashboard.Window

/-!
# The event union

The dashboard derives its events from the current rows: each issue and pull request is joined with its
repository and contributes a creation event and, by its state, an outcome. The six arms of the union
differ only in their last conditions and the column that dates the event, so an `Arm` holds these and
`Arm.events` is the query. The constraints of the schema make the first conditions of every arm true,
which `Arm.events_eq` says once.

Reference: `backend/api_dashboard.py`.
-/

open Python Ghpulse.Ingest

namespace Ghpulse.Dashboard

/-! ## Events

A row of the union without its repository's name: the queries over the union read the id, the time, the
panel and the kind.
-/

/-- The column `panel`. -/
inductive Panel where
  | issues
  | pullRequests
  deriving DecidableEq

/-- The column `kind`. -/
inductive Kind where
  | opened
  | completed
  | notPlanned
  | merged
  | closedUnmerged
  deriving DecidableEq

/-- The text of a panel. -/
def Panel.text : Panel → Str
  | .issues => lit "issues"
  | .pullRequests => lit "pull_requests"

/-- The text of a kind. -/
def Kind.text : Kind → Str
  | .opened => lit "opened"
  | .completed => lit "completed"
  | .notPlanned => lit "not_planned"
  | .merged => lit "merged"
  | .closedUnmerged => lit "closed_unmerged"

/-- A row of the event union. -/
structure Event where
  repositoryId : Str
  eventAt : Option Instant
  panel : Panel
  kind : Kind
  deriving DecidableEq

/-! ## The union

The six `SELECT`s of `_event_union`. Their join and their conditions on privacy are the same, and written
once.
-/

variable {ρ : Type}

/-- The columns that the queries read of an issue or a pull request. -/
structure Columns (ρ : Type) where
  repositoryId : ρ → Str
  isPrivate : ρ → Bool
  state : ρ → Str
  createdAt : ρ → Instant

/-- The columns of `issues`. -/
def issueColumns : Columns Issue :=
  ⟨Issue.repositoryId, Issue.isPrivate, Issue.state, Issue.createdAt⟩

/-- The columns of `pull_requests`. -/
def pullRequestColumns : Columns PullRequest :=
  ⟨PullRequest.repositoryId, PullRequest.isPrivate, PullRequest.state, PullRequest.createdAt⟩

/-- `FROM … JOIN repositories r ON r.node_id = ….repository_id`. -/
def joined (db : Db) (c : Columns ρ) (items : List ρ) : List (ρ × Repository) :=
  items.filterMap fun r => (db.repositories.find (c.repositoryId r)).map fun repository =>
    (r, repository)

/-- `r.is_private IS FALSE AND r.is_external IS TRUE AND ….is_private IS FALSE`. -/
def isPublic (c : Columns ρ) (x : ρ × Repository) : Sql.Truth :=
  Sql.and (Sql.isBool (some x.2.isPrivate) false)
    (Sql.and (Sql.isBool (some x.2.isExternal) true) (Sql.isBool (some (c.isPrivate x.1)) false))

/-- What one arm of the union adds to the common query. -/
structure Arm (ρ : Type) where
  panel : Panel
  kind : Kind
  condition : ρ → Sql.Truth
  eventAt : ρ → Option Instant

/-- The row that an arm selects of an item. -/
def Arm.event (arm : Arm ρ) (c : Columns ρ) (r : ρ) : Event :=
  ⟨c.repositoryId r, arm.eventAt r, arm.panel, arm.kind⟩

/-- One arm of the union. -/
def Arm.events (arm : Arm ρ) (db : Db) (c : Columns ρ) (items : List ρ) : List Event :=
  ((joined db c items).filter fun x =>
    Sql.holds (Sql.and (isPublic c x) (arm.condition x.1))).map fun x => arm.event c x.1

/-- The first arm. -/
def openedIssues : Arm Issue where
  panel := .issues
  kind := .opened
  condition _ := some true
  eventAt r := some r.createdAt

/-- The second arm. -/
def completedIssues : Arm Issue where
  panel := .issues
  kind := .completed
  condition r :=
    Sql.and (Sql.eq (some r.state) (some (lit "CLOSED")))
      (Sql.and (Sql.eq r.stateReason (some (lit "COMPLETED"))) (Sql.isNotNull r.closedAt))
  eventAt := Issue.closedAt

/-- The third arm. -/
def notPlannedIssues : Arm Issue where
  panel := .issues
  kind := .notPlanned
  condition r :=
    Sql.and (Sql.eq (some r.state) (some (lit "CLOSED")))
      (Sql.and (Sql.eq r.stateReason (some (lit "NOT_PLANNED"))) (Sql.isNotNull r.closedAt))
  eventAt := Issue.closedAt

/-- The fourth arm. -/
def openedPullRequests : Arm PullRequest where
  panel := .pullRequests
  kind := .opened
  condition _ := some true
  eventAt r := some r.createdAt

/-- The fifth arm. -/
def mergedPullRequests : Arm PullRequest where
  panel := .pullRequests
  kind := .merged
  condition r :=
    Sql.and (Sql.eq (some r.state) (some (lit "MERGED")))
      (Sql.and (Sql.isBool (some r.merged) true) (Sql.isNotNull r.mergedAt))
  eventAt := PullRequest.mergedAt

/-- The sixth arm. -/
def closedUnmergedPullRequests : Arm PullRequest where
  panel := .pullRequests
  kind := .closedUnmerged
  condition r :=
    Sql.and (Sql.eq (some r.state) (some (lit "CLOSED")))
      (Sql.and (Sql.isBool (some r.merged) false) (Sql.isNotNull r.closedAt))
  eventAt := PullRequest.closedAt

/-- The arms over `issues`. -/
def issueArms : List (Arm Issue) := [openedIssues, completedIssues, notPlannedIssues]

/-- The arms over `pull_requests`. -/
def pullRequestArms : List (Arm PullRequest) :=
  [openedPullRequests, mergedPullRequests, closedUnmergedPullRequests]

/-- `_event_union`. -/
def eventUnion (db : Db) : List Event :=
  issueArms.flatMap (fun arm => arm.events db issueColumns db.issues.rows) ++
    pullRequestArms.flatMap fun arm => arm.events db pullRequestColumns db.pullRequests.rows

/-! ## What the constraints guarantee

A stored row refers to a stored repository, both are public, and its state and times are in one of a few
shapes. The schema guarantees each of these by a constraint, so they hold for every database and not only
for those that an ingest has written.
-/

/-- Rows that refer to a stored repository and are not private. -/
def Stored (db : Db) (c : Columns ρ) (items : List ρ) : Prop :=
  ∀ r ∈ items, (db.repositories.find (c.repositoryId r)).isSome = true ∧ c.isPrivate r = false

theorem stored_issues (db : Db) : Stored db issueColumns db.issues.rows := by
  intro r hr
  refine ⟨db.issues_fk r hr, ?_⟩
  have hcheck : r.check = true := db.issues.checked r hr
  simp only [Issue.check, Bool.and_eq_true, Sql.isBool, Sql.admits_some, decide_eq_true_eq,
    Option.some.injEq] at hcheck
  exact hcheck.1.1.1.2

theorem stored_pullRequests (db : Db) : Stored db pullRequestColumns db.pullRequests.rows := by
  intro r hr
  refine ⟨db.pullRequests_fk r hr, ?_⟩
  have hcheck : r.check = true := db.pullRequests.checked r hr
  simp only [PullRequest.check, Bool.and_eq_true, Sql.isBool, Sql.admits_some, decide_eq_true_eq,
    Option.some.injEq] at hcheck
  exact hcheck.1.1.2

/-- An issue that satisfies the constraints is open without a closing time, or closed with one. -/
theorem issue_shape {r : Issue} (h : r.check = true) :
    (r.state = lit "OPEN" ∧ r.closedAt = none) ∨
      (r.state = lit "CLOSED" ∧ r.closedAt.isSome = true) := by
  simp only [Issue.check, Bool.and_eq_true, Issue.stateReasonState, Sql.admits_or, Sql.admits_and,
    Bool.or_eq_true, Sql.isNull, Sql.isNotNull, Sql.eq, Sql.compare, Sql.admits_some,
    decide_eq_true_eq, Option.isNone_iff_eq_none] at h
  exact h.2.imp (fun hopen => ⟨hopen.1, hopen.2.1⟩) fun hclosed => ⟨hclosed.1, hclosed.2.1⟩

/-- A pull request that satisfies the constraints is in one of three shapes. -/
theorem pullRequest_shape {r : PullRequest} (h : r.check = true) :
    (r.state = lit "OPEN" ∧ r.merged = false) ∨
      (r.state = lit "CLOSED" ∧ r.merged = false ∧ r.closedAt.isSome = true) ∨
      (r.state = lit "MERGED" ∧ r.merged = true ∧ r.mergedAt.isSome = true) := by
  simp only [PullRequest.check, Bool.and_eq_true, PullRequest.stateShape, Sql.admits_or,
    Sql.admits_and, Bool.or_eq_true, Sql.isNull, Sql.isNotNull, Sql.isBool, Sql.eq, Sql.compare,
    Sql.admits_some, decide_eq_true_eq, Option.some.injEq] at h
  rcases h.2 with (hopen | hclosed) | hmerged
  · exact Or.inl ⟨hopen.1, hopen.2.1⟩
  · exact Or.inr (Or.inl ⟨hclosed.1, hclosed.2⟩)
  · exact Or.inr (Or.inr ⟨hmerged.1, hmerged.2.1, hmerged.2.2.2⟩)

/-- Every stored repository is public and external. -/
theorem public_of_find {db : Db} {id : Str} {repository : Repository}
    (h : db.repositories.find id = some repository) :
    repository.isPrivate = false ∧ repository.isExternal = true := by
  have hcheck : repository.check = true :=
    db.repositories.checked repository (Keyed.Table.find_eq_some.mp h).1
  simp only [Repository.check, Bool.and_eq_true, Sql.isBool, Sql.admits_some, decide_eq_true_eq,
    Option.some.injEq] at hcheck
  exact ⟨hcheck.1.2, hcheck.2⟩

/-- The join and its first conditions keep every stored row: only the conditions of the query itself
select. -/
theorem joined_filter_map {β : Type} {db : Db} {c : Columns ρ} {items : List ρ}
    (h : Stored db c items) (condition : ρ → Sql.Truth) (f : ρ → β) :
    ((joined db c items).filter fun x =>
        Sql.holds (Sql.and (isPublic c x) (condition x.1))).map (fun x => f x.1) =
      (items.filter fun r => Sql.holds (condition r)).map f := by
  induction items with
  | nil => rfl
  | cons r items ih =>
    obtain ⟨hfk, hprivate⟩ := h r List.mem_cons_self
    obtain ⟨repository, hfind⟩ := Option.isSome_iff_exists.mp hfk
    obtain ⟨hpublic, hexternal⟩ := public_of_find hfind
    -- what the schema guarantees makes the first conditions true
    have hrow : Sql.holds (isPublic c (r, repository)) = true := by
      simp [isPublic, Sql.isBool, hpublic, hexternal, hprivate]
    have hjoined : joined db c (r :: items) = (r, repository) :: joined db c items := by
      simp [joined, hfind]
    have hrest := ih fun x hx => h x (List.mem_cons_of_mem r hx)
    rw [hjoined, List.filter_cons, List.filter_cons, Sql.holds_and, hrow, Bool.true_and]
    split_ifs
    · rw [List.map_cons, List.map_cons, hrest]
    · exact hrest

/-- An arm selects the rows that satisfy its own conditions. -/
theorem Arm.events_eq (arm : Arm ρ) {db : Db} {c : Columns ρ} {items : List ρ}
    (h : Stored db c items) :
    arm.events db c items =
      (items.filter fun r => Sql.holds (arm.condition r)).map (arm.event c) :=
  joined_filter_map h arm.condition (arm.event c)

end Ghpulse.Dashboard
