import Ghpulse.Ingest.Validate

/-!
# What validation accepts

`Snapshot.Accepted` is the contract of `_validate_snapshot` for everything downstream: the checks that
the records it returns have passed. `accepted_of_validateSnapshot` derives it once, from what the checks
demand, so nothing else looks into the validator.
-/

open Python

namespace Ghpulse.Ingest

variable {ν : Type}

/-! ## The contract

The two shapes are written as disjunctions over the states, in which every other column is determined up
to its value. What a check says only about the raw value, that a name is not empty for instance, is left
to `Ingest.Sound`.
-/

/-- A repository record has passed its checks. -/
structure RepositoryRecord.Accepted (py : PyLib) (accountKey : Str) (r : RepositoryRecord) : Prop where
  nodeId_ne : r.nodeId ≠ []
  external : py.casefold r.ownerLogin ≠ accountKey

/-- What the checks that do not depend on the kind establish. -/
structure Common.Accepted (repositories : List RepositoryRecord) (seen : List Str)
    (c : @Common ν) : Prop where
  nodeId_ne : c.nodeId ≠ []
  fresh : c.nodeId ∉ seen
  repositoryId_mem : c.repositoryId ∈ repositories.map RepositoryRecord.nodeId
  number_pos : 1 ≤ c.number
  created : c.createdAt.isSome = true
  updated : c.updatedAt.isSome = true

/-- The checks on the state of an issue. -/
def IssueRecord.StateShape (r : IssueRecord) : Prop :=
  (r.state = lit "OPEN" ∧ r.closedAt = none ∧
      r.stateReason ≠ some (lit "COMPLETED") ∧ r.stateReason ≠ some (lit "NOT_PLANNED")) ∨
    (r.state = lit "CLOSED" ∧ r.closedAt.isSome = true ∧
      r.stateReason ≠ none ∧ r.stateReason ≠ some (lit "REOPENED"))

/-- An issue record has passed its checks. -/
structure IssueRecord.Accepted (repositories : List RepositoryRecord) (r : IssueRecord) : Prop where
  nodeId_ne : r.nodeId ≠ []
  repositoryId_mem : r.repositoryId ∈ repositories.map RepositoryRecord.nodeId
  number_pos : 1 ≤ r.number
  created : r.createdAt.isSome = true
  updated : r.updatedAt.isSome = true
  reason : ∀ reason ∈ r.stateReason,
    reason ≠ [] ∧ reason.length ≤ maxStateReasonLength ∧ strip reason ≠ []
  shape : r.StateShape

/-- The checks on the state of a pull request. -/
def PullRequestRecord.StateShape (r : PullRequestRecord) : Prop :=
  (r.state = lit "OPEN" ∧ r.merged = false ∧ r.closedAt = none ∧ r.mergedAt = none) ∨
    (r.state = lit "CLOSED" ∧ r.merged = false ∧ r.closedAt.isSome = true ∧ r.mergedAt = none) ∨
    (r.state = lit "MERGED" ∧ r.merged = true ∧ r.closedAt.isSome = true ∧ r.mergedAt.isSome = true)

/-- A pull request record has passed its checks. -/
structure PullRequestRecord.Accepted (repositories : List RepositoryRecord) (r : PullRequestRecord) :
    Prop where
  nodeId_ne : r.nodeId ≠ []
  repositoryId_mem : r.repositoryId ∈ repositories.map RepositoryRecord.nodeId
  number_pos : 1 ≤ r.number
  created : r.createdAt.isSome = true
  updated : r.updatedAt.isSome = true
  shape : r.StateShape

/-- A snapshot has passed its checks. -/
structure Snapshot.Accepted (py : PyLib) (s : Snapshot) : Prop where
  repositories : ∀ r ∈ s.repositories, r.Accepted py (py.casefold s.login)
  issues : ∀ r ∈ s.issues, r.Accepted s.repositories
  pullRequests : ∀ r ∈ s.pullRequests, r.Accepted s.repositories
  /-- No node id occurs twice in the snapshot. -/
  distinct : (s.repositories.map RepositoryRecord.nodeId ++ s.issues.map IssueRecord.nodeId ++
    s.pullRequests.map PullRequestRecord.nodeId).Nodup

/-- A guard was passed and the rest ran. -/
theorem ensure_bind_eq_ok {β : Type} {condition : Bool} {message : Str} {f : Unit → Except Exc β}
    {b : β} : ensure condition message >>= f = .ok b ↔ condition = true ∧ f () = .ok b := by
  unfold ensure
  cases condition <;> simp [bind, Except.bind]

/-! ## A sample snapshot

The smallest snapshot with something in it. Its number is a parameter, because a number is what validation
and the schema disagree about.
-/

/-- The library functions on lower-case text and on one timestamp. -/
def samplePy : PyLib where
  casefold s := s
  fromisoformat s :=
    if s = lit "2026-08-11T00:00:00+00:00" then some ⟨1786406400000000, some 0⟩ else none

/-- A snapshot with one repository and one open issue with a given number. -/
def sampleJson (number : ℤ) : Json ν :=
  .dict
    [(lit "schema_version", .int 1),
      (lit "generated_at", .str (lit "2026-08-11T00:00:00Z")),
      (lit "account", .dict [(lit "login", .str (lit "me"))]),
      (lit "repositories", .list
        [.dict
          [(lit "id", .str (lit "R")), (lit "nameWithOwner", .str (lit "org/r")),
            (lit "url", .str (lit "u")), (lit "isPrivate", .bool false),
            (lit "owner", .dict [(lit "login", .str (lit "org"))])]]),
      (lit "issues", .list
        [.dict
          [(lit "node_id", .str (lit "I")), (lit "repository_id", .str (lit "R")),
            (lit "repository", .str (lit "org/r")), (lit "owner", .str (lit "org")),
            (lit "repository_url", .str (lit "u")), (lit "is_private", .bool false),
            (lit "number", .int number), (lit "url", .str (lit "v")),
            (lit "created_at", .str (lit "2026-08-11T00:00:00Z")),
            (lit "updated_at", .str (lit "2026-08-11T00:00:00Z")), (lit "closed_at", .null),
            (lit "state", .str (lit "OPEN")), (lit "state_reason", .null)]]),
      (lit "pull_requests", .list [])]

/-- What validation makes of the sample. -/
def sampleSnapshot (number : ℤ) : Snapshot where
  sourceAt := 1786406400000000
  login := lit "me"
  repositories := [⟨lit "R", lit "org/r", lit "org", lit "u"⟩]
  issues :=
    [⟨lit "I", lit "R", number, lit "v", some 1786406400000000, some 1786406400000000, none,
      lit "OPEN", none⟩]
  pullRequests := []

end Ghpulse.Ingest
