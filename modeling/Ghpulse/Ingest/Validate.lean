import Ghpulse.Ingest.Schema
import Ghpulse.Library.JsonText

/-!
# Snapshot validation

`_validate_snapshot` reads an arbitrary JSON value and returns normalised records, or raises. The checks
stand in the order of the source, since the first one that fails decides the error. `str.casefold` and
`datetime.fromisoformat` are parameters.

Reference: `backend/ingest.py`.
-/

open Python

namespace Ghpulse.Ingest

/-- An exception, by the name of its type and its text. -/
structure Exc where
  typeName : Str
  message : Str
  deriving DecidableEq

/-- `SourceError(message)`. -/
def sourceError (message : Str) : Exc := ⟨lit "SourceError", message⟩

/-- Raise a `SourceError` unless a condition holds. -/
def ensure (condition : Bool) (message : Str) : Except Exc Unit :=
  if condition then .ok () else .error (sourceError message)

/-- What `datetime.fromisoformat` reads: a wall clock and a UTC offset, in microseconds. -/
structure WallTime where
  wallClock : ℤ
  offset : Option ℤ

/-- The library functions of the validator. -/
structure PyLib where
  /-- `str.casefold`. -/
  casefold : Str → Str
  /-- `datetime.fromisoformat`; nothing stands for `ValueError`. -/
  fromisoformat : Str → Option WallTime

variable {ν : Type}

/-! ## Values

The functions that read one value. A type is compared with `is`, so a `bool` is no integer here, and a
subclass of `dict` does not occur in a parsed document.
-/

/-- `datetime.min` as a UTC instant. -/
def minInstant : Instant := -62135596800000000

/-- `datetime.max` as a UTC instant. -/
def maxInstant : Instant := 253402300799999999

/-- `parsed.astimezone(timezone.utc)`. -/
def astimezone (wallClock offset : ℤ) : Except Exc Instant :=
  let instant := wallClock - offset
  if minInstant ≤ instant ∧ instant ≤ maxInstant then .ok instant
  else .error ⟨lit "OverflowError", lit "date value out of range"⟩

/-- `value.replace("Z", "+00:00")`. -/
def replaceZ (s : Str) : Str := s.flatMap fun c => if c = cp 'Z' then lit "+00:00" else [c]

/-- `_parse_timestamp`. -/
def parseTimestamp (py : PyLib) (value : Json ν) (context : Str) (nullable : Bool) :
    Except Exc (Option Instant) :=
  let malformed : Except Exc (Option Instant) :=
    .error (sourceError (context ++ lit " must be an RFC 3339 timestamp"))
  match value with
  | .null => if nullable then .ok none else malformed
  | .str s =>
    if s = [] then malformed
    else
      -- only the `ValueError` of the parser is turned into `SourceError`
      match py.fromisoformat (replaceZ s) with
      | none => malformed
      | some parsed =>
        match parsed.offset with
        | none => .error (sourceError (context ++ lit " must include a timezone"))
        -- the conversion to UTC stands outside the `try`
        | some offset => (astimezone parsed.wallClock offset).map some
  | _ => malformed

/-- `_require_dict`. -/
def requireDict (value : Json ν) (context : Str) : Except Exc (List (Str × Json ν)) :=
  match value with
  | .dict fields => .ok fields
  | _ => .error (sourceError (context ++ lit " must be an object"))

/-- `_require_string`. -/
def requireString (value : Json ν) (context : Str) : Except Exc Str :=
  match value with
  | .str (c :: cs) => .ok (c :: cs)
  | _ => .error (sourceError (context ++ lit " must be a non-empty string"))

/-- `_require_bool`. -/
def requireBool (value : Json ν) (context : Str) : Except Exc Bool :=
  match value with
  | .bool b => .ok b
  | _ => .error (sourceError (context ++ lit " must be a boolean"))

/-- `type(value) is list`. -/
def requireList (value : Json ν) (context : Str) : Except Exc (List (Json ν)) :=
  match value with
  | .list items => .ok items
  | _ => .error (sourceError (context ++ lit " must be a list"))

/-- `fields[key]`. -/
def item (fields : List (Str × Json ν)) (key : Str) : Except Exc (Json ν) :=
  match fields.lookup key with
  | some value => .ok value
  | none => .error ⟨lit "KeyError", cp '\'' :: (key ++ [cp '\''])⟩

/-- `set(fields) == expected`. -/
def hasKeys (fields : List (Str × Json ν)) (expected : List Str) : Bool :=
  (fields.all fun f => decide (f.1 ∈ expected)) &&
    expected.all fun key => decide (key ∈ fields.map Prod.fst)

/-- `value == text` for a `str` on the right. -/
def isText (value : Json ν) (text : Str) : Bool :=
  match value with
  | .str s => decide (s = text)
  | _ => false

/-- `sorted` of a set of texts, joined by `", "`. -/
def sortedText (keys : List Str) : Str :=
  (lit ", ").intercalate (keys.dedup.mergeSort fun a b =>
    !List.lex b a fun x y => decide (x < y))

/-- `f"snapshot.{collection}[{index}]"`. -/
def place (collection : Str) (index : ℕ) : Str :=
  lit "snapshot." ++ collection ++ cp '[' :: (natText index ++ [cp ']'])

/-! ## Records

What the validator returns for each item. The timestamps are optional; which of them are present depends
on the checks.
-/

/-- A normalised repository. -/
structure RepositoryRecord where
  nodeId : Str
  nameWithOwner : Str
  ownerLogin : Str
  url : Str
  deriving DecidableEq

/-- A normalised issue. -/
structure IssueRecord where
  nodeId : Str
  repositoryId : Str
  number : ℤ
  url : Str
  createdAt : Option Instant
  updatedAt : Option Instant
  closedAt : Option Instant
  state : Str
  stateReason : Option Str
  deriving DecidableEq

/-- A normalised pull request. -/
structure PullRequestRecord where
  nodeId : Str
  repositoryId : Str
  number : ℤ
  url : Str
  createdAt : Option Instant
  updatedAt : Option Instant
  closedAt : Option Instant
  mergedAt : Option Instant
  state : Str
  merged : Bool
  deriving DecidableEq

/-- What `_validate_snapshot` returns. -/
structure Snapshot where
  sourceAt : Instant
  login : Str
  repositories : List RepositoryRecord
  issues : List IssueRecord
  pullRequests : List PullRequestRecord

/-! ## Repositories

The fields are those of the GitHub API; the owner is an object with a login.
-/

/-- The fields of a repository. -/
def repositoryFields : List Str :=
  [lit "id", lit "nameWithOwner", lit "url", lit "isPrivate", lit "owner"]

/-- One turn of the loop over `body["repositories"]`; `seen` is `seen_ids`. -/
def validateRepository (py : PyLib) (accountKey : Str) (index : ℕ) (raw : Json ν)
    (seen : List Str) : Except Exc (RepositoryRecord × List Str) := do
  let context := place (lit "repositories") index
  let repo ← requireDict raw context
  ensure (hasKeys repo repositoryFields) (context ++ lit " has invalid fields")
  let nodeId ← requireString (← item repo (lit "id")) (context ++ lit ".id")
  ensure (decide (nodeId ∉ seen)) (lit "duplicate snapshot node_id: " ++ nodeId)
  let isPrivate ← requireBool (← item repo (lit "isPrivate")) (context ++ lit ".isPrivate")
  ensure (!isPrivate) (lit "private repositories are not allowed in ingest")
  let owner ← requireDict (← item repo (lit "owner")) (context ++ lit ".owner")
  ensure (hasKeys owner [lit "login"]) (context ++ lit ".owner has invalid fields")
  let ownerLogin ← requireString (← item owner (lit "login")) (lit "repository owner login")
  ensure (decide (py.casefold ownerLogin ≠ accountKey))
    (lit "account-owned repositories are not external")
  let name ← requireString (← item repo (lit "nameWithOwner")) (lit "repository nameWithOwner")
  let url ← requireString (← item repo (lit "url")) (lit "repository url")
  return (⟨nodeId, name, ownerLogin, url⟩, nodeId :: seen)

/-! ## Issues and pull requests

`validate_item` has a common part and one for each kind. Fields are read in its order, each after the key
check.
-/

/-- `MAX_STATE_REASON_LENGTH`. -/
def maxStateReasonLength : ℕ := 64

/-- The two kinds of item. -/
inductive Kind where
  | issues
  | pullRequests
  deriving DecidableEq

/-- The name of a kind in the snapshot and in error texts. -/
def Kind.text : Kind → Str
  | .issues => lit "issues"
  | .pullRequests => lit "pull_requests"

/-- The fields of an item of a kind. -/
def itemFields (kind : Kind) : List Str :=
  [lit "node_id", lit "repository_id", lit "repository", lit "owner", lit "repository_url",
    lit "is_private", lit "number", lit "url", lit "created_at", lit "updated_at", lit "closed_at",
    lit "state"] ++
  match kind with
  | .issues => [lit "state_reason"]
  | .pullRequests => [lit "merged_at", lit "merged"]

/-- What `validate_item` reads from an item of either kind. -/
structure Common where
  fields : List (Str × Json ν)
  nodeId : Str
  repositoryId : Str
  number : ℤ
  url : Str
  createdAt : Option Instant
  updatedAt : Option Instant
  closedAt : Option Instant
  state : Str

/-- `type(number) is int and number >= 1`. -/
def requireNumber (value : Json ν) (kind : Kind) : Except Exc ℤ :=
  match value with
  | .int z => if 1 ≤ z then .ok z else .error (sourceError (kind.text ++ lit " number must be positive"))
  | _ => .error (sourceError (kind.text ++ lit " number must be positive"))

/-- The part of `validate_item` that does not depend on the kind. -/
def validateCommon (py : PyLib) (accountKey : Str) (repositories : List RepositoryRecord)
    (kind : Kind) (index : ℕ) (raw : Json ν) (seen : List Str) : Except Exc (@Common ν) := do
  let context := place kind.text index
  let about (text : String) : Str := kind.text ++ cp ' ' :: lit text
  let fields ← requireDict raw context
  ensure (hasKeys fields (itemFields kind)) (context ++ lit " has invalid fields")
  let nodeId ← requireString (← item fields (lit "node_id")) (about "node_id")
  ensure (decide (nodeId ∉ seen)) (lit "duplicate snapshot node_id: " ++ nodeId)
  let repositoryId ← requireString (← item fields (lit "repository_id")) (about "repository_id")
  match repositories.find? fun r => decide (r.nodeId = repositoryId) with
  | none => .error (sourceError (about "references an absent repository"))
  | some repo =>
    let isPrivate ← requireBool (← item fields (lit "is_private")) (about "is_private")
    ensure (!isPrivate) (lit "private items are not allowed in ingest")
    let owner ← requireString (← item fields (lit "owner")) (about "owner")
    ensure (decide (py.casefold owner ≠ accountKey)) (lit "account-owned items are not external")
    -- two fields are compared before they are known to be strings
    ensure (decide (owner = repo.ownerLogin) &&
        isText (← item fields (lit "repository")) repo.nameWithOwner)
      (about "repository ownership does not match its repository")
    ensure (isText (← item fields (lit "repository_url")) repo.url)
      (about "repository URL does not match its repository")
    let number ← requireNumber (← item fields (lit "number")) kind
    -- the loop over the four string fields
    let _ ← requireString (← item fields (lit "repository")) (about "repository")
    let _ ← requireString (← item fields (lit "repository_url")) (about "repository_url")
    let url ← requireString (← item fields (lit "url")) (about "url")
    let state ← requireString (← item fields (lit "state")) (about "state")
    let createdAt ← parseTimestamp py (← item fields (lit "created_at")) (about "created_at") false
    let updatedAt ← parseTimestamp py (← item fields (lit "updated_at")) (about "updated_at") false
    let closedAt ← parseTimestamp py (← item fields (lit "closed_at")) (about "closed_at") true
    return ⟨fields, nodeId, repositoryId, number, url, createdAt, updatedAt, closedAt, state⟩

/-- The `state_reason` of an issue: null, or a string of at most 64 characters that is not blank. -/
def requireReason (value : Json ν) : Except Exc (Option Str) :=
  match value with
  | .null => .ok none
  | _ => do
    let reason ← requireString value (lit "issues state_reason")
    ensure (decide (reason.length ≤ maxStateReasonLength) && decide (strip reason ≠ []))
      (lit "invalid issue state_reason")
    return some reason

/-- `validate_item(raw, index, "issues")`. -/
def validateIssue (py : PyLib) (accountKey : Str) (repositories : List RepositoryRecord)
    (index : ℕ) (raw : Json ν) (seen : List Str) : Except Exc (IssueRecord × List Str) := do
  let c ← validateCommon py accountKey repositories .issues index raw seen
  let reason ← requireReason (← item c.fields (lit "state_reason"))
  ensure (decide (c.state ∈ [lit "OPEN", lit "CLOSED"])) (lit "invalid issue state")
  ensure (!(decide (c.state = lit "OPEN") &&
      (c.closedAt.isSome || decide (reason ∈ [some (lit "COMPLETED"), some (lit "NOT_PLANNED")]))))
    (lit "open issue has inconsistent final-state fields")
  ensure (!(decide (c.state = lit "CLOSED") &&
      (c.closedAt.isNone || decide (reason ∈ [none, some (lit "REOPENED")]))))
    (lit "closed issue has inconsistent final-state fields")
  return (⟨c.nodeId, c.repositoryId, c.number, c.url, c.createdAt, c.updatedAt, c.closedAt, c.state,
    reason⟩, c.nodeId :: seen)

/-- `validate_item(raw, index, "pull_requests")`. -/
def validatePullRequest (py : PyLib) (accountKey : Str) (repositories : List RepositoryRecord)
    (index : ℕ) (raw : Json ν) (seen : List Str) : Except Exc (PullRequestRecord × List Str) := do
  let c ← validateCommon py accountKey repositories .pullRequests index raw seen
  let merged ← requireBool (← item c.fields (lit "merged")) (lit "pull_requests merged")
  let mergedAt ← parseTimestamp py (← item c.fields (lit "merged_at"))
    (lit "pull_requests merged_at") true
  ensure (decide (c.state ∈ [lit "OPEN", lit "CLOSED", lit "MERGED"]))
    (lit "invalid pull request state")
  ensure (!(decide (c.state = lit "OPEN") && (merged || c.closedAt.isSome || mergedAt.isSome)))
    (lit "open pull request has inconsistent final-state fields")
  ensure (!(decide (c.state = lit "CLOSED") && (merged || c.closedAt.isNone || mergedAt.isSome)))
    (lit "closed pull request has inconsistent final-state fields")
  ensure (!(decide (c.state = lit "MERGED") && (!merged || c.closedAt.isNone || mergedAt.isNone)))
    (lit "merged pull request has inconsistent final-state fields")
  return (⟨c.nodeId, c.repositoryId, c.number, c.url, c.createdAt, c.updatedAt, c.closedAt, mergedAt,
    c.state, merged⟩, c.nodeId :: seen)

/-! ## The snapshot

The header is checked first, then the repositories, since the items refer to them.
-/

/-- A loop over a collection that carries `seen_ids` along. -/
def validateAll {α : Type} (one : ℕ → Json ν → List Str → Except Exc (α × List Str)) :
    ℕ → List (Json ν) → List Str → Except Exc (List α × List Str)
  | _, [], seen => .ok ([], seen)
  | index, raw :: rest, seen => do
    let (record, seen) ← one index raw seen
    let (records, seen) ← validateAll one (index + 1) rest seen
    return (record :: records, seen)

/-- The fields of the snapshot. -/
def expectedTop : List Str :=
  [lit "schema_version", lit "generated_at", lit "account", lit "repositories", lit "issues",
    lit "pull_requests"]

/-- The text of the error about the fields of the snapshot. -/
def topFieldsError (body : List (Str × Json ν)) : Str :=
  let keys := body.map Prod.fst
  let missing := expectedTop.filter fun key => decide (key ∉ keys)
  let unknown := keys.filter fun key => decide (key ∉ expectedTop)
  let details :=
    (if missing = [] then [] else [lit "missing " ++ sortedText missing]) ++
      (if unknown = [] then [] else [lit "unknown " ++ sortedText unknown])
  lit "invalid snapshot fields: " ++ (lit "; ").intercalate details

/-- `type(value) is int and value == 1`. -/
def isOne (value : Json ν) : Bool :=
  match value with
  | .int z => decide (z = 1)
  | _ => false

/-- `_validate_snapshot`. -/
def validateSnapshot (py : PyLib) (snapshot : Json ν) : Except Exc Snapshot := do
  let body ← requireDict snapshot (lit "snapshot")
  ensure (hasKeys body expectedTop) (topFieldsError body)
  ensure (isOne (← item body (lit "schema_version"))) (lit "unsupported snapshot schema_version")
  let sourceAt ← parseTimestamp py (← item body (lit "generated_at")) (lit "snapshot.generated_at")
    false
  match sourceAt with
  | none => .error ⟨lit "AssertionError", []⟩
  | some sourceAt =>
    let account ← requireDict (← item body (lit "account")) (lit "snapshot.account")
    ensure (hasKeys account [lit "login"]) (lit "snapshot.account must contain only login")
    let login ← requireString (← item account (lit "login")) (lit "snapshot.account.login")
    let rawRepositories ← requireList (← item body (lit "repositories"))
      (lit "snapshot.repositories")
    let rawIssues ← requireList (← item body (lit "issues")) (lit "snapshot.issues")
    let rawPullRequests ← requireList (← item body (lit "pull_requests"))
      (lit "snapshot.pull_requests")
    let accountKey := py.casefold login
    let (repositories, seen) ← validateAll (validateRepository py accountKey) 0 rawRepositories []
    let (issues, seen) ← validateAll (validateIssue py accountKey repositories) 0 rawIssues seen
    let (pullRequests, _) ←
      validateAll (validatePullRequest py accountKey repositories) 0 rawPullRequests seen
    return ⟨sourceAt, login, repositories, issues, pullRequests⟩

end Ghpulse.Ingest
