import Ghpulse.Ingest.Accepted
import Ghpulse.Library.Checks

/-!
# What the checks of a snapshot demand

Every check of the validator is described by what it demands of the input: `Checked` says that a part of it
returns a value with a property or raises `SourceError`, and each lemma turns that into a condition on the
JSON value, as an equivalence. The one check that can raise something else is the conversion of a timestamp
to UTC, so its condition also says that the instant is a `datetime`.

`Checked x Q` says of a check that it raises `SourceError` or returns a value with `Q`. A check in the
middle of a function demands something of the input and goes on with what it has read, so its lemma has
the form: the whole is checked exactly if, for every value that meets the demand, the rest is. Read from
top to bottom these lemmas turn a function into the list of its demands, in the order of the source.

Reference: `backend/ingest.py`.
-/

open Python Checks

namespace Ghpulse.Ingest

variable {ν : Type}

/-! ## What the checks demand of the input

What a document must say for a record to be read from it. Nothing here mentions a check or an error.
-/

/-- An error is a `SourceError`. -/
def IsSourceError (e : Exc) : Prop := ∃ message, e = sourceError message

/-- A part of the validator returns a value with the property, or raises `SourceError`. -/
abbrev Checked {α : Type} (x : Except Exc α) (Q : α → Prop) : Prop := Passes IsSourceError x Q

/-- The instant that a wall clock and an offset denote is a UTC `datetime`. -/
def InRange (wallClock offset : ℤ) : Prop :=
  minInstant ≤ wallClock - offset ∧ wallClock - offset ≤ maxInstant

/-- The value is a timestamp with an offset whose instant is not a `datetime`. -/
def Overflows (py : PyLib) (value : Json ν) : Prop :=
  ∃ s wallClock offset, value = .str s ∧ s ≠ [] ∧
    py.fromisoformat (replaceZ s) = some ⟨wallClock, some offset⟩ ∧ ¬InRange wallClock offset

/-- The value denotes an instant: the same one as its wall clock and its offset, in UTC. A null value
denotes none, where it is allowed. -/
def Denotes (py : PyLib) (value : Json ν) (nullable : Bool) (instant : Option Instant) : Prop :=
  (nullable = true ∧ value = .null ∧ instant = none) ∨
    ∃ s wallClock offset, value = .str s ∧ s ≠ [] ∧
      py.fromisoformat (replaceZ s) = some ⟨wallClock, some offset⟩ ∧ InRange wallClock offset ∧
      instant = some (wallClock - offset)

/-- A repository of the snapshot and its record. -/
structure RepositoryOf (py : PyLib) (accountKey : Str) (raw : Json ν) (r : RepositoryRecord) : Prop where
  fields : ∃ fields owner, raw = .dict fields ∧ hasKeys fields repositoryFields = true ∧
    fields.lookup (lit "id") = some (.str r.nodeId) ∧
    fields.lookup (lit "isPrivate") = some (.bool false) ∧
    fields.lookup (lit "owner") = some (.dict owner) ∧ hasKeys owner [lit "login"] = true ∧
    owner.lookup (lit "login") = some (.str r.ownerLogin) ∧
    fields.lookup (lit "nameWithOwner") = some (.str r.nameWithOwner) ∧
    fields.lookup (lit "url") = some (.str r.url)
  nodeId_ne : r.nodeId ≠ []
  ownerLogin_ne : r.ownerLogin ≠ []
  nameWithOwner_ne : r.nameWithOwner ≠ []
  url_ne : r.url ≠ []
  external : py.casefold r.ownerLogin ≠ accountKey

/-- An item of the snapshot, what is read from it apart from timestamps, and its repository: the item is
not private, and it names the repository's owner, name and URL. -/
structure ItemOf (py : PyLib) (accountKey : Str) (repositories : List RepositoryRecord) (kind : Kind)
    (raw : Json ν) (c : @Common ν) (repo : RepositoryRecord) : Prop where
  raw_eq : raw = .dict c.fields
  keys : hasKeys c.fields (itemFields kind) = true
  nodeId : c.fields.lookup (lit "node_id") = some (.str c.nodeId)
  nodeId_ne : c.nodeId ≠ []
  repositoryId : c.fields.lookup (lit "repository_id") = some (.str c.repositoryId)
  repositoryId_ne : c.repositoryId ≠ []
  found : repositories.find? (fun r => decide (r.nodeId = c.repositoryId)) = some repo
  isPrivate : c.fields.lookup (lit "is_private") = some (.bool false)
  owner : c.fields.lookup (lit "owner") = some (.str repo.ownerLogin)
  owner_ne : repo.ownerLogin ≠ []
  external : py.casefold repo.ownerLogin ≠ accountKey
  repository : c.fields.lookup (lit "repository") = some (.str repo.nameWithOwner)
  repository_ne : repo.nameWithOwner ≠ []
  repositoryUrl : c.fields.lookup (lit "repository_url") = some (.str repo.url)
  repositoryUrl_ne : repo.url ≠ []
  number : c.fields.lookup (lit "number") = some (.int c.number)
  number_pos : 1 ≤ c.number
  url : c.fields.lookup (lit "url") = some (.str c.url)
  url_ne : c.url ≠ []
  state : c.fields.lookup (lit "state") = some (.str c.state)
  state_ne : c.state ≠ []

/-- The timestamps of an item of either kind. -/
structure TimesOf (py : PyLib) (c : @Common ν) : Prop where
  created : ∃ value, c.fields.lookup (lit "created_at") = some value ∧ Denotes py value false c.createdAt
  updated : ∃ value, c.fields.lookup (lit "updated_at") = some value ∧ Denotes py value false c.updatedAt
  closed : ∃ value, c.fields.lookup (lit "closed_at") = some value ∧ Denotes py value true c.closedAt

/-- The value of `state_reason` and what is read from it. -/
def ReasonOf (value : Json ν) (reason : Option Str) : Prop :=
  (value = .null ∧ reason = none) ∨
    ∃ s, value = .str s ∧ s ≠ [] ∧ s.length ≤ maxStateReasonLength ∧ strip s ≠ [] ∧ reason = some s

/-- An issue of the snapshot and its record. -/
def IssueOf (py : PyLib) (accountKey : Str) (repositories : List RepositoryRecord) (raw : Json ν)
    (r : IssueRecord) : Prop :=
  ∃ c repo value, ItemOf py accountKey repositories .issues raw c repo ∧ TimesOf py c ∧
    c.fields.lookup (lit "state_reason") = some value ∧ ReasonOf value r.stateReason ∧ r.StateShape ∧
    r = ⟨c.nodeId, c.repositoryId, c.number, c.url, c.createdAt, c.updatedAt, c.closedAt, c.state,
      r.stateReason⟩

/-- A pull request of the snapshot and its record. -/
def PullRequestOf (py : PyLib) (accountKey : Str) (repositories : List RepositoryRecord) (raw : Json ν)
    (r : PullRequestRecord) : Prop :=
  ∃ c repo value, ItemOf py accountKey repositories .pullRequests raw c repo ∧ TimesOf py c ∧
    c.fields.lookup (lit "merged") = some (.bool r.merged) ∧
    c.fields.lookup (lit "merged_at") = some value ∧ Denotes py value true r.mergedAt ∧ r.StateShape ∧
    r = ⟨c.nodeId, c.repositoryId, c.number, c.url, c.createdAt, c.updatedAt, c.closedAt, r.mergedAt,
      c.state, r.merged⟩

/-! ## Timestamps that are reached

A timestamp is parsed after the checks before it, so one that overflows matters only if these are passed.
The conditions follow the order of the fields.
-/

/-- The timestamps that are reached in an item do not overflow: those before each of them are valid. -/
def TimesFit (py : PyLib) (fields : List (Str × Json ν)) : Prop :=
  ∀ created, fields.lookup (lit "created_at") = some created → ¬Overflows py created ∧
    ((∃ t, Denotes py created false t) →
      ∀ updated, fields.lookup (lit "updated_at") = some updated → ¬Overflows py updated ∧
        ((∃ t, Denotes py updated false t) →
          ∀ closed, fields.lookup (lit "closed_at") = some closed → ¬Overflows py closed))

/-- The timestamps of an issue that passes the checks before them do not overflow. -/
def IssueFits (py : PyLib) (accountKey : Str) (repositories : List RepositoryRecord) (raw : Json ν)
    (seen : List Str) : Prop :=
  ∀ c repo, ItemOf py accountKey repositories .issues raw c repo → c.nodeId ∉ seen →
    TimesFit py c.fields

/-- The timestamps of a pull request that passes the checks before them do not overflow. -/
def PullRequestFits (py : PyLib) (accountKey : Str) (repositories : List RepositoryRecord)
    (raw : Json ν) (seen : List Str) : Prop :=
  ∀ c repo, ItemOf py accountKey repositories .pullRequests raw c repo → c.nodeId ∉ seen →
    TimesFit py c.fields ∧
      (TimesOf py c → ∀ merged value, c.fields.lookup (lit "merged") = some (.bool merged) →
        c.fields.lookup (lit "merged_at") = some value → ¬Overflows py value)

/-! ## Single checks

One lemma for each `_require_…` function and for reading a field; a field must have been found by the key
check.
-/

section Steps

variable {α : Type} {Q : α → Prop} {fields : List (Str × Json ν)} {key context : Str} {value : Json ν}

/-- What a sequence is checked for, its first part is checked for the rest of it. -/
theorem checked_bind {β : Type} {x : Except Exc β} {f : β → Except Exc α} :
    Checked (x >>= f) Q ↔ Checked x fun b => Checked (f b) Q := passes_bind

/-- A `SourceError` is one. -/
theorem isSourceError_sourceError (message : Str) : IsSourceError (sourceError message) := ⟨message, rfl⟩

/-- An `OverflowError` is no `SourceError`. -/
theorem overflowError_ne : lit "OverflowError" ≠ lit "SourceError" := by decide

/-- A demand adds its condition to what follows. -/
theorem checked_ensure {condition : Bool} {message : Str} {f : Unit → Except Exc α} :
    Checked (ensure condition message >>= f) Q ↔ (condition = true → Checked (f ()) Q) := by
  rw [checked_bind]
  unfold ensure
  cases condition with
  | true => exact ⟨fun h _ => h, fun h => h rfl⟩
  | false => exact ⟨fun _ h => absurd h Bool.false_ne_true, fun _ => isSourceError_sourceError _⟩

/-- `_require_dict` demands an object. -/
theorem checked_requireDict {f : List (Str × Json ν) → Except Exc α} :
    Checked (requireDict value context >>= f) Q ↔
      ∀ fields, value = .dict fields → Checked (f fields) Q := by
  rw [checked_bind]
  cases value with
  | dict fields => exact ⟨fun h _ heq => by cases heq; exact h, fun h => h fields rfl⟩
  | _ => exact ⟨fun _ _ heq => (nomatch heq), fun _ => isSourceError_sourceError _⟩

/-- `_require_list` demands an array. -/
theorem checked_requireList {f : List (Json ν) → Except Exc α} :
    Checked (requireList value context >>= f) Q ↔ ∀ items, value = .list items → Checked (f items) Q := by
  rw [checked_bind]
  cases value with
  | list items => exact ⟨fun h _ heq => by cases heq; exact h, fun h => h items rfl⟩
  | _ => exact ⟨fun _ _ heq => (nomatch heq), fun _ => isSourceError_sourceError _⟩

/-- `_require_bool` demands a truth value. -/
theorem checked_requireBool {f : Bool → Except Exc α} :
    Checked (requireBool value context >>= f) Q ↔ ∀ b, value = .bool b → Checked (f b) Q := by
  rw [checked_bind]
  cases value with
  | bool b => exact ⟨fun h _ heq => by cases heq; exact h, fun h => h b rfl⟩
  | _ => exact ⟨fun _ _ heq => (nomatch heq), fun _ => isSourceError_sourceError _⟩

/-- `_require_string` demands a text that is not empty. -/
theorem checked_requireString {f : Str → Except Exc α} :
    Checked (requireString value context >>= f) Q ↔
      ∀ s, value = .str s → s ≠ [] → Checked (f s) Q := by
  rw [checked_bind]
  cases value with
  | str s =>
    cases s with
    | nil => exact ⟨fun _ s heq hne => by cases heq; exact absurd rfl hne,
        fun _ => isSourceError_sourceError _⟩
    | cons c cs => exact ⟨fun h _ heq _ => by cases heq; exact h, fun h => h _ rfl (List.cons_ne_nil c cs)⟩
  | _ => exact ⟨fun _ _ heq => (nomatch heq), fun _ => isSourceError_sourceError _⟩

/-- The check of a number demands an integer from one on. -/
theorem checked_requireNumber {kind : Kind} {f : ℤ → Except Exc α} :
    Checked (requireNumber value kind >>= f) Q ↔ ∀ z, value = .int z → 1 ≤ z → Checked (f z) Q := by
  rw [checked_bind]
  cases value with
  | int z =>
    unfold requireNumber
    by_cases hz : 1 ≤ z
    · simp only [if_pos hz]
      exact ⟨fun h _ heq _ => by cases heq; exact h, fun h => h z rfl hz⟩
    · simp only [if_neg hz]
      exact ⟨fun _ _ heq hle => by cases heq; exact absurd hle hz, fun _ => isSourceError_sourceError _⟩
  | _ => exact ⟨fun _ _ heq => (nomatch heq), fun _ => isSourceError_sourceError _⟩

/-- A key that was checked to be there is found. -/
theorem checked_item (hkey : key ∈ fields.map Prod.fst) {f : Json ν → Except Exc α} :
    Checked (item fields key >>= f) Q ↔
      ∀ value, fields.lookup key = some value → Checked (f value) Q := by
  rw [checked_bind]
  unfold item
  cases hlookup : fields.lookup key with
  | some value => exact ⟨fun h _ heq => by cases heq; exact h, fun h => h value rfl⟩
  | none =>
    rw [List.lookup_eq_none_iff] at hlookup
    obtain ⟨p, hp, rfl⟩ := List.mem_map.mp hkey
    exact absurd (hlookup p hp) (by simp)

/-- The expected keys are there. -/
theorem mem_keys {expected : List Str} (h : hasKeys fields expected = true) (hkey : key ∈ expected) :
    key ∈ fields.map Prod.fst := by
  rw [hasKeys, Bool.and_eq_true] at h
  simpa using List.all_eq_true.mp h.2 key hkey

/-- A text that is read as a wall clock with an offset overflows exactly where the instant is no
`datetime`, and denotes that instant otherwise. -/
theorem overflows_str {py : PyLib} {s : Str} {wallClock offset : ℤ} (hs : s ≠ [])
    (hparse : py.fromisoformat (replaceZ s) = some ⟨wallClock, some offset⟩) :
    Overflows py (.str s : Json ν) ↔ ¬InRange wallClock offset := by
  constructor
  · rintro ⟨s', w, o, heq, -, hparse', hrange⟩
    cases heq
    rw [hparse] at hparse'
    cases hparse'
    exact hrange
  · intro hrange
    exact ⟨s, wallClock, offset, rfl, hs, hparse, hrange⟩

/-- A text denotes the instant that `fromisoformat` makes of it, if its year can be represented. -/
theorem denotes_str {py : PyLib} {s : Str} {wallClock offset : ℤ} {nullable : Bool}
    {t : Option Instant} (hs : s ≠ [])
    (hparse : py.fromisoformat (replaceZ s) = some ⟨wallClock, some offset⟩) :
    Denotes py (.str s : Json ν) nullable t ↔
      InRange wallClock offset ∧ t = some (wallClock - offset) := by
  constructor
  · rintro (⟨-, heq, -⟩ | ⟨s', w, o, heq, -, hparse', hrange, ht⟩)
    · exact nomatch heq
    · cases heq
      rw [hparse] at hparse'
      cases hparse'
      exact ⟨hrange, ht⟩
  · rintro ⟨hrange, ht⟩
    exact Or.inr ⟨s, wallClock, offset, rfl, hs, hparse, hrange, ht⟩

/-- Nothing overflows or is denoted without a text that is read with an offset. -/
theorem unreadable {py : PyLib} {nullable : Bool} (hnull : nullable = true → value ≠ .null)
    (htext : ∀ s wallClock offset, value = .str s → s ≠ [] →
      py.fromisoformat (replaceZ s) ≠ some ⟨wallClock, some offset⟩) :
    ¬Overflows py value ∧ ∀ t, ¬Denotes py value nullable t := by
  constructor
  · rintro ⟨s, w, o, heq, hs, hparse, -⟩
    exact htext s w o heq hs hparse
  · rintro t (⟨htrue, heq, -⟩ | ⟨s, w, o, heq, hs, hparse, -⟩)
    · exact hnull htrue heq
    · exact htext s w o heq hs hparse

/-- A timestamp is one that does not overflow; it is null, or denotes the instant it is read as. -/
theorem checked_parseTimestamp {py : PyLib} {nullable : Bool} {f : Option Instant → Except Exc α} :
    Checked (parseTimestamp py value context nullable >>= f) Q ↔ ¬Overflows py value ∧
      ∀ t, Denotes py value nullable t → Checked (f t) Q := by
  rw [checked_bind]
  -- where nothing is denoted the computation raises `SourceError`, and nothing is left to show
  have hraises {x : Except Exc (Option Instant)} {message : Str} (hx : x = .error (sourceError message))
      (h : ¬Overflows py value ∧ ∀ t, ¬Denotes py value nullable t) :
      (Checked x fun t => Checked (f t) Q) ↔
        ¬Overflows py value ∧ ∀ t, Denotes py value nullable t → Checked (f t) Q := by
    subst hx
    exact ⟨fun _ => ⟨h.1, fun t ht => absurd ht (h.2 t)⟩, fun _ => isSourceError_sourceError message⟩
  cases value with
  | null =>
    cases nullable with
    | true =>
      have hover : ¬Overflows py (.null : Json ν) := fun ⟨_, _, _, heq, _⟩ => nomatch heq
      refine ⟨fun h => ⟨hover, fun t ht => ?_⟩, fun h => h.2 none (Or.inl ⟨rfl, rfl, rfl⟩)⟩
      rcases ht with ⟨-, -, rfl⟩ | ⟨_, _, _, heq, _⟩
      · exact h
      · exact nomatch heq
    | false =>
      exact hraises rfl (unreadable (fun h => absurd h Bool.false_ne_true)
        fun _ _ _ heq => nomatch heq)
  | str s =>
    by_cases hs : s = []
    · subst hs
      exact hraises rfl (unreadable (fun _ heq => nomatch heq)
        fun _ _ _ heq hne => by cases heq; exact absurd rfl hne)
    · simp only [parseTimestamp, if_neg hs]
      cases hparse : py.fromisoformat (replaceZ s) with
      | none =>
        exact hraises rfl (unreadable (fun _ heq => nomatch heq)
          fun _ _ _ heq _ => by cases heq; rw [hparse]; simp)
      | some parsed =>
        obtain ⟨wallClock, offset⟩ := parsed
        cases offset with
        | none =>
          exact hraises rfl (unreadable (fun _ heq => nomatch heq)
            fun _ _ _ heq _ => by cases heq; rw [hparse]; simp)
        | some offset =>
          simp only [overflows_str hs hparse, denotes_str hs hparse, not_not]
          by_cases hrange : InRange wallClock offset
          · have hat : astimezone wallClock offset = .ok (wallClock - offset) := if_pos hrange
            rw [hat]
            exact ⟨fun h => ⟨hrange, fun t ht => ht.2 ▸ h⟩, fun h => h.2 _ ⟨hrange, rfl⟩⟩
          · have hat : astimezone wallClock offset = .error ⟨lit "OverflowError", _⟩ := if_neg hrange
            rw [hat]
            exact ⟨fun ⟨_, h⟩ => absurd (congrArg Exc.typeName h) overflowError_ne,
              fun h => absurd h.1 hrange⟩
  | _ =>
    exact hraises rfl (unreadable (fun _ heq => nomatch heq) fun _ _ _ heq => nomatch heq)

/-- A field that was checked to be there, and must have a shape. -/
theorem checked_field {β : Type} (hkey : key ∈ fields.map Prod.fst) {require : Json ν → Except Exc β}
    {f : β → Except Exc α} {shape : β → Json ν} {R : β → Prop}
    (hrequire : ∀ value, Checked (require value >>= f) Q ↔ ∀ b, value = shape b → R b) :
    Checked (item fields key >>= fun value => require value >>= f) Q ↔
      ∀ b, fields.lookup key = some (shape b) → R b := by
  rw [checked_item hkey]
  refine ⟨fun h b hb => (hrequire _).mp (h _ hb) b rfl, fun h value hvalue => ?_⟩
  exact (hrequire value).mpr fun b heq => h b (heq ▸ hvalue)

/-- A text is demanded of a field that the key check has found. -/
theorem checked_stringField (hkey : key ∈ fields.map Prod.fst) {f : Str → Except Exc α} :
    Checked (item fields key >>= fun value => requireString value context >>= f) Q ↔
      ∀ s, fields.lookup key = some (.str s) → s ≠ [] → Checked (f s) Q :=
  checked_field hkey fun _ => checked_requireString

/-- Likewise a truth value. -/
theorem checked_boolField (hkey : key ∈ fields.map Prod.fst) {f : Bool → Except Exc α} :
    Checked (item fields key >>= fun value => requireBool value context >>= f) Q ↔
      ∀ b, fields.lookup key = some (.bool b) → Checked (f b) Q :=
  checked_field hkey fun _ => checked_requireBool

/-- Likewise an object. -/
theorem checked_dictField (hkey : key ∈ fields.map Prod.fst)
    {f : List (Str × Json ν) → Except Exc α} :
    Checked (item fields key >>= fun value => requireDict value context >>= f) Q ↔
      ∀ body, fields.lookup key = some (.dict body) → Checked (f body) Q :=
  checked_field hkey fun _ => checked_requireDict

/-- Likewise an array. -/
theorem checked_listField (hkey : key ∈ fields.map Prod.fst) {f : List (Json ν) → Except Exc α} :
    Checked (item fields key >>= fun value => requireList value context >>= f) Q ↔
      ∀ items, fields.lookup key = some (.list items) → Checked (f items) Q :=
  checked_field hkey fun _ => checked_requireList

/-- Likewise a number. -/
theorem checked_numberField (hkey : key ∈ fields.map Prod.fst) {kind : Kind}
    {f : ℤ → Except Exc α} :
    Checked (item fields key >>= fun value => requireNumber value kind >>= f) Q ↔
      ∀ z, fields.lookup key = some (.int z) → 1 ≤ z → Checked (f z) Q :=
  checked_field hkey fun _ => checked_requireNumber

/-- Likewise a timestamp, on which the check may also overflow. -/
theorem checked_timeField (hkey : key ∈ fields.map Prod.fst) {py : PyLib} {nullable : Bool}
    {f : Option Instant → Except Exc α} :
    Checked (item fields key >>= fun value => parseTimestamp py value context nullable >>= f) Q ↔
      ∀ value, fields.lookup key = some value → ¬Overflows py value ∧
        ∀ t, Denotes py value nullable t → Checked (f t) Q := by
  rw [checked_item hkey]
  exact forall₂_congr fun value _ => checked_parseTimestamp

/-- A value is compared with a text as a text. -/
theorem isText_iff {s : Str} : isText value s = true ↔ value = .str s := by
  unfold isText
  cases value with
  | str t => simp
  | _ => simp

/-- A field that is compared with a text, alone or after another comparison. -/
theorem checked_textFieldAlone (hkey : key ∈ fields.map Prod.fst) {s message : Str}
    {f : Unit → Except Exc α} :
    Checked (item fields key >>= fun value => ensure (isText value s) message >>= f) Q ↔
      (fields.lookup key = some (.str s) → Checked (f ()) Q) := by
  rw [checked_item hkey]
  refine ⟨fun h hs => checked_ensure.mp (h _ hs) (isText_iff.mpr rfl), fun h value hvalue => ?_⟩
  refine checked_ensure.mpr fun htext => ?_
  exact h (isText_iff.mp htext ▸ hvalue)

/-- A field is demanded to repeat a text. -/
theorem checked_textField (hkey : key ∈ fields.map Prod.fst) {condition : Bool} {s message : Str}
    {f : Unit → Except Exc α} :
    Checked (item fields key >>= fun value => ensure (condition && isText value s) message >>= f) Q ↔
      (condition = true → fields.lookup key = some (.str s) → Checked (f ()) Q) := by
  cases condition with
  | true => exact (checked_textFieldAlone hkey).trans ⟨fun h _ => h, fun h => h rfl⟩
  | false =>
    rw [checked_item hkey]
    refine ⟨fun _ hfalse => absurd hfalse Bool.false_ne_true, fun _ value _ => ?_⟩
    exact checked_ensure.mpr fun hfalse => absurd hfalse Bool.false_ne_true

/-- The check of a reason demands one of the enumeration, or null. -/
theorem checked_requireReason {f : Option Str → Except Exc α} :
    Checked (requireReason value >>= f) Q ↔ ∀ reason, ReasonOf value reason → Checked (f reason) Q := by
  rw [checked_bind]
  cases value with
  | null =>
    refine ⟨fun h reason hreason => ?_, fun h => h none (Or.inl ⟨rfl, rfl⟩)⟩
    rcases hreason with ⟨-, rfl⟩ | ⟨_, heq, _⟩
    · exact h
    · exact nomatch heq
  | str s =>
    refine checked_requireString.trans ⟨fun h reason hreason => ?_, fun h s' heq hne => ?_⟩
    · rcases hreason with ⟨heq, -⟩ | ⟨s', heq, hne, hlen, hstrip, rfl⟩
      · exact nomatch heq
      · refine checked_ensure.mp (h s' heq hne) ?_
        rw [Bool.and_eq_true, decide_eq_true_eq, decide_eq_true_eq]
        exact ⟨hlen, hstrip⟩
    · refine checked_ensure.mpr fun hchecks => ?_
      rw [Bool.and_eq_true, decide_eq_true_eq, decide_eq_true_eq] at hchecks
      exact h (some s') (Or.inr ⟨s', heq, hne, hchecks.1, hchecks.2, rfl⟩)
  | _ =>
    refine ⟨fun _ reason hreason => ?_, fun _ => isSourceError_sourceError _⟩
    rcases hreason with ⟨heq, -⟩ | ⟨_, heq, _⟩
    · exact nomatch heq
    · exact nomatch heq

end Steps

/-! ## Records

The checks of a record, composed. The common part of issues and pull requests is done once.
-/

section Records

variable {α : Type} {Q : α → Prop} {py : PyLib} {accountKey : Str} {repositories : List RepositoryRecord}
  {index : ℕ} {raw : Json ν} {seen : List Str}

/-- What `_validate_repository` accepts is a repository whose id is new. -/
theorem checked_validateRepository {P : RepositoryRecord × List Str → Prop} :
    Checked (validateRepository py accountKey index raw seen) P ↔
      ∀ r, RepositoryOf py accountKey raw r → r.nodeId ∉ seen → P (r, r.nodeId :: seen) := by
  unfold validateRepository
  constructor
  · intro h r hr hfresh
    obtain ⟨fields, owner, hraw, hkeys, hid, hprivate, howner, hownerKeys, hlogin, hname, hurl⟩ :=
      hr.fields
    have hkey {key : Str} : key ∈ repositoryFields → key ∈ fields.map Prod.fst := mem_keys hkeys
    have h := checked_ensure.mp (checked_requireDict.mp h fields hraw) hkeys
    have h := (checked_stringField (hkey (by simp [repositoryFields]))).mp h _ hid hr.nodeId_ne
    have h := checked_ensure.mp h (decide_eq_true hfresh)
    have h := (checked_boolField (hkey (by simp [repositoryFields]))).mp h _ hprivate
    have h := checked_ensure.mp h rfl
    have h := (checked_dictField (hkey (by simp [repositoryFields]))).mp h _ howner
    have h := checked_ensure.mp h hownerKeys
    have h := (checked_stringField (mem_keys hownerKeys (by simp))).mp h _ hlogin hr.ownerLogin_ne
    have h := checked_ensure.mp h (decide_eq_true hr.external)
    have h := (checked_stringField (hkey (by simp [repositoryFields]))).mp h _ hname
      hr.nameWithOwner_ne
    exact (checked_stringField (hkey (by simp [repositoryFields]))).mp h _ hurl hr.url_ne
  · intro h
    refine checked_requireDict.mpr fun fields hraw => checked_ensure.mpr fun hkeys => ?_
    have hkey {key : Str} : key ∈ repositoryFields → key ∈ fields.map Prod.fst := mem_keys hkeys
    refine (checked_stringField (hkey (by simp [repositoryFields]))).mpr fun nodeId hid hidNe => ?_
    refine checked_ensure.mpr fun hfresh => ?_
    refine (checked_boolField (hkey (by simp [repositoryFields]))).mpr fun isPrivate hprivate => ?_
    refine checked_ensure.mpr fun hpublic => ?_
    obtain rfl : isPrivate = false := by simpa using hpublic
    refine (checked_dictField (hkey (by simp [repositoryFields]))).mpr fun owner howner => ?_
    refine checked_ensure.mpr fun hownerKeys => ?_
    refine (checked_stringField (mem_keys hownerKeys (by simp))).mpr fun login hlogin hloginNe => ?_
    refine checked_ensure.mpr fun hexternal => ?_
    refine (checked_stringField (hkey (by simp [repositoryFields]))).mpr fun name hname hnameNe => ?_
    refine (checked_stringField (hkey (by simp [repositoryFields]))).mpr fun url hurl hurlNe => ?_
    exact h ⟨nodeId, name, login, url⟩
      { fields := ⟨fields, owner, hraw, hkeys, hid, hprivate, howner, hownerKeys, hlogin, hname, hurl⟩
        nodeId_ne := hidNe
        ownerLogin_ne := hloginNe
        nameWithOwner_ne := hnameNe
        url_ne := hurlNe
        external := of_decide_eq_true hexternal } (of_decide_eq_true hfresh)

/-- The three timestamps of an item, one after the other. -/
theorem checked_times {fields : List (Str × Json ν)} {a b c : Str}
    (hcreated : lit "created_at" ∈ fields.map Prod.fst)
    (hupdated : lit "updated_at" ∈ fields.map Prod.fst)
    (hclosed : lit "closed_at" ∈ fields.map Prod.fst)
    {f : Option Instant → Option Instant → Option Instant → Except Exc α} :
    (Checked (do
      let created ← parseTimestamp py (← item fields (lit "created_at")) a false
      let updated ← parseTimestamp py (← item fields (lit "updated_at")) b false
      let closed ← parseTimestamp py (← item fields (lit "closed_at")) c true
      f created updated closed) Q) ↔
    TimesFit py fields ∧ ∀ created updated closed,
      (∃ value, fields.lookup (lit "created_at") = some value ∧ Denotes py value false created) →
      (∃ value, fields.lookup (lit "updated_at") = some value ∧ Denotes py value false updated) →
      (∃ value, fields.lookup (lit "closed_at") = some value ∧ Denotes py value true closed) →
        Checked (f created updated closed) Q := by
  rw [checked_timeField hcreated]
  constructor
  · intro h
    constructor
    · intro v hv
      refine ⟨(h v hv).1, fun ⟨t, ht⟩ v' hv' => ?_⟩
      have h := (checked_timeField hupdated).mp ((h v hv).2 t ht) v' hv'
      refine ⟨h.1, fun ⟨t', ht'⟩ v'' hv'' => ?_⟩
      exact ((checked_timeField hclosed).mp (h.2 t' ht') v'' hv'').1
    · rintro created updated closed ⟨v, hv, ht⟩ ⟨v', hv', ht'⟩ ⟨v'', hv'', ht''⟩
      have h := (checked_timeField hupdated).mp ((h v hv).2 _ ht) v' hv'
      exact ((checked_timeField hclosed).mp (h.2 _ ht') v'' hv'').2 _ ht''
  · rintro ⟨hfits, h⟩ v hv
    refine ⟨(hfits v hv).1, fun t ht => (checked_timeField hupdated).mpr fun v' hv' => ?_⟩
    have hfits := (hfits v hv).2 ⟨t, ht⟩ v' hv'
    refine ⟨hfits.1, fun t' ht' => (checked_timeField hclosed).mpr fun v'' hv'' => ?_⟩
    exact ⟨hfits.2 ⟨t', ht'⟩ v'' hv'', fun t'' ht'' => h t t' t'' ⟨v, hv, ht⟩ ⟨v', hv', ht'⟩
      ⟨v'', hv'', ht''⟩⟩

/-- An item that passes its checks reaches its timestamps. -/
theorem checked_of_item {kind : Kind} {P : @Common ν → Prop}
    (h : Checked (validateCommon py accountKey repositories kind index raw seen) P) {c : @Common ν}
    {repo : RepositoryRecord} (hc : ItemOf py accountKey repositories kind raw c repo)
    (hfresh : c.nodeId ∉ seen) : TimesFit py c.fields ∧ (TimesOf py c → P c) := by
  unfold validateCommon at h
  have hkey {key : Str} : key ∈ itemFields kind → key ∈ c.fields.map Prod.fst := mem_keys hc.keys
  have h := checked_ensure.mp (checked_requireDict.mp h c.fields hc.raw_eq) hc.keys
  have h := (checked_stringField (hkey (by simp [itemFields]))).mp h _ hc.nodeId hc.nodeId_ne
  have h := checked_ensure.mp h (decide_eq_true hfresh)
  have h := (checked_stringField (hkey (by simp [itemFields]))).mp h _ hc.repositoryId
    hc.repositoryId_ne
  rw [hc.found] at h
  have h := (checked_boolField (hkey (by simp [itemFields]))).mp h _ hc.isPrivate
  have h := checked_ensure.mp h rfl
  have h := (checked_stringField (hkey (by simp [itemFields]))).mp h _ hc.owner hc.owner_ne
  have h := checked_ensure.mp h (decide_eq_true hc.external)
  have h := (checked_textField (hkey (by simp [itemFields]))).mp h (decide_eq_true rfl) hc.repository
  have h := (checked_textFieldAlone (hkey (by simp [itemFields]))).mp h hc.repositoryUrl
  have h := (checked_numberField (hkey (by simp [itemFields]))).mp h _ hc.number hc.number_pos
  have h := (checked_stringField (hkey (by simp [itemFields]))).mp h _ hc.repository hc.repository_ne
  have h := (checked_stringField (hkey (by simp [itemFields]))).mp h _ hc.repositoryUrl
    hc.repositoryUrl_ne
  have h := (checked_stringField (hkey (by simp [itemFields]))).mp h _ hc.url hc.url_ne
  have h := (checked_stringField (hkey (by simp [itemFields]))).mp h _ hc.state hc.state_ne
  have h := (checked_times (hkey (by simp [itemFields])) (hkey (by simp [itemFields]))
    (hkey (by simp [itemFields]))).mp h
  exact ⟨h.1, fun ht => h.2 _ _ _ ht.created ht.updated ht.closed⟩

/-- Whatever is read from an item has passed its checks. -/
theorem checked_of_items {kind : Kind} {P : @Common ν → Prop}
    (hfits : ∀ c repo, ItemOf py accountKey repositories kind raw c repo → c.nodeId ∉ seen →
      TimesFit py c.fields)
    (h : ∀ c repo, ItemOf py accountKey repositories kind raw c repo → TimesOf py c → c.nodeId ∉ seen →
      P c) :
    Checked (validateCommon py accountKey repositories kind index raw seen) P := by
  unfold validateCommon
  refine checked_requireDict.mpr fun fields hraw => checked_ensure.mpr fun hkeys => ?_
  have hkey {key : Str} : key ∈ itemFields kind → key ∈ fields.map Prod.fst := mem_keys hkeys
  refine (checked_stringField (hkey (by simp [itemFields]))).mpr fun nodeId hid hidNe => ?_
  refine checked_ensure.mpr fun hfresh => ?_
  refine (checked_stringField (hkey (by simp [itemFields]))).mpr fun repositoryId hrid hridNe => ?_
  -- the repository of the item must be in the snapshot
  cases hfound : repositories.find? fun r => decide (r.nodeId = repositoryId) with
  | none => exact isSourceError_sourceError _
  | some repo =>
    refine (checked_boolField (hkey (by simp [itemFields]))).mpr fun isPrivate hprivate => ?_
    refine checked_ensure.mpr fun hpublic => ?_
    obtain rfl : isPrivate = false := by simpa using hpublic
    refine (checked_stringField (hkey (by simp [itemFields]))).mpr fun owner howner hownerNe => ?_
    refine checked_ensure.mpr fun hexternal => ?_
    refine (checked_textField (hkey (by simp [itemFields]))).mpr fun hsame hrepository => ?_
    obtain rfl : owner = repo.ownerLogin := of_decide_eq_true hsame
    refine (checked_textFieldAlone (hkey (by simp [itemFields]))).mpr fun hurl => ?_
    refine (checked_numberField (hkey (by simp [itemFields]))).mpr fun number hnumber hpos => ?_
    refine (checked_stringField (hkey (by simp [itemFields]))).mpr fun s hs hrepositoryNe => ?_
    obtain rfl : s = repo.nameWithOwner := by simpa [hrepository] using hs.symm
    refine (checked_stringField (hkey (by simp [itemFields]))).mpr fun s' hs' hrepositoryUrlNe => ?_
    obtain rfl : s' = repo.url := by simpa [hurl] using hs'.symm
    refine (checked_stringField (hkey (by simp [itemFields]))).mpr fun url hitemUrl hurlNe => ?_
    refine (checked_stringField (hkey (by simp [itemFields]))).mpr fun state hstate hstateNe => ?_
    -- whatever the timestamps are, the other fields say the same
    have hc (created updated closed : Option Instant) : ItemOf py accountKey repositories kind raw
        ⟨fields, nodeId, repositoryId, number, url, created, updated, closed, state⟩ repo :=
      { raw_eq := hraw
        keys := hkeys
        nodeId := hid
        nodeId_ne := hidNe
        repositoryId := hrid
        repositoryId_ne := hridNe
        found := hfound
        isPrivate := hprivate
        owner := howner
        owner_ne := hownerNe
        external := of_decide_eq_true hexternal
        repository := hrepository
        repository_ne := hrepositoryNe
        repositoryUrl := hurl
        repositoryUrl_ne := hrepositoryUrlNe
        number := hnumber
        number_pos := hpos
        url := hitemUrl
        url_ne := hurlNe
        state := hstate
        state_ne := hstateNe }
    have hfresh := of_decide_eq_true hfresh
    refine (checked_times (hkey (by simp [itemFields])) (hkey (by simp [itemFields]))
      (hkey (by simp [itemFields]))).mpr ⟨hfits _ repo (hc none none none) hfresh, ?_⟩
    exact fun created updated closed ht ht' ht'' => h _ repo (hc created updated closed)
      ⟨ht, ht', ht''⟩ hfresh

/-- The checks of an item that come before those of its kind. -/
theorem checked_validateCommon {kind : Kind} {f : @Common ν → Except Exc α} :
    Checked (validateCommon py accountKey repositories kind index raw seen >>= f) Q ↔
      (∀ c repo, ItemOf py accountKey repositories kind raw c repo → c.nodeId ∉ seen →
        TimesFit py c.fields) ∧
      ∀ c repo, ItemOf py accountKey repositories kind raw c repo → TimesOf py c → c.nodeId ∉ seen →
        Checked (f c) Q := by
  rw [checked_bind]
  constructor
  · intro h
    exact ⟨fun c repo hc hfresh => (checked_of_item h hc hfresh).1,
      fun c repo hc ht hfresh => (checked_of_item h hc hfresh).2 ht⟩
  · rintro ⟨hfits, h⟩
    exact checked_of_items hfits h

/-- The three tests on the state of an issue say that it is consistent. -/
theorem IssueRecord.stateShape_iff {r : IssueRecord} :
    r.StateShape ↔ decide (r.state ∈ [lit "OPEN", lit "CLOSED"]) = true ∧
      (!(decide (r.state = lit "OPEN") && (r.closedAt.isSome ||
        decide (r.stateReason ∈ [some (lit "COMPLETED"), some (lit "NOT_PLANNED")])))) = true ∧
      (!(decide (r.state = lit "CLOSED") && (r.closedAt.isNone ||
        decide (r.stateReason ∈ [none, some (lit "REOPENED")])))) = true := by
  have hne : lit "OPEN" ≠ lit "CLOSED" := by decide
  unfold IssueRecord.StateShape
  by_cases hopen : r.state = lit "OPEN"
  · simp [hopen, hne]
  · by_cases hclosed : r.state = lit "CLOSED"
    · simp [hclosed, hne.symm, Option.ne_none_iff_isSome]
    · simp [hopen, hclosed]

/-- The four tests on the state of a pull request say that it is consistent. -/
theorem PullRequestRecord.stateShape_iff {r : PullRequestRecord} :
    r.StateShape ↔ decide (r.state ∈ [lit "OPEN", lit "CLOSED", lit "MERGED"]) = true ∧
      (!(decide (r.state = lit "OPEN") &&
        (r.merged || r.closedAt.isSome || r.mergedAt.isSome))) = true ∧
      (!(decide (r.state = lit "CLOSED") &&
        (r.merged || r.closedAt.isNone || r.mergedAt.isSome))) = true ∧
      (!(decide (r.state = lit "MERGED") &&
        (!r.merged || r.closedAt.isNone || r.mergedAt.isNone))) = true := by
  have hclosedNe : lit "OPEN" ≠ lit "CLOSED" := by decide
  have hmergedNe : lit "OPEN" ≠ lit "MERGED" := by decide
  have hne : lit "CLOSED" ≠ lit "MERGED" := by decide
  unfold PullRequestRecord.StateShape
  by_cases hopen : r.state = lit "OPEN"
  · simp [hopen, hclosedNe, hmergedNe, and_assoc]
  · by_cases hclosed : r.state = lit "CLOSED"
    · simp [hclosed, hclosedNe.symm, hne, and_assoc]
    · by_cases hmerged : r.state = lit "MERGED"
      · simp [hmerged, hmergedNe.symm, hne.symm, and_assoc]
      · simp [hopen, hclosed, hmerged]

/-- What `_validate_issue` accepts is an issue that is new, and the check fits its values. -/
theorem checked_validateIssue {P : IssueRecord × List Str → Prop} :
    Checked (validateIssue py accountKey repositories index raw seen) P ↔
      IssueFits py accountKey repositories raw seen ∧
      ∀ r, IssueOf py accountKey repositories raw r → r.nodeId ∉ seen → P (r, r.nodeId :: seen) := by
  refine checked_validateCommon.trans (and_congr Iff.rfl ?_)
  have hkey {c : @Common ν} {repo : RepositoryRecord}
      (hc : ItemOf py accountKey repositories .issues raw c repo) :
      lit "state_reason" ∈ c.fields.map Prod.fst := mem_keys hc.keys (by simp [itemFields])
  constructor
  · rintro h r ⟨c, repo, value, hc, ht, hvalue, hreason, hshape, hr⟩ hfresh
    have hid : r.nodeId = c.nodeId := congrArg IssueRecord.nodeId hr
    have hstate : r.state = c.state := congrArg IssueRecord.state hr
    have hclosedAt : r.closedAt = c.closedAt := congrArg IssueRecord.closedAt hr
    obtain ⟨hknown, hopen, hclosed⟩ := IssueRecord.stateShape_iff.mp hshape
    rw [hstate] at hknown hopen hclosed
    rw [hclosedAt] at hopen hclosed
    have h := (checked_item (hkey hc)).mp (h c repo hc ht (hid ▸ hfresh)) value hvalue
    have h := checked_requireReason.mp h _ hreason
    have h := checked_ensure.mp (checked_ensure.mp (checked_ensure.mp h hknown) hopen) hclosed
    rw [hr]
    exact h
  · intro h c repo hc ht hfresh
    refine (checked_item (hkey hc)).mpr fun value hvalue => ?_
    refine checked_requireReason.mpr fun reason hreason => checked_ensure.mpr fun hknown => ?_
    refine checked_ensure.mpr fun hopen => checked_ensure.mpr fun hclosed => ?_
    exact h _ ⟨c, repo, value, hc, ht, hvalue, hreason,
      IssueRecord.stateShape_iff.mpr ⟨hknown, hopen, hclosed⟩, rfl⟩ hfresh

/-- What `_validate_pull_request` accepts is a pull request that is new, and the check fits its values. -/
theorem checked_validatePullRequest {P : PullRequestRecord × List Str → Prop} :
    Checked (validatePullRequest py accountKey repositories index raw seen) P ↔
      PullRequestFits py accountKey repositories raw seen ∧
      ∀ r, PullRequestOf py accountKey repositories raw r → r.nodeId ∉ seen →
        P (r, r.nodeId :: seen) := by
  refine checked_validateCommon.trans ?_
  have hmergedKey {c : @Common ν} {repo : RepositoryRecord}
      (hc : ItemOf py accountKey repositories .pullRequests raw c repo) :
      lit "merged" ∈ c.fields.map Prod.fst := mem_keys hc.keys (by simp [itemFields])
  have hmergedAtKey {c : @Common ν} {repo : RepositoryRecord}
      (hc : ItemOf py accountKey repositories .pullRequests raw c repo) :
      lit "merged_at" ∈ c.fields.map Prod.fst := mem_keys hc.keys (by simp [itemFields])
  constructor
  · rintro ⟨hfits, h⟩
    constructor
    · refine fun c repo hc hfresh => ⟨hfits c repo hc hfresh, fun ht merged value hmerged hvalue => ?_⟩
      have h := (checked_boolField (hmergedKey hc)).mp (h c repo hc ht hfresh) merged hmerged
      exact ((checked_timeField (hmergedAtKey hc)).mp h value hvalue).1
    · rintro r ⟨c, repo, value, hc, ht, hmerged, hvalue, hmergedAt, hshape, hr⟩ hfresh
      have hid : r.nodeId = c.nodeId := congrArg PullRequestRecord.nodeId hr
      have hstate : r.state = c.state := congrArg PullRequestRecord.state hr
      have hclosedAt : r.closedAt = c.closedAt := congrArg PullRequestRecord.closedAt hr
      obtain ⟨hknown, hopen, hclosed, hdone⟩ := PullRequestRecord.stateShape_iff.mp hshape
      rw [hstate] at hknown hopen hclosed hdone
      rw [hclosedAt] at hopen hclosed hdone
      have h := (checked_boolField (hmergedKey hc)).mp (h c repo hc ht (hid ▸ hfresh)) _ hmerged
      have h := ((checked_timeField (hmergedAtKey hc)).mp h value hvalue).2 _ hmergedAt
      have h := checked_ensure.mp (checked_ensure.mp h hknown) hopen
      have h := checked_ensure.mp (checked_ensure.mp h hclosed) hdone
      rw [hr]
      exact h
  · rintro ⟨hfits, h⟩
    refine ⟨fun c repo hc hfresh => (hfits c repo hc hfresh).1, fun c repo hc ht hfresh => ?_⟩
    refine (checked_boolField (hmergedKey hc)).mpr fun merged hmerged => ?_
    refine (checked_timeField (hmergedAtKey hc)).mpr fun value hvalue => ?_
    refine ⟨(hfits c repo hc hfresh).2 ht merged value hmerged hvalue, fun mergedAt hmergedAt => ?_⟩
    refine checked_ensure.mpr fun hknown => checked_ensure.mpr fun hopen => ?_
    refine checked_ensure.mpr fun hclosed => checked_ensure.mpr fun hdone => ?_
    exact h _ ⟨c, repo, value, hc, ht, hmerged, hvalue, hmergedAt,
      PullRequestRecord.stateShape_iff.mpr ⟨hknown, hopen, hclosed, hdone⟩, rfl⟩ hfresh

end Records

end Ghpulse.Ingest
