import Ghpulse.Ingest.Demands

/-!
# What validation raises

`_validate_snapshot` is meant to return sound records or to raise `SourceError`. It does, except that
`astimezone` raises `OverflowError` for a timestamp whose instant is not a `datetime`. `TimestampsFit`
says that no such timestamp is reached, and the result is an equivalence, assembled from what the single
checks demand.

Reference: `backend/ingest.py`.
-/

open Python Checks

namespace Ghpulse.Ingest

variable {ν : Type}

/-! ## Soundness

What it means for records to be right: each says what the document says of it, and together they satisfy
the conditions for being stored.
-/

/-- The snapshot is an object with the fields of version one. -/
structure Opened (snapshot : Json ν) (body : List (Str × Json ν)) : Prop where
  body_eq : snapshot = .dict body
  keys : hasKeys body expectedTop = true
  version : body.lookup (lit "schema_version") = some (.int 1)

/-- The account and the collections of the snapshot. -/
structure Header (body : List (Str × Json ν)) (login : Str)
    (repositories issues pullRequests : List (Json ν)) : Prop where
  account : ∃ account, body.lookup (lit "account") = some (.dict account) ∧
    hasKeys account [lit "login"] = true ∧ account.lookup (lit "login") = some (.str login)
  login_ne : login ≠ []
  repositories : body.lookup (lit "repositories") = some (.list repositories)
  issues : body.lookup (lit "issues") = some (.list issues)
  pullRequests : body.lookup (lit "pull_requests") = some (.list pullRequests)

/-- The records say what the snapshot says, and the snapshot is one that may be stored. -/
structure Sound (py : PyLib) (snapshot : Json ν) (s : Snapshot) : Prop where
  /-- Every record stems from an item that has passed its checks. -/
  records : ∃ body generatedAt repositories issues pullRequests, Opened snapshot body ∧
    Header body s.login repositories issues pullRequests ∧
    body.lookup (lit "generated_at") = some generatedAt ∧
    Denotes py generatedAt false (some s.sourceAt) ∧
    List.Forall₂ (RepositoryOf py (py.casefold s.login)) repositories s.repositories ∧
    List.Forall₂ (IssueOf py (py.casefold s.login) s.repositories) issues s.issues ∧
    List.Forall₂ (PullRequestOf py (py.casefold s.login) s.repositories) pullRequests s.pullRequests
  /-- No node id occurs twice. -/
  distinct : (s.repositories.map RepositoryRecord.nodeId ++ s.issues.map IssueRecord.nodeId ++
    s.pullRequests.map PullRequestRecord.nodeId).Nodup

/-! ## Items that are reached

The loops stop at the first item that fails, so a condition on an item is asked only where all items
before it are valid. The ids that are known at that point belong to the condition.
-/

/-- A condition on every item of a collection that comes after valid items only; the node ids before it
are known. -/
def AllFit {α : Type} (fits : Json ν → List Str → Prop) (record : Json ν → α → Prop) (id : α → Str) :
    List (Json ν) → List Str → Prop
  | [], _ => True
  | raw :: rest, seen => fits raw seen ∧
      ∀ r, record raw r → id r ∉ seen → AllFit fits record id rest (id r :: seen)

/-- The records carry new node ids. -/
def Fresh {α : Type} (id : α → Str) (records : List α) (seen : List Str) : Prop :=
  (records.map id).Nodup ∧ ∀ r ∈ records, id r ∉ seen

/-- The node ids known after a collection. -/
def seenAfter {α : Type} (id : α → Str) (records : List α) (seen : List Str) : List Str :=
  (records.map id).reverse ++ seen

/-- No timestamp that comes after valid parts of the snapshot only denotes an instant outside the range of
`datetime`. -/
def TimestampsFit (py : PyLib) (snapshot : Json ν) : Prop :=
  ∀ body generatedAt, Opened snapshot body → body.lookup (lit "generated_at") = some generatedAt →
    ¬Overflows py generatedAt ∧ ((∃ t, Denotes py generatedAt false t) →
      ∀ login rawRepositories rawIssues rawPullRequests,
        Header body login rawRepositories rawIssues rawPullRequests → ∀ repositories,
        List.Forall₂ (RepositoryOf py (py.casefold login)) rawRepositories repositories →
        Fresh RepositoryRecord.nodeId repositories [] →
        AllFit (IssueFits py (py.casefold login) repositories)
          (IssueOf py (py.casefold login) repositories) IssueRecord.nodeId rawIssues
          (seenAfter RepositoryRecord.nodeId repositories []) ∧
        ∀ issues, List.Forall₂ (IssueOf py (py.casefold login) repositories) rawIssues issues →
          Fresh IssueRecord.nodeId issues (seenAfter RepositoryRecord.nodeId repositories []) →
          AllFit (PullRequestFits py (py.casefold login) repositories)
            (PullRequestOf py (py.casefold login) repositories) PullRequestRecord.nodeId rawPullRequests
            (seenAfter IssueRecord.nodeId issues
              (seenAfter RepositoryRecord.nodeId repositories [])))

/-! ## Collections

One lemma about any loop that carries the known ids, applied three times.
-/

section Collections

variable {α : Type} {id : α → Str} {record : Json ν → α → Prop} {seen : List Str}

/-- Records are new when the first is, and the rest are new after it. -/
theorem fresh_cons {r : α} {records : List α} :
    Fresh id (r :: records) seen ↔ id r ∉ seen ∧ Fresh id records (id r :: seen) := by
  unfold Fresh
  simp only [List.map_cons, List.nodup_cons, List.mem_map, not_exists, not_and, List.mem_cons,
    forall_eq_or_imp, not_or]
  constructor
  · rintro ⟨⟨hne, hnodup⟩, hr, hrecords⟩
    exact ⟨hr, hnodup, fun x hx => ⟨hne x hx, hrecords x hx⟩⟩
  · rintro ⟨hr, hnodup, hrecords⟩
    exact ⟨⟨fun x hx => (hrecords x hx).1, hnodup⟩, hr, fun x hx => (hrecords x hx).2⟩

/-- The first record is seen before the rest. -/
theorem seenAfter_cons (r : α) (records : List α) (seen : List Str) :
    seenAfter id (r :: records) seen = seenAfter id records (id r :: seen) := by
  unfold seenAfter
  rw [List.map_cons, List.reverse_cons, List.append_assoc, List.singleton_append]

/-- Nothing is asked of items without timestamps. -/
theorem allFit_trivial (raws : List (Json ν)) (seen : List Str) :
    AllFit (fun _ _ => True) record id raws seen := by
  induction raws generalizing seen with
  | nil => trivial
  | cons raw rest ih => exact ⟨trivial, fun r _ _ => ih (id r :: seen)⟩

/-- A loop that carries the known node ids: its items are checked one after the other, each against those
before it. -/
theorem checked_validateAll {one : ℕ → Json ν → List Str → Except Exc (α × List Str)}
    {fits : Json ν → List Str → Prop}
    (hone : ∀ index raw seen (P : α × List Str → Prop), Checked (one index raw seen) P ↔
      fits raw seen ∧ ∀ r, record raw r → id r ∉ seen → P (r, id r :: seen))
    (index : ℕ) (raws : List (Json ν)) (seen : List Str) {P : List α × List Str → Prop} :
    Checked (validateAll one index raws seen) P ↔ AllFit fits record id raws seen ∧
      ∀ records, List.Forall₂ record raws records → Fresh id records seen →
        P (records, seenAfter id records seen) := by
  induction raws generalizing index seen P with
  | nil =>
    constructor
    · refine fun h => ⟨trivial, fun records hrecords _ => ?_⟩
      cases hrecords
      exact h
    · exact fun h => h.2 [] .nil ⟨List.nodup_nil, fun _ hr => absurd hr List.not_mem_nil⟩
  | cons raw rest ih =>
    unfold validateAll
    rw [checked_bind, hone]
    simp only [checked_bind, ih]
    constructor
    · rintro ⟨hfits, h⟩
      refine ⟨⟨hfits, fun r hr hfresh => (h r hr hfresh).1⟩, fun records hrecords hfresh => ?_⟩
      cases hrecords with
      | cons hr hrest =>
        obtain ⟨hnew, hfresh⟩ := fresh_cons.mp hfresh
        rw [seenAfter_cons]
        exact (h _ hr hnew).2 _ hrest hfresh
    · rintro ⟨⟨hfits, hrest⟩, h⟩
      refine ⟨hfits, fun r hr hnew => ⟨hrest r hr hnew, fun records hrecords hfresh => ?_⟩⟩
      have h := h (r :: records) (.cons hr hrecords) (fresh_cons.mpr ⟨hnew, hfresh⟩)
      rw [seenAfter_cons] at h
      exact h

/-- New node ids, one collection after the other, are distinct altogether. -/
theorem nodup_append_of_fresh {records : List α} (hseen : seen.Nodup) (h : Fresh id records seen) :
    (seenAfter id records seen).Nodup := by
  unfold seenAfter
  refine List.Nodup.append (List.nodup_reverse.mpr h.1) hseen fun key hkey hmem => ?_
  obtain ⟨r, hr, rfl⟩ := List.mem_map.mp (List.mem_reverse.mp hkey)
  exact h.2 r hr hmem

end Collections

/-! ## The snapshot

The checks of the header, the three loops, and the equivalence.
-/

/-- The schema version is the integer one. -/
theorem isOne_iff {value : Json ν} : isOne value = true ↔ value = .int 1 := by
  unfold isOne
  cases value with
  | int z => simp
  | _ => simp

/-- A non-nullable timestamp denotes an instant. -/
theorem Denotes.eq_some {py : PyLib} {value : Json ν} {t : Option Instant}
    (h : Denotes py value false t) : ∃ instant, t = some instant := by
  rcases h with ⟨hfalse, -⟩ | ⟨_, _, _, _, _, _, _, ht⟩
  · exact absurd hfalse Bool.false_ne_true
  · exact ⟨_, ht⟩

/-- What is read from a snapshot whose parts are all valid. -/
def Read (py : PyLib) (snapshot : Json ν) (s : Snapshot) : Prop :=
  ∃ body generatedAt rawRepositories rawIssues rawPullRequests, Opened snapshot body ∧
    body.lookup (lit "generated_at") = some generatedAt ∧
    Denotes py generatedAt false (some s.sourceAt) ∧
    Header body s.login rawRepositories rawIssues rawPullRequests ∧
    List.Forall₂ (RepositoryOf py (py.casefold s.login)) rawRepositories s.repositories ∧
    Fresh RepositoryRecord.nodeId s.repositories [] ∧
    List.Forall₂ (IssueOf py (py.casefold s.login) s.repositories) rawIssues s.issues ∧
    Fresh IssueRecord.nodeId s.issues (seenAfter RepositoryRecord.nodeId s.repositories []) ∧
    List.Forall₂ (PullRequestOf py (py.casefold s.login) s.repositories) rawPullRequests
      s.pullRequests ∧
    Fresh PullRequestRecord.nodeId s.pullRequests (seenAfter IssueRecord.nodeId s.issues
      (seenAfter RepositoryRecord.nodeId s.repositories []))

/-- Such a snapshot is sound. -/
theorem Read.sound {py : PyLib} {snapshot : Json ν} {s : Snapshot} (h : Read py snapshot s) :
    Sound py snapshot s := by
  obtain ⟨body, generatedAt, repositories, issues, pullRequests, hopened, hgenerated, hdenotes, hheader,
    hrepositories, hfresh, hissues, hfresh', hpullRequests, hfresh''⟩ := h
  refine ⟨⟨body, generatedAt, repositories, issues, pullRequests, hopened, hheader, hgenerated, hdenotes,
    hrepositories, hissues, hpullRequests⟩, ?_⟩
  have hnodup := nodup_append_of_fresh (nodup_append_of_fresh (nodup_append_of_fresh .nil hfresh) hfresh')
    hfresh''
  rw [← List.nodup_reverse]
  simpa [seenAfter, List.reverse_append, List.append_assoc] using hnodup

/-- The checks before the collections. -/
theorem checked_header {α : Type} {Q : α → Prop} {body : List (Str × Json ν)}
    (hkeys : hasKeys body expectedTop = true)
    {f : Str → List (Json ν) → List (Json ν) → List (Json ν) → Except Exc α} :
    (Checked (do
      let account ← requireDict (← item body (lit "account")) (lit "snapshot.account")
      ensure (hasKeys account [lit "login"]) (lit "snapshot.account must contain only login")
      let login ← requireString (← item account (lit "login")) (lit "snapshot.account.login")
      let rawRepositories ← requireList (← item body (lit "repositories"))
        (lit "snapshot.repositories")
      let rawIssues ← requireList (← item body (lit "issues")) (lit "snapshot.issues")
      let rawPullRequests ← requireList (← item body (lit "pull_requests"))
        (lit "snapshot.pull_requests")
      f login rawRepositories rawIssues rawPullRequests) Q) ↔
    ∀ login repositories issues pullRequests, Header body login repositories issues pullRequests →
      Checked (f login repositories issues pullRequests) Q := by
  have hkey {key : Str} : key ∈ expectedTop → key ∈ body.map Prod.fst := mem_keys hkeys
  rw [checked_dictField (hkey (by simp [expectedTop]))]
  constructor
  · intro h login repositories issues pullRequests hheader
    obtain ⟨account, haccount, haccountKeys, hlogin⟩ := hheader.account
    have h := checked_ensure.mp (h account haccount) haccountKeys
    have h := (checked_stringField (mem_keys haccountKeys (by simp))).mp h login hlogin hheader.login_ne
    have h := (checked_listField (hkey (by simp [expectedTop]))).mp h _ hheader.repositories
    have h := (checked_listField (hkey (by simp [expectedTop]))).mp h _ hheader.issues
    exact (checked_listField (hkey (by simp [expectedTop]))).mp h _ hheader.pullRequests
  · intro h account haccount
    refine checked_ensure.mpr fun haccountKeys => ?_
    refine (checked_stringField (mem_keys haccountKeys (by simp))).mpr fun login hlogin hne => ?_
    refine (checked_listField (hkey (by simp [expectedTop]))).mpr fun repositories hrepositories => ?_
    refine (checked_listField (hkey (by simp [expectedTop]))).mpr fun issues hissues => ?_
    refine (checked_listField (hkey (by simp [expectedTop]))).mpr fun pullRequests hpullRequests => ?_
    exact h login repositories issues pullRequests
      ⟨⟨account, haccount, haccountKeys, hlogin⟩, hne, hrepositories, hissues, hpullRequests⟩

/-- The three loops. -/
theorem checked_collections {Q : Snapshot → Prop} {py : PyLib} {accountKey : Str}
    (sourceAt : Instant) (login : Str) (rawRepositories rawIssues rawPullRequests : List (Json ν)) :
    (Checked (do
      let (repositories, seen) ← validateAll (validateRepository py accountKey) 0 rawRepositories []
      let (issues, seen) ← validateAll (validateIssue py accountKey repositories) 0 rawIssues seen
      let (pullRequests, _) ←
        validateAll (validatePullRequest py accountKey repositories) 0 rawPullRequests seen
      return ⟨sourceAt, login, repositories, issues, pullRequests⟩) Q) ↔
    ∀ repositories, List.Forall₂ (RepositoryOf py accountKey) rawRepositories repositories →
      Fresh RepositoryRecord.nodeId repositories [] →
      AllFit (IssueFits py accountKey repositories) (IssueOf py accountKey repositories)
        IssueRecord.nodeId rawIssues (seenAfter RepositoryRecord.nodeId repositories []) ∧
      ∀ issues, List.Forall₂ (IssueOf py accountKey repositories) rawIssues issues →
        Fresh IssueRecord.nodeId issues (seenAfter RepositoryRecord.nodeId repositories []) →
        AllFit (PullRequestFits py accountKey repositories) (PullRequestOf py accountKey repositories)
          PullRequestRecord.nodeId rawPullRequests
          (seenAfter IssueRecord.nodeId issues (seenAfter RepositoryRecord.nodeId repositories [])) ∧
        ∀ pullRequests,
          List.Forall₂ (PullRequestOf py accountKey repositories) rawPullRequests pullRequests →
          Fresh PullRequestRecord.nodeId pullRequests
            (seenAfter IssueRecord.nodeId issues
              (seenAfter RepositoryRecord.nodeId repositories [])) →
          Q ⟨sourceAt, login, repositories, issues, pullRequests⟩ := by
  have hrepository (index : ℕ) (raw : Json ν) (seen : List Str)
      (P : RepositoryRecord × List Str → Prop) :
      Checked (validateRepository py accountKey index raw seen) P ↔ True ∧
        ∀ r, RepositoryOf py accountKey raw r → r.nodeId ∉ seen → P (r, r.nodeId :: seen) :=
    checked_validateRepository.trans (iff_of_eq (true_and _)).symm
  rw [checked_bind, checked_validateAll hrepository 0 rawRepositories []]
  refine (and_iff_right (allFit_trivial _ _)).trans ?_
  refine forall₃_congr fun repositories _ _ => ?_
  rw [checked_bind, checked_validateAll (fun _ _ _ _ => checked_validateIssue) 0 rawIssues]
  refine and_congr Iff.rfl (forall₃_congr fun issues _ _ => ?_)
  rw [checked_bind, checked_validateAll (fun _ _ _ _ => checked_validatePullRequest) 0 rawPullRequests]
  exact and_congr Iff.rfl (forall₃_congr fun pullRequests _ _ => passes_pure)

/-- A snapshot is validated exactly when no reached timestamp overflows, and what is returned is what it
says. -/
theorem checked_validateSnapshot {py : PyLib} {snapshot : Json ν} {P : Snapshot → Prop} :
    Checked (validateSnapshot py snapshot) P ↔
      TimestampsFit py snapshot ∧ ∀ s, Read py snapshot s → P s := by
  unfold validateSnapshot
  constructor
  · intro h
    have hrest : ∀ body generatedAt, Opened snapshot body →
        body.lookup (lit "generated_at") = some generatedAt → ¬Overflows py generatedAt ∧
          ∀ instant, Denotes py generatedAt false (some instant) →
            ∀ login repositories issues pullRequests,
              Header body login repositories issues pullRequests →
              Checked (do
                let (rs, seen) ← validateAll (validateRepository py (py.casefold login)) 0 repositories []
                let (is, seen) ← validateAll (validateIssue py (py.casefold login) rs) 0 issues seen
                let (ps, _) ←
                  validateAll (validatePullRequest py (py.casefold login) rs) 0 pullRequests seen
                return ⟨instant, login, rs, is, ps⟩) P := by
      intro body generatedAt hopened hgenerated
      have hkey {key : Str} : key ∈ expectedTop → key ∈ body.map Prod.fst := mem_keys hopened.keys
      have h := checked_ensure.mp (checked_requireDict.mp h body hopened.body_eq) hopened.keys
      have h := (checked_item (hkey (by simp [expectedTop]))).mp h _ hopened.version
      have h := checked_ensure.mp h (isOne_iff.mpr rfl)
      have h := (checked_timeField (hkey (by simp [expectedTop]))).mp h generatedAt hgenerated
      refine ⟨h.1, fun instant hdenotes => (checked_header hopened.keys).mp (h.2 _ hdenotes)⟩
    constructor
    · intro body generatedAt hopened hgenerated
      obtain ⟨hfits, hrest⟩ := hrest body generatedAt hopened hgenerated
      refine ⟨hfits, fun ⟨t, ht⟩ login rawRepositories rawIssues rawPullRequests hheader => ?_⟩
      obtain ⟨instant, rfl⟩ := ht.eq_some
      intro repositories hrepositories hfresh
      have h := (checked_collections instant login rawRepositories rawIssues rawPullRequests).mp
        (hrest instant ht login _ _ _ hheader) repositories hrepositories hfresh
      exact ⟨h.1, fun issues hissues hfresh' => (h.2 issues hissues hfresh').1⟩
    · rintro s ⟨body, generatedAt, rawRepositories, rawIssues, rawPullRequests, hopened, hgenerated,
        hdenotes, hheader, hrepositories, hfresh, hissues, hfresh', hpullRequests, hfresh''⟩
      have h := (hrest body generatedAt hopened hgenerated).2 s.sourceAt hdenotes s.login _ _ _ hheader
      have h := (checked_collections s.sourceAt s.login rawRepositories rawIssues rawPullRequests).mp h
        s.repositories hrepositories hfresh
      exact (h.2 s.issues hissues hfresh').2 s.pullRequests hpullRequests hfresh''
  · rintro ⟨hfits, h⟩
    refine checked_requireDict.mpr fun body hbody => checked_ensure.mpr fun hkeys => ?_
    have hkey {key : Str} : key ∈ expectedTop → key ∈ body.map Prod.fst := mem_keys hkeys
    refine (checked_item (hkey (by simp [expectedTop]))).mpr fun version hversion => ?_
    refine checked_ensure.mpr fun hone => ?_
    have hopened : Opened snapshot body := ⟨hbody, hkeys, isOne_iff.mp hone ▸ hversion⟩
    refine (checked_timeField (hkey (by simp [expectedTop]))).mpr fun generatedAt hgenerated => ?_
    obtain ⟨hfit, hfits⟩ := hfits body generatedAt hopened hgenerated
    refine ⟨hfit, fun t ht => ?_⟩
    obtain ⟨instant, rfl⟩ := ht.eq_some
    refine (checked_header hkeys).mpr fun login rawRepositories rawIssues rawPullRequests hheader => ?_
    refine (checked_collections instant login rawRepositories rawIssues rawPullRequests).mpr ?_
    intro repositories hrepositories hfresh
    obtain ⟨hissuesFit, hfits⟩ := hfits ⟨_, ht⟩ login _ _ _ hheader repositories hrepositories hfresh
    refine ⟨hissuesFit, fun issues hissues hfresh' => ⟨hfits issues hissues hfresh', ?_⟩⟩
    intro pullRequests hpullRequests hfresh''
    exact h ⟨instant, login, repositories, issues, pullRequests⟩
      ⟨body, generatedAt, rawRepositories, rawIssues, rawPullRequests, hopened, hgenerated, ht, hheader,
        hrepositories, hfresh, hissues, hfresh', hpullRequests, hfresh''⟩

/-- Whatever validation returns is sound. -/
theorem sound_of_validateSnapshot {py : PyLib} {snapshot : Json ν} {s : Snapshot}
    (h : validateSnapshot py snapshot = .ok s) : Sound py snapshot s := by
  have hreturns : Checked (validateSnapshot py snapshot) fun _ => True := by
    rw [h]
    trivial
  have hfits := (checked_validateSnapshot.mp hreturns).1
  have hsound : Checked (validateSnapshot py snapshot) (Sound py snapshot) :=
    checked_validateSnapshot.mpr ⟨hfits, fun _ hread => hread.sound⟩
  rw [h] at hsound
  exact hsound

/-- Validation returns sound records or raises `SourceError`, exactly where no timestamp that it reaches
denotes an instant outside the range of `datetime`. -/
theorem validateSnapshot_sound_iff (py : PyLib) (snapshot : Json ν) :
    (((∃ s, validateSnapshot py snapshot = .ok s) ∨
        ∃ message, validateSnapshot py snapshot = .error (sourceError message)) ∧
      ∀ s, validateSnapshot py snapshot = .ok s → Sound py snapshot s) ↔
    TimestampsFit py snapshot := by
  have hchecked : Checked (validateSnapshot py snapshot) (Sound py snapshot) ↔
      TimestampsFit py snapshot :=
    checked_validateSnapshot.trans (and_iff_left fun s hs => hs.sound)
  refine (and_comm.trans (and_congr_right fun _ => ?_)).trans (passes_iff.symm.trans hchecked)
  cases validateSnapshot py snapshot with
  | ok s => exact ⟨fun _ e he => (nomatch he), fun _ => Or.inl ⟨s, rfl⟩⟩
  | error e =>
    constructor
    · rintro (⟨s, hs⟩ | ⟨message, hmessage⟩) e' he
      · exact nomatch hs
      · cases he
        exact ⟨message, Except.error.inj hmessage⟩
    · intro h
      obtain ⟨message, rfl⟩ := h e rfl
      exact Or.inr ⟨message, rfl⟩

/-! ## The contract

Soundness implies what the commit relies on.
-/

section Contract

variable {py : PyLib} {accountKey : Str} {repositories : List RepositoryRecord} {raw : Json ν}

/-- A repository that a document describes is accepted. -/
theorem RepositoryOf.accepted {r : RepositoryRecord} (h : RepositoryOf py accountKey raw r) :
    r.Accepted py accountKey := ⟨h.nodeId_ne, h.external⟩

/-- A timestamp that must not be null is there. -/
theorem Denotes.isSome {value : Json ν} {t : Option Instant} (h : Denotes py value false t) :
    t.isSome = true := by
  obtain ⟨instant, rfl⟩ := h.eq_some
  rfl

/-- An item that a document describes is accepted. -/
theorem ItemOf.accepted {kind : Kind} {c : @Common ν} {repo : RepositoryRecord} {seen : List Str}
    (h : ItemOf py accountKey repositories kind raw c repo) (ht : TimesOf py c)
    (hfresh : c.nodeId ∉ seen) : c.Accepted repositories seen := by
  have hkey : repo.nodeId = c.repositoryId := by simpa using List.find?_some h.found
  obtain ⟨_, -, hcreated⟩ := ht.created
  obtain ⟨_, -, hupdated⟩ := ht.updated
  exact
    { nodeId_ne := h.nodeId_ne
      fresh := hfresh
      repositoryId_mem := List.mem_map.mpr ⟨repo, List.mem_of_find?_eq_some h.found, hkey⟩
      number_pos := h.number_pos
      created := hcreated.isSome
      updated := hupdated.isSome }

/-- So is an issue. -/
theorem IssueOf.accepted {r : IssueRecord} (h : IssueOf py accountKey repositories raw r) :
    r.Accepted repositories := by
  obtain ⟨c, repo, value, hitem, ht, -, hreason, hshape, hr⟩ := h
  have hc := hitem.accepted ht (List.not_mem_nil : c.nodeId ∉ [])
  have hstateReason : ∀ reason ∈ r.stateReason,
      reason ≠ [] ∧ reason.length ≤ maxStateReasonLength ∧ strip reason ≠ [] := by
    rcases hreason with ⟨-, hnone⟩ | ⟨s, -, hne, hlength, hstrip, hsome⟩
    · rw [hnone]
      intro reason hmem
      cases hmem
    · rw [hsome]
      intro reason hmem
      cases hmem
      exact ⟨hne, hlength, hstrip⟩
  rw [hr] at hshape hstateReason ⊢
  exact ⟨hc.nodeId_ne, hc.repositoryId_mem, hc.number_pos, hc.created, hc.updated, hstateReason, hshape⟩

/-- So is a pull request. -/
theorem PullRequestOf.accepted {r : PullRequestRecord}
    (h : PullRequestOf py accountKey repositories raw r) : r.Accepted repositories := by
  obtain ⟨c, repo, value, hitem, ht, -, -, -, hshape, hr⟩ := h
  have hc := hitem.accepted ht (List.not_mem_nil : c.nodeId ∉ [])
  rw [hr] at hshape ⊢
  exact ⟨hc.nodeId_ne, hc.repositoryId_mem, hc.number_pos, hc.created, hc.updated, hshape⟩

/-- The records of a collection stem from its items. -/
theorem forall_of_forall₂ {α : Type} {record : Json ν → α → Prop} {P : α → Prop}
    {raws : List (Json ν)} {records : List α} (h : List.Forall₂ record raws records)
    (hrecord : ∀ raw r, record raw r → P r) : ∀ r ∈ records, P r := by
  induction h with
  | nil => exact fun r hr => absurd hr List.not_mem_nil
  | cons hr _ ih => exact List.forall_mem_cons.mpr ⟨hrecord _ _ hr, ih⟩

/-- Everything `_validate_snapshot` accepts has passed its checks. -/
theorem accepted_of_validateSnapshot {snapshot : Json ν} {s : Snapshot}
    (h : validateSnapshot py snapshot = .ok s) : s.Accepted py := by
  have hsound := sound_of_validateSnapshot h
  obtain ⟨_, _, _, _, _, -, -, -, -, hrepositories, hissues, hpullRequests⟩ := hsound.records
  exact
    { repositories := forall_of_forall₂ hrepositories fun _ _ hr => hr.accepted
      issues := forall_of_forall₂ hissues fun _ _ hr => hr.accepted
      pullRequests := forall_of_forall₂ hpullRequests fun _ _ hr => hr.accepted
      distinct := hsound.distinct }

end Contract

/-! ## The first midnight, east of Greenwich

A timestamp that `fromisoformat` reads and `astimezone` cannot convert.
-/

/-- The library functions on lower-case text and on the first midnight of the calendar, fourteen hours east
of UTC. -/
def easternPy : PyLib where
  casefold s := s
  fromisoformat s :=
    if s = lit "0001-01-01T00:00:00+14:00" then some ⟨minInstant, some 50400000000⟩ else none

/-- An empty snapshot that was generated then. -/
def easternJson : Json Unit :=
  .dict
    [(lit "schema_version", .int 1),
      (lit "generated_at", .str (lit "0001-01-01T00:00:00+14:00")),
      (lit "account", .dict [(lit "login", .str (lit "me"))]),
      (lit "repositories", .list []), (lit "issues", .list []), (lit "pull_requests", .list [])]

/-- The instant is ten hours into the day before the first one, and the conversion to UTC raises
`OverflowError`. -/
theorem easternJson_overflows :
    validateSnapshot easternPy easternJson =
        .error ⟨lit "OverflowError", lit "date value out of range"⟩ ∧
      ¬(((∃ s, validateSnapshot easternPy easternJson = .ok s) ∨
          ∃ message, validateSnapshot easternPy easternJson = .error (sourceError message)) ∧
        ∀ s, validateSnapshot easternPy easternJson = .ok s → Sound easternPy easternJson s) := by
  have hraises : validateSnapshot easternPy easternJson =
      .error ⟨lit "OverflowError", lit "date value out of range"⟩ := rfl
  refine ⟨hraises, ?_⟩
  rw [hraises]
  rintro ⟨⟨s, hs⟩ | ⟨message, hmessage⟩, -⟩
  · exact nomatch hs
  · have hname := congrArg Exc.typeName (Except.error.inj hmessage)
    exact absurd hname overflowError_ne

end Ghpulse.Ingest
