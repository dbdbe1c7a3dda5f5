import Ghpulse.Ingest.Run
import Ghpulse.Ingest.Sound

/-!
# The public boundary

The consumer checks what the vendored producer returns a second time before it is validated.
`PublicExternal` says what the guard demands. The guard is weaker than the validation behind it, so it
turns no run away that would have been committed; what it does turn away is refused before the
validation looks at it.

Reference: `backend/github_source.py`.
-/

open Python Checks Effect

namespace Ghpulse.Ingest

variable {ν κ τ : Type}

/-! ## The guard

The guard reads with `get`, so a missing key is `None` and not an error. Its texts name the collection and
the index.
-/

/-- `ValueError(message)`. -/
def valueError (message : Str) : Exc := ⟨lit "ValueError", message⟩

/-- `mapping.get(key)`, with `None` for a missing key. -/
def getField (fields : List (Str × Json ν)) (key : Str) : Json ν := (fields.lookup key).getD .null

/-- `value == 1`, which also holds of `True` and of a float that is one. -/
def equalsOne (numIsOne : ν → Bool) : Json ν → Bool
  | .int z => decide (z = 1)
  | .bool b => b
  | .num x => numIsOne x
  | _ => false

/-- The text under `login` of a dictionary that has one. -/
def loginOf : Json ν → Option Str
  | .dict fields =>
    match getField fields (lit "login") with
    | .str login => some login
    | _ => none
  | _ => none

/-- `value is False`. -/
def isFalse : Json ν → Bool
  | .bool b => !b
  | _ => false

/-- `isinstance(raw, dict) and raw.get(key) is False`. -/
def isPublic (key : Str) : Json ν → Bool
  | .dict fields => isFalse (getField fields key)
  | _ => false

/-- `f"snapshot {collection}[{index}]"`. -/
def guardPlace (collection : Str) (index : ℕ) : Str :=
  lit "snapshot " ++ collection ++ cp '[' :: (natText index ++ [cp ']'])

/-- Raise a `ValueError` unless a condition holds. -/
def demand (condition : Bool) (message : Str) : Except Exc Unit :=
  if condition then .ok () else .error (valueError message)

/-- A loop over `enumerate(items)`. -/
def checkEach (check : ℕ → Json ν → Except Exc Unit) : ℕ → List (Json ν) → Except Exc Unit
  | _, [] => .ok ()
  | index, item :: rest => do
    check index item
    checkEach check (index + 1) rest

/-- The owner of a repository, read as a login. -/
def ownerOf : Json ν → Option Str
  | .dict fields => loginOf (getField fields (lit "owner"))
  | _ => none

/-- One turn of the loop over the repositories. -/
def checkRepository (py : PyLib) (accountLogin : Str) (index : ℕ) (repository : Json ν) :
    Except Exc Unit := do
  let context := guardPlace (lit "repositories") index
  demand (isPublic (lit "isPrivate") repository) (context ++ lit " must be public external data")
  match ownerOf repository with
  | none => .error (valueError (context ++ lit " has a malformed owner"))
  | some owner =>
    demand (decide (py.casefold owner ≠ accountLogin)) (context ++ lit " must be external to the account")

/-- A collection, which must be a list, and the loop over it. -/
def checkCollection (validated : List (Str × Json ν)) (collection : Str)
    (check : ℕ → Json ν → Except Exc Unit) : Except Exc Unit :=
  match getField validated collection with
  | .list items => checkEach check 0 items
  | _ => .error (valueError (lit "snapshot " ++ collection ++ lit " must be a list"))

/-- One turn of the loop over the records of a collection. -/
def checkRecord (collection : Str) (index : ℕ) (record : Json ν) : Except Exc Unit :=
  demand (isPublic (lit "is_private") record)
    (guardPlace collection index ++ lit " must be public external data")

/-- `_validate_public_boundary`. -/
def validatePublicBoundary (py : PyLib) (numIsOne : ν → Bool) (snapshot : Json ν) :
    Except Exc (Json ν) :=
  match snapshot with
  | .dict validated => do
    demand (equalsOne numIsOne (getField validated (lit "schema_version")))
      (lit "snapshot has an unsupported schema_version")
    match loginOf (getField validated (lit "account")) with
    | none => .error (valueError (lit "snapshot account is malformed"))
    | some login => do
      checkCollection validated (lit "repositories") (checkRepository py (py.casefold login))
      -- the loop over the two collections of records
      checkCollection validated (lit "issues") (checkRecord (lit "issues"))
      checkCollection validated (lit "pull_requests") (checkRecord (lit "pull_requests"))
      return .dict validated
  | _ => .error (valueError (lit "gh-widgets returned a snapshot object of the wrong type"))

/-! ## The adapter

The vendored module is a parameter, with the two functions that are called. What they raise passes the
adapter as it is.
-/

/-- The functions of the vendored module. -/
structure Vendor (ν : Type) where
  fetchAuthoredSnapshot : Str → Str → Fetched ν
  loadSnapshot : Str → Fetched ν

/-- `_validate_public_boundary` of what the vendor returns; what it raises is passed on. -/
def Fetched.guarded (py : PyLib) (numIsOne : ν → Bool) : Fetched ν → Fetched ν
  | .returned snapshot =>
    match validatePublicBoundary py numIsOne snapshot with
    | .ok validated => .returned validated
    | .error e => .raised e.message
  | fetched => fetched

/-- `load_snapshot_file`. -/
def loadSnapshotFile (py : PyLib) (numIsOne : ν → Bool) (vendor : Vendor ν) (path : Str) : Fetched ν :=
  (vendor.loadSnapshot path).guarded py numIsOne

/-- `fetch_snapshot`; `fixture` is the variable `GHPULSE_TEST_SOURCE_SNAPSHOT`. -/
def fetchSnapshot (py : PyLib) (numIsOne : ν → Bool) (vendor : Vendor ν) (fixture : Option Str)
    (token login : Str) : Fetched ν :=
  let fixture := strip (fixture.getD [])
  if fixture ≠ [] then loadSnapshotFile py numIsOne vendor fixture
  else (vendor.fetchAuthoredSnapshot token login).guarded py numIsOne

/-! ## What the guard demands

`Guarded` says of a part of the guard that it either returns a value with a property or raises
`ValueError`. The rules follow the parts, and the demands add up.
-/

/-- A repository is public and belongs to someone else. -/
def PublicRepository (py : PyLib) (accountLogin : Str) (repository : Json ν) : Prop :=
  isPublic (lit "isPrivate") repository = true ∧
    ∃ owner, ownerOf repository = some owner ∧ py.casefold owner ≠ accountLogin

/-- A collection is a list, and every item of it is of a kind. -/
def Listed (validated : List (Str × Json ν)) (collection : Str) (kind : Json ν → Prop) : Prop :=
  ∃ items, getField validated collection = .list items ∧ ∀ item ∈ items, kind item

/-- The snapshot has only public data in its collections, and no repository of its account. -/
def PublicExternal (py : PyLib) (numIsOne : ν → Bool) (snapshot : Json ν) : Prop :=
  ∃ validated login, snapshot = .dict validated ∧
    equalsOne numIsOne (getField validated (lit "schema_version")) = true ∧
    loginOf (getField validated (lit "account")) = some login ∧
    Listed validated (lit "repositories") (PublicRepository py (py.casefold login)) ∧
    Listed validated (lit "issues") (fun record => isPublic (lit "is_private") record = true) ∧
    Listed validated (lit "pull_requests") fun record => isPublic (lit "is_private") record = true

/-- An error is a `ValueError`. -/
def IsValueError (e : Exc) : Prop := ∃ message, e = valueError message

/-- A part of the guard returns a value with the property, or raises `ValueError`. -/
abbrev Guarded {α : Type} (x : Except Exc α) (Q : α → Prop) : Prop := Passes IsValueError x Q

section Guard

variable {py : PyLib} {numIsOne : ν → Bool}

/-- A `ValueError` is one. -/
theorem isValueError_valueError (message : Str) : IsValueError (valueError message) := ⟨message, rfl⟩

/-- A sequence lets through what its first part does and then its second one. -/
theorem guarded_bind {α β : Type} {x : Except Exc α} {f : α → Except Exc β} {Q : β → Prop} :
    Guarded (x >>= f) Q ↔ Guarded x fun a => Guarded (f a) Q := passes_bind

/-- A demand adds its condition. -/
theorem guarded_demand {condition : Bool} {message : Str} {Q : Unit → Prop} :
    Guarded (demand condition message) Q ↔ (condition = true → Q ()) := by
  unfold demand
  cases condition with
  | true => exact ⟨fun h _ => h, fun h => h rfl⟩
  | false => exact ⟨fun _ h => absurd h Bool.false_ne_true, fun _ => isValueError_valueError _⟩

/-- A part that never returns passes with any property. -/
theorem guarded_refused {α : Type} {P : Prop} {message : Str} {Q : α → Prop} {R : Prop} (hP : ¬P) :
    Guarded (.error (valueError message)) Q ↔ (P → R) :=
  ⟨fun _ h => absurd h hP, fun _ => isValueError_valueError message⟩

/-- A loop of checks demands of every item what the check demands. -/
theorem guarded_checkEach {check : ℕ → Json ν → Except Exc Unit} {P : Json ν → Prop}
    (hcheck : ∀ index item (Q : Unit → Prop), Guarded (check index item) Q ↔ (P item → Q ()))
    (index : ℕ) (items : List (Json ν)) {Q : Unit → Prop} :
    Guarded (checkEach check index items) Q ↔ ((∀ item ∈ items, P item) → Q ()) := by
  induction items generalizing index with
  | nil => exact ⟨fun h _ => h, fun h => h fun _ hitem => absurd hitem List.not_mem_nil⟩
  | cons item rest ih =>
    unfold checkEach
    rw [guarded_bind, hcheck, ih, List.forall_mem_cons, and_imp]

/-- The check of a record demands that it is public. -/
theorem guarded_checkRecord (collection : Str) (index : ℕ) (record : Json ν) (Q : Unit → Prop) :
    Guarded (checkRecord collection index record) Q ↔ (isPublic (lit "is_private") record = true → Q ()) :=
  guarded_demand

/-- The check of a repository demands that it is public and external. -/
theorem guarded_checkRepository {accountLogin : Str} (index : ℕ) (repository : Json ν)
    (Q : Unit → Prop) :
    Guarded (checkRepository py accountLogin index repository) Q ↔
      (PublicRepository py accountLogin repository → Q ()) := by
  unfold checkRepository PublicRepository
  dsimp only
  rw [guarded_bind, guarded_demand, and_imp]
  refine imp_congr_right fun _ => ?_
  cases ownerOf repository with
  | none => exact guarded_refused fun ⟨_, howner, _⟩ => nomatch howner
  | some owner =>
    refine guarded_demand.trans ⟨fun h ⟨_, howner, hexternal⟩ => ?_, fun h hexternal => ?_⟩
    · cases howner
      exact h (decide_eq_true hexternal)
    · exact h ⟨owner, rfl, of_decide_eq_true hexternal⟩

/-- The check of a collection demands an array of such items. -/
theorem guarded_checkCollection {validated : List (Str × Json ν)} {collection : Str}
    {check : ℕ → Json ν → Except Exc Unit} {P : Json ν → Prop}
    (hcheck : ∀ index item (Q : Unit → Prop), Guarded (check index item) Q ↔ (P item → Q ()))
    {Q : Unit → Prop} :
    Guarded (checkCollection validated collection check) Q ↔ (Listed validated collection P → Q ()) := by
  unfold checkCollection Listed
  cases getField validated collection with
  | list items =>
    rw [guarded_checkEach hcheck]
    refine imp_congr_left ⟨fun h => ⟨items, rfl, h⟩, fun ⟨_, hitems, h⟩ => ?_⟩
    cases hitems
    exact h
  | _ => exact guarded_refused fun ⟨_, hitems, _⟩ => nomatch hitems

/-- The guard returns its argument where it is public and external, and raises `ValueError` elsewhere. -/
theorem guarded_validatePublicBoundary {snapshot : Json ν} {Q : Json ν → Prop} :
    Guarded (validatePublicBoundary py numIsOne snapshot) Q ↔
      (PublicExternal py numIsOne snapshot → Q snapshot) := by
  cases snapshot with
  | dict validated =>
    unfold validatePublicBoundary
    dsimp only
    rw [guarded_bind, guarded_demand]
    -- the account decides what the repositories must be external to
    cases hlogin : loginOf (getField validated (lit "account")) with
    | none =>
      refine ⟨fun _ ⟨_, _, hdict, _, hlogin', _⟩ => ?_, fun _ _ => isValueError_valueError _⟩
      cases hdict
      cases hlogin.symm.trans hlogin'
    | some login =>
      dsimp only
      rw [guarded_bind, guarded_checkCollection guarded_checkRepository, guarded_bind,
        guarded_checkCollection (guarded_checkRecord _), guarded_bind,
        guarded_checkCollection (guarded_checkRecord _)]
      constructor
      · rintro h ⟨_, _, hdict, hversion, hlogin', hrepositories, hissues, hpulls⟩
        cases hdict
        cases hlogin.symm.trans hlogin'
        exact h hversion hrepositories hissues hpulls
      · intro h hversion hrepositories hissues hpulls
        exact h ⟨validated, login, rfl, hversion, hlogin, hrepositories, hissues, hpulls⟩
  | _ => exact guarded_refused fun ⟨_, _, hdict, _⟩ => nomatch hdict

/-- What the boundary lets through is public and external, and is not changed. -/
theorem validatePublicBoundary_eq_ok {snapshot validated : Json ν} :
    validatePublicBoundary py numIsOne snapshot = .ok validated ↔
      snapshot = validated ∧ PublicExternal py numIsOne snapshot := by
  have hreturns : Guarded (validatePublicBoundary py numIsOne snapshot)
      fun v => snapshot = v ∧ PublicExternal py numIsOne snapshot :=
    guarded_validatePublicBoundary.mpr fun h => ⟨rfl, h⟩
  constructor
  · intro h
    rwa [h] at hreturns
  · rintro ⟨rfl, hpublic⟩
    -- otherwise the guard would pass with a property that nothing has
    by_contra hne
    have hrefuses : Guarded (validatePublicBoundary py numIsOne snapshot) fun _ => False :=
      hreturns.mono fun v hv h => hne (h.1 ▸ hv)
    exact guarded_validatePublicBoundary.mp hrefuses hpublic

/-- What comes through the guard is what the vendor returned, if it is public and external. -/
theorem guarded_eq_returned {fetched : Fetched ν} {snapshot : Json ν} :
    fetched.guarded py numIsOne = .returned snapshot ↔
      fetched = .returned snapshot ∧ PublicExternal py numIsOne snapshot := by
  cases fetched with
  | returned raw =>
    unfold Fetched.guarded
    dsimp only
    cases hguard : validatePublicBoundary py numIsOne raw with
    | ok validated =>
      obtain ⟨rfl, hpublic⟩ := validatePublicBoundary_eq_ok.mp hguard
      refine ⟨fun h => ?_, fun h => h.1⟩
      cases h
      exact ⟨rfl, hpublic⟩
    | error e =>
      refine ⟨fun h => (nomatch h), fun ⟨hraw, hpublic⟩ => ?_⟩
      cases hraw
      cases hguard.symm.trans (validatePublicBoundary_eq_ok.mpr ⟨rfl, hpublic⟩)
  | sourceError message => exact ⟨fun h => (nomatch h), fun h => (nomatch h.1)⟩
  | raised text => exact ⟨fun h => (nomatch h), fun h => (nomatch h.1)⟩

end Guard

/-! ## The validation behind the guard

Each demand of the guard is among those that validation makes of the same field, up to how the login and
the owner are read.
-/

section Validation

variable {py : PyLib} {numIsOne : ν → Bool} {snapshot : Json ν} {s : Snapshot}

/-- Validation returns only what it reads. -/
theorem read_of_validateSnapshot (h : validateSnapshot py snapshot = .ok s) : Read py snapshot s := by
  have hreturns : Checked (validateSnapshot py snapshot) fun _ => True := by
    rw [h]
    trivial
  have hfits := (checked_validateSnapshot.mp hreturns).1
  have hread : Checked (validateSnapshot py snapshot) (Read py snapshot) :=
    checked_validateSnapshot.mpr ⟨hfits, fun _ hread => hread⟩
  rwa [h] at hread

/-- A field that is there is read. -/
theorem getField_eq {fields : List (Str × Json ν)} {key : Str} {value : Json ν}
    (h : fields.lookup key = some value) : getField fields key = value := by
  unfold getField
  rw [h]
  rfl

/-- The login of an owner is read. -/
theorem loginOf_dict {fields : List (Str × Json ν)} {login : Str}
    (h : fields.lookup (lit "login") = some (.str login)) : loginOf (.dict fields) = some login := by
  unfold loginOf
  dsimp only
  rw [getField_eq h]

/-- A record that says so is public. -/
theorem isPublic_dict {fields : List (Str × Json ν)} {key : Str}
    (h : fields.lookup key = some (.bool false)) : isPublic key (.dict fields) = true := by
  unfold isPublic
  dsimp only
  rw [getField_eq h]
  rfl

/-- What the guard demands of a repository is part of what validation demands. -/
theorem RepositoryOf.publicRepository {accountKey : Str} {raw : Json ν} {r : RepositoryRecord}
    (h : RepositoryOf py accountKey raw r) : PublicRepository py accountKey raw := by
  obtain ⟨fields, owner, rfl, -, -, hprivate, howner, -, hlogin, -, -⟩ := h.fields
  refine ⟨isPublic_dict hprivate, r.ownerLogin, ?_, h.external⟩
  unfold ownerOf
  dsimp only
  rw [getField_eq howner]
  exact loginOf_dict hlogin

/-- An item that validation accepts is public. -/
theorem ItemOf.isPublic_raw {accountKey : Str} {repositories : List RepositoryRecord} {kind : Kind}
    {raw : Json ν} {c : @Common ν} {repo : RepositoryRecord}
    (h : ItemOf py accountKey repositories kind raw c repo) : isPublic (lit "is_private") raw = true := by
  rw [h.raw_eq]
  exact isPublic_dict h.isPrivate

/-- Items with records are all of a kind that every item with a record is of. -/
theorem forall_of_records {α : Type} {record : Json ν → α → Prop} {P : Json ν → Prop}
    (hP : ∀ raw r, record raw r → P raw) {raws : List (Json ν)} {records : List α}
    (h : List.Forall₂ record raws records) : ∀ raw ∈ raws, P raw := by
  induction h with
  | nil => exact fun _ hraw => absurd hraw List.not_mem_nil
  | cons hr _ ih => exact List.forall_mem_cons.mpr ⟨hP _ _ hr, ih⟩

/-- The guard demands nothing that validation does not demand. -/
theorem Read.publicExternal (h : Read py snapshot s) : PublicExternal py numIsOne snapshot := by
  obtain ⟨body, _, repositories, issues, pullRequests, hopened, -, -, hheader, hrepositories, -, hissues, -,
    hpullRequests, -⟩ := h
  obtain ⟨account, haccount, -, hlogin⟩ := hheader.account
  refine ⟨body, s.login, hopened.body_eq, ?_, ?_,
    ⟨repositories, getField_eq hheader.repositories,
      forall_of_records (fun _ _ hr => hr.publicRepository) hrepositories⟩,
    ⟨issues, getField_eq hheader.issues, forall_of_records (fun _ _ hr => ?_) hissues⟩,
    ⟨pullRequests, getField_eq hheader.pullRequests,
      forall_of_records (fun _ _ hr => ?_) hpullRequests⟩⟩
  · rw [getField_eq hopened.version]
    rfl
  · rw [getField_eq haccount]
    exact loginOf_dict hlogin
  · obtain ⟨_, _, _, hitem, -⟩ := hr
    exact hitem.isPublic_raw
  · obtain ⟨_, _, _, hitem, -⟩ := hr
    exact hitem.isPublic_raw

end Validation

/-! ## Runs behind the guard

Where the guard refuses, validation would have refused: the run raises with another error and in an alike
state.
-/

/-- What the vendor answers, without the guard. -/
def Vendor.answer (vendor : Vendor ν) (fixture : Option Str) (token login : Str) : Fetched ν :=
  let fixture := strip (fixture.getD [])
  if fixture ≠ [] then vendor.loadSnapshot fixture else vendor.fetchAuthoredSnapshot token login

section Runs

variable {py : PyLib} {numIsOne : ν → Bool} {vendor : Vendor ν} {fixture : Option Str}

/-- `fetch_snapshot` answers what the source answers, behind the boundary. -/
theorem fetchSnapshot_eq (token login : Str) : fetchSnapshot py numIsOne vendor fixture token login =
    (vendor.answer fixture token login).guarded py numIsOne := by
  unfold fetchSnapshot Vendor.answer loadSnapshotFile
  dsimp only
  split <;> rfl

/-- A run acquires what its source returned. -/
theorem acquire_eq_ok {input : RunInput ν} {token login : Str} {snapshot : Json ν} :
    acquire input token login = .ok snapshot ↔ input.fetch token login = .returned snapshot := by
  unfold acquire
  cases input.fetch token login with
  | returned raw => exact ⟨fun h => congrArg Fetched.returned (Except.ok.inj h), fun h => by cases h; rfl⟩
  | sourceError message => exact ⟨fun h => (nomatch h), fun h => (nomatch h)⟩
  | raised text => exact ⟨fun h => (nomatch h), fun h => (nomatch h)⟩

/-- A run comes by a snapshot that its source returned and validation accepted, for its account. -/
theorem acquireValidated_eq_ok {input : RunInput ν} {s : Snapshot} :
    acquireValidated py input = .ok s ↔ ∃ token login snapshot,
      configuredCredentials input.env = .ok (token, login) ∧
      input.fetch token login = .returned snapshot ∧ validateSnapshot py snapshot = .ok s ∧
      py.casefold s.login = py.casefold login := by
  unfold acquireValidated
  rw [bind_eq_ok]
  constructor
  · rintro ⟨⟨token, login⟩, hcredentials, h⟩
    obtain ⟨snapshot, hsnapshot, h⟩ := bind_eq_ok.mp h
    obtain ⟨s', hvalid, h⟩ := bind_eq_ok.mp h
    obtain ⟨haccount, hs⟩ := ensure_bind_eq_ok.mp h
    cases hs
    exact ⟨token, login, snapshot, hcredentials, acquire_eq_ok.mp hsnapshot, hvalid,
      of_decide_eq_true haccount⟩
  · rintro ⟨token, login, snapshot, hcredentials, hsnapshot, hvalid, haccount⟩
    refine ⟨(token, login), hcredentials, bind_eq_ok.mpr ⟨snapshot, acquire_eq_ok.mpr hsnapshot, ?_⟩⟩
    exact bind_eq_ok.mpr ⟨s, hvalid, ensure_bind_eq_ok.mpr ⟨decide_eq_true haccount, rfl⟩⟩

/-- Behind the guard the same snapshots are validated. -/
theorem acquireValidated_guarded {input : RunInput ν} (s : Snapshot) :
    acquireValidated py { input with fetch := fetchSnapshot py numIsOne vendor fixture } = .ok s ↔
      acquireValidated py { input with fetch := vendor.answer fixture } = .ok s := by
  rw [acquireValidated_eq_ok, acquireValidated_eq_ok]
  refine exists₃_congr fun token login snapshot => and_congr_right fun _ => ?_
  dsimp only
  rw [fetchSnapshot_eq, guarded_eq_returned, and_assoc]
  refine and_congr_right fun _ => ⟨fun h => h.2, fun h => ⟨?_, h⟩⟩
  exact (read_of_validateSnapshot h.1).publicExternal

/-- What a run returns and leaves behind depends on its source through what is validated only. -/
theorem runIngest_returnAlike {input : RunInput ν} {fetch fetch' : Str → Str → Fetched ν}
    (h : ∀ s, acquireValidated py { input with fetch := fetch } = .ok s ↔
      acquireValidated py { input with fetch := fetch' } = .ok s) :
    Prog.ReturnAlike (runIngest py { input with fetch := fetch } : Prog Exc (World κ τ) Outcome)
      (runIngest py { input with fetch := fetch' }) := by
  have hopened (runId : ℤ) : Prog.ReturnAlike
      (runOpened py { input with fetch := fetch } runId : Prog Exc (World κ τ) Outcome)
      (runOpened py { input with fetch := fetch' } runId) :=
    (Prog.ReturnAlike.refl _).bind fun _ => (Prog.returnAlike_ofExcept h).bind fun s => .refl _
  have hguarded : Prog.ReturnAlike
      (guardedRun py { input with fetch := fetch } : Prog Exc (World κ τ) Outcome)
      (guardedRun py { input with fetch := fetch' }) :=
    (Prog.ReturnAlike.refl _).bind fun runId =>
      (hopened runId).tryExcept (fun _ _ _ _ => onFailure_ne_ok) fun _ _ _ _ => onFailure_ne_ok
  unfold runIngest
  refine (Prog.ReturnAlike.refl _).bind fun w => ?_
  split
  · exact .refl _
  · exact (Prog.ReturnAlike.refl _).bind fun _ => hguarded.tryFinally _

/-- The guard is transparent: what comes through it is what the vendor returned, where that is public and
external, and a run behind the guard returns exactly where the run without it does, with the same result
and in the same state. -/
theorem fetchSnapshot_transparent (py : PyLib) (numIsOne : ν → Bool) (vendor : Vendor ν)
    (fixture : Option Str) :
    (∀ token login snapshot,
      fetchSnapshot py numIsOne vendor fixture token login = .returned snapshot ↔
        vendor.answer fixture token login = .returned snapshot ∧ PublicExternal py numIsOne snapshot) ∧
      ∀ (input : RunInput ν) (w w' : World κ τ) (outcome : Outcome),
        runIngest py { input with fetch := fetchSnapshot py numIsOne vendor fixture } w =
            (.ok outcome, w') ↔
          runIngest py { input with fetch := vendor.answer fixture } w = (.ok outcome, w') := by
  refine ⟨fun token login snapshot => ?_, fun input w w' outcome => ?_⟩
  · rw [fetchSnapshot_eq]
    exact guarded_eq_returned
  · exact runIngest_returnAlike acquireValidated_guarded w outcome w'

end Runs

end Ghpulse.Ingest
