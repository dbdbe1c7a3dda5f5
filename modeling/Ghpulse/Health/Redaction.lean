import Ghpulse.Health.Truthful
import Ghpulse.Library.TwoRun

/-!
# Runs that differ in their errors

Two processes are alike when they differ at most in the texts of the errors they have stored, in the
progress, in `sync_state` and in the audit rows. Two runs whose failures carry different exceptions, but
at the same steps, keep them alike after each of their operations, as long as the failures can be
recorded: the text of an error goes into the three places and decides nothing. What a run is configured
with and what its source returns may differ as well where neither run comes by a valid snapshot: a missing
variable, a request that fails, a snapshot that is refused and an account that does not match are one kind
of failure.

Reference: `backend/ingest.py`.
-/

open Python Effect Keyed Interleave Ghpulse.Ingest

namespace Ghpulse.Health

variable {κ ν μ : Type}

/-! ## Alike

The redaction keeps whether there is an error text: `/health` and the overlay test it for being there.
Everything else in a row is public.
-/

/-- An audit row without the text of its error, and whether there is one. -/
def publicRun (r : IngestRun) : IngestRun × Bool := ({ r with error := none }, truthy r.error)

/-- The row of `sync_state` without the text of its error, and whether there is one. -/
def publicState (s : SyncState) : SyncState × Bool :=
  ({ s with lastAttemptError := none }, truthy s.lastAttemptError)

/-- The progress without the text of its error, and whether there is one. -/
def publicProgress (p : Progress) : Progress × Bool := ({ p with lastError := none }, truthy p.lastError)

/-- Databases that differ at most in the texts of errors. -/
structure AlikeDb (db db' : Db) : Prop where
  tables : db'.SameTables db
  runs : db.ingestRuns.rows.map publicRun = db'.ingestRuns.rows.map publicRun
  sync : db.syncState.map publicState = db'.syncState.map publicState

/-- Processes that differ at most in the texts of errors. -/
structure Alike (w w' : World κ ν) : Prop where
  db : AlikeDb w.db w'.db
  nextRunId : w.nextRunId = w'.nextRunId
  runLocked : w.runLocked = w'.runLocked
  progress : publicProgress w.progress = publicProgress w'.progress
  responseCache : w.responseCache = w'.responseCache
  broadcasts : w.broadcasts = w'.broadcasts

/-- Runs that come by the same valid snapshot, or both fail to, for any two reasons, and whose statements
raise at the same points, with any two exceptions. -/
structure AlikeInput (py : PyLib) (input input' : RunInput μ) : Prop where
  trigger : input.trigger = input'.trigger
  clock : input.clock = input'.clock
  acquired : Agrees Eq (acquireValidated py input) (acquireValidated py input')
  faults : ∀ p, (input.faults p).isSome = (input'.faults p).isSome

/-- A database looks like itself. -/
theorem AlikeDb.refl (db : Db) : AlikeDb db db := ⟨⟨rfl, rfl, rfl⟩, rfl, rfl⟩

/-- A process looks like itself. -/
theorem Alike.refl (w : World κ ν) : Alike w w := ⟨.refl w.db, rfl, rfl, rfl, rfl, rfl⟩

/-! ## Statements

Most statements touch neither the audit rows nor `sync_state`. They commute with any replacement of these
(`Unaudited`), and do the same to alike databases for this reason alone.
-/

section Statements

variable {py : PyLib} {input input' : RunInput μ} (hinput : AlikeInput py input input')
include hinput

/-- A statement is executed in both runs, or it raises in both. -/
theorem AlikeInput.execute {α β : Type} {Q : α → β → Prop} (p : Point) {x : Option α} {y : Option β}
    (h : Option.Rel Q x y) : Agrees Q (input.execute p x) (input'.execute p y) := by
  have hfaults := hinput.faults p
  unfold RunInput.execute
  cases hx : input.faults p with
  | some e =>
    rw [hx] at hfaults
    obtain ⟨e', he'⟩ := Option.isSome_iff_exists.mp hfaults.symm
    rw [he']
    exact .error e e'
  | none =>
    rw [hx] at hfaults
    rw [Option.isSome_eq_false_iff.mp hfaults.symm |> Option.isNone_iff_eq_none.mp]
    cases h with
    | none => exact .error _ _
    | some h => exact .ok h

/-- The connection is lost at the same points in both runs. -/
theorem AlikeInput.reach (p : Point) : Agrees Eq (input.reach p) (input'.reach p) :=
  hinput.execute p (.some rfl)

end Statements

/-- A database with other audit rows and another row of `sync_state`. -/
def withAudit (db : Db) (runs : Table runDecl) (sync : Option SyncState) : Db :=
  { db with
    ingestRuns := runs
    syncState := sync }

/-- A statement that neither reads nor writes the audit rows and `sync_state`. -/
def Unaudited {β : Type} (f : Db → Option (Db × β)) : Prop :=
  ∀ db runs sync, f (withAudit db runs sync) = (f db).map fun out => (withAudit out.1 runs sync, out.2)

/-- The upsert of a repository neither reads nor writes what is redacted. -/
theorem unaudited_upsertRepository (r : Repository) :
    Unaudited fun db => db.upsertRepository r := by
  intro db runs sync
  show (withAudit db runs sync).upsertRepository r = (db.upsertRepository r).map _
  unfold Db.upsertRepository
  split
  · next h =>
    split
    · rfl
    · next h' => cases h.symm.trans h'
  · next h =>
    split
    · next h' => cases h.symm.trans h'
    · next h' =>
      cases h.symm.trans h'
      rfl

/-- Nor does that of an issue. -/
theorem unaudited_upsertIssue (r : Issue) : Unaudited fun db => db.upsertIssue r := by
  intro db runs sync
  show (withAudit db runs sync).upsertIssue r = (db.upsertIssue r).map _
  unfold Db.upsertIssue
  split
  · next h =>
    split
    · rfl
    · next h' => cases h.symm.trans h'
  · next h =>
    split
    · next hfk =>
      split
      · next h' => cases h.symm.trans h'
      · next h' =>
        cases h.symm.trans h'
        split
        · rfl
        · next hnot => exact absurd hfk hnot
    · next hfk =>
      split
      · rfl
      · next h' =>
        cases h.symm.trans h'
        split
        · next hfk' => exact absurd hfk' hfk
        · rfl

/-- Nor does that of a pull request. -/
theorem unaudited_upsertPullRequest (r : PullRequest) :
    Unaudited fun db => db.upsertPullRequest r := by
  intro db runs sync
  show (withAudit db runs sync).upsertPullRequest r = (db.upsertPullRequest r).map _
  unfold Db.upsertPullRequest
  split
  · next h =>
    split
    · rfl
    · next h' => cases h.symm.trans h'
  · next h =>
    split
    · next hfk =>
      split
      · next h' => cases h.symm.trans h'
      · next h' =>
        cases h.symm.trans h'
        split
        · rfl
        · next hnot => exact absurd hfk hnot
    · next hfk =>
      split
      · rfl
      · next h' =>
        cases h.symm.trans h'
        split
        · next hfk' => exact absurd hfk' hfk
        · rfl

/-- Nor does the statement that dates the sightings. -/
theorem unaudited_touchRepositories (at' : Instant) (ids : List Str) :
    Unaudited fun db => (db.touchRepositories at' ids).map fun db => (db, ()) := by
  intro db runs sync
  show ((withAudit db runs sync).touchRepositories at' ids).map _ =
    ((db.touchRepositories at' ids).map _).map _
  unfold Db.touchRepositories
  split
  · next h =>
    split
    · rfl
    · next h' => cases h.symm.trans h'
  · next h =>
    split
    · next h' => cases h.symm.trans h'
    · next h' =>
      cases h.symm.trans h'
      rfl

/-- Alike databases differ in the audit rows and in `sync_state` alone. -/
theorem AlikeDb.eq_withAudit {db db' : Db} (h : AlikeDb db db') :
    db' = withAudit db db'.ingestRuns db'.syncState := by
  obtain ⟨hrepositories, hissues, hpullRequests⟩ := h.tables
  cases db
  cases db'
  cases hrepositories
  cases hissues
  cases hpullRequests
  rfl

/-- An unaudited statement does the same to alike databases. -/
theorem Unaudited.alike {β : Type} {f : Db → Option (Db × β)} (hf : Unaudited f) {db db' : Db}
    (h : AlikeDb db db') :
    Option.Rel (fun x y => AlikeDb x.1 y.1 ∧ x.2 = y.2) (f db) (f db') := by
  have hself : f db = (f db).map fun out => (withAudit out.1 db.ingestRuns db.syncState, out.2) :=
    hf db db.ingestRuns db.syncState
  rw [h.eq_withAudit, hf db, hself]
  cases f db with
  | none => exact .none
  | some out => exact .some ⟨⟨⟨rfl, rfl, rfl⟩, h.runs, h.sync⟩, rfl⟩

/-! ## The audit rows

An update of a row finds it by its id, which is public, and either adds the same counts in both databases
or an error in both.
-/

/-- Rows that differ at most in their errors are changed alike. -/
theorem map_publicRun_congr {f f' : IngestRun → IngestRun}
    (hf : ∀ r r', publicRun r = publicRun r' → publicRun (f r) = publicRun (f' r'))
    {rows rows' : List IngestRun} (h : rows.map publicRun = rows'.map publicRun) :
    (rows.map f).map publicRun = (rows'.map f').map publicRun := by
  induction rows generalizing rows' with
  | nil =>
    obtain rfl : rows' = [] := List.map_eq_nil_iff.mp h.symm
    rfl
  | cons r rows ih =>
    cases rows' with
    | nil => cases h
    | cons r' rows' =>
      obtain ⟨hr, hrows⟩ := List.cons.inj h
      rw [List.map_cons, List.map_cons, List.map_cons, List.map_cons, hf r r' hr, ih hrows]

/-- The public part of an audit row has its number. -/
theorem id_of_publicRun {r r' : IngestRun} (h : publicRun r = publicRun r') : r.id = r'.id :=
  congrArg (fun out => out.1.id) h

/-- Databases that look alike have the same numbers of runs. -/
theorem AlikeDb.ids {db db' : Db} (h : AlikeDb db db') :
    db.ingestRuns.rows.map IngestRun.id = db'.ingestRuns.rows.map IngestRun.id := by
  have hids := congrArg (List.map fun out : IngestRun × Bool => out.1.id) h.runs
  rwa [List.map_map, List.map_map] at hids

/-- The audit rows are replaced in both databases, or in neither. -/
theorem AlikeDb.setRuns {db db' : Db} (h : AlikeDb db db') {x y : Option (Table runDecl)}
    (hsome : x.isSome = true ↔ y.isSome = true)
    (hrows : ∀ t t', x = some t → y = some t' → t.rows.map publicRun = t'.rows.map publicRun) :
    Option.Rel AlikeDb (x.map fun t => { db with ingestRuns := t })
      (y.map fun t => { db' with ingestRuns := t }) := by
  cases x with
  | none =>
    cases y with
    | none => exact .none
    | some t' => exact absurd (hsome.mpr rfl) Bool.false_ne_true
  | some t =>
    cases y with
    | none => exact absurd (hsome.mp rfl) Bool.false_ne_true
    | some t' =>
      obtain ⟨hrepositories, hissues, hpullRequests⟩ := h.tables
      exact .some ⟨⟨hrepositories, hissues, hpullRequests⟩, hrows t t' rfl rfl, h.sync⟩

/-- Inserting the same audit row keeps two databases alike, and fails in both or in neither. -/
theorem AlikeDb.insertRun {db db' : Db} (h : AlikeDb db db') (id : ℤ) (trigger : Str)
    (startedAt : Instant) :
    Option.Rel AlikeDb (db.insertRun id trigger startedAt) (db'.insertRun id trigger startedAt) := by
  have hfresh (db : Db) : (∀ r ∈ db.ingestRuns.rows, runDecl.key r ≠ id) ↔
      id ∉ db.ingestRuns.rows.map IngestRun.id := by
    rw [List.mem_map, not_exists]
    exact forall_congr' fun r => not_and.symm
  refine h.setRuns ?_ fun t t' ht ht' => ?_
  · rw [Table.insert_isSome, Table.insert_isSome]
    exact and_congr_right fun _ => (hfresh db).trans (h.ids ▸ (hfresh db').symm)
  · rw [Table.rows_insert ht, Table.rows_insert ht', List.map_append, List.map_append, h.runs]

/-- The row of a run is updated in both databases, or refused in both. -/
theorem AlikeDb.updateRun {db db' : Db} (h : AlikeDb db db') (id : ℤ) (summary : Summary) :
    Option.Rel AlikeDb (db.updateRun id (committedRun summary) fun _ => rfl)
      (db'.updateRun id (committedRun summary) fun _ => rfl) := by
  have hfound (db : Db) : (db.ingestRuns.find id).isSome = true ↔
      id ∈ db.ingestRuns.rows.map IngestRun.id := by
    rw [Table.find, List.find?_isSome, List.mem_map]
    exact exists_congr fun r => and_congr_right fun _ => decide_eq_true_iff
  have hsome : (db.updateRun id (committedRun summary) fun _ => rfl).isSome = true ↔
      (db'.updateRun id (committedRun summary) fun _ => rfl).isSome = true := by
    rw [updateRun_isSome, updateRun_isSome, hfound, hfound, h.ids]
  unfold Db.updateRun at hsome ⊢
  rw [Option.isSome_map, Option.isSome_map] at hsome
  refine h.setRuns hsome fun t t' ht ht' => ?_
  rw [Table.rows_update ht, Table.rows_update ht']
  refine map_publicRun_congr (fun r r' hr => ?_) h.runs
  have hid : runDecl.key r = runDecl.key r' := id_of_publicRun hr
  have hrow : { r with error := none } = { r' with error := none } := congrArg Prod.fst hr
  unfold Table.setAt
  rw [hid]
  split_ifs
  · have hcommitted := congrArg (fun row => publicRun (committedRun summary row)) hrow
    exact hcommitted
  · exact hr

/-- The marker of a commit is the same in both. -/
theorem AlikeDb.setSyncState {db db' : Db} (h : AlikeDb db db') (s : SyncState) :
    Option.Rel AlikeDb (db.setSyncState s) (db'.setSyncState s) := by
  unfold Db.setSyncState
  split_ifs
  · obtain ⟨hrepositories, hissues, hpullRequests⟩ := h.tables
    exact .some ⟨⟨hrepositories, hissues, hpullRequests⟩, h.runs, rfl⟩
  · exact .none

/-! ## The transaction

The loops over the records in both runs. They have the same records, because alike runs come by the same
snapshot.
-/

/-- What the two runs carry along: alike databases, and equal counts. -/
def AlikeOut {β : Type} (x y : Db × β) : Prop := AlikeDb x.1 y.1 ∧ x.2 = y.2

/-- A statement that leaves the redacted columns alone agrees on databases that look alike. -/
theorem AlikeInput.unaudited {β : Type} {py : PyLib} {input input' : RunInput μ}
    (hinput : AlikeInput py input input') {f : Db → Option (Db × β)} (hf : Unaudited f) {db db' : Db}
    (h : AlikeDb db db') (p : Point) :
    Agrees AlikeOut (input.execute p (f db)) (input'.execute p (f db')) :=
  hinput.execute p (hf.alike h)

/-- Loops of statements that agree agree. -/
theorem upsertAll_agrees {α : Type} {exec exec' : ℕ → α → Db → Except Exc (Db × Bool)}
    (hexec : ∀ i a db db', AlikeDb db db' → Agrees AlikeOut (exec i a db) (exec' i a db'))
    {i : ℕ} {as : List α} {db db' : Db} (h : AlikeDb db db') :
    Agrees AlikeOut (upsertAll exec i as db) (upsertAll exec' i as db') := by
  induction as generalizing i db db' with
  | nil => exact .ok ⟨h, rfl⟩
  | cons a as ih =>
    have ha := hexec i a db db' h
    unfold upsertAll
    generalize exec i a db = x at ha ⊢
    generalize exec' i a db' = y at ha ⊢
    cases ha with
    | error e e' => exact .error e e'
    | @ok out out' hout =>
      obtain ⟨db₁, changed⟩ := out
      obtain ⟨db₁', changed'⟩ := out'
      obtain ⟨hdb₁, hchanged⟩ := hout
      obtain rfl : changed = changed' := hchanged
      have hrest : Agrees AlikeOut (upsertAll exec (i + 1) as db₁) (upsertAll exec' (i + 1) as db₁') :=
        ih hdb₁
      dsimp only
      generalize upsertAll exec (i + 1) as db₁ = x at hrest ⊢
      generalize upsertAll exec' (i + 1) as db₁' = y at hrest ⊢
      cases hrest with
      | error e e' => exact .error e e'
      | ok hout => exact .ok ⟨hout.1, congrArg (· + changed.toNat) hout.2⟩

section Transaction

variable {py : PyLib} {input input' : RunInput μ} (hinput : AlikeInput py input input') {db db' : Db}
  (h : AlikeDb db db')
include hinput h

/-- The loop over the repositories agrees on both sides. -/
theorem upsertRepositories_agrees (repositories : List RepositoryRecord) (observedAt : Instant) :
    Agrees AlikeOut (upsertRepositories input repositories observedAt db)
      (upsertRepositories input' repositories observedAt db') :=
  upsertAll_agrees (fun _ r _ _ h =>
    hinput.unaudited (unaudited_upsertRepository (r.row observedAt observedAt)) h _) h

/-- So does the loop over the issues. -/
theorem upsertIssues_agrees (issues : List IssueRecord) :
    Agrees AlikeOut (upsertIssues input issues db) (upsertIssues input' issues db') := by
  have hrow (r : IssueRecord) : Unaudited fun db => r.row.bind db.upsertIssue := by
    cases r.row with
    | none => exact fun _ _ _ => rfl
    | some row => exact unaudited_upsertIssue row
  exact upsertAll_agrees (fun i r _ _ h => hinput.unaudited (hrow r) h (.upsertIssue i)) h

/-- And the loop over the pull requests. -/
theorem upsertPullRequests_agrees (pullRequests : List PullRequestRecord) :
    Agrees AlikeOut (upsertPullRequests input pullRequests db)
      (upsertPullRequests input' pullRequests db') := by
  have hrow (r : PullRequestRecord) : Unaudited fun db => r.row.bind db.upsertPullRequest := by
    cases r.row with
    | none => exact fun _ _ _ => rfl
    | some row => exact unaudited_upsertPullRequest row
  exact upsertAll_agrees (fun i r _ _ h => hinput.unaudited (hrow r) h (.upsertPullRequest i)) h

/-- The sightings are dated on both sides or on neither. -/
theorem touchRepositories_agrees (at' : Instant) (ids : List Str) (p : Point) :
    Agrees AlikeDb (input.execute p (db.touchRepositories at' ids))
      (input'.execute p (db'.touchRepositories at' ids)) := by
  apply hinput.execute
  have hrel := (unaudited_touchRepositories at' ids).alike h
  generalize db.touchRepositories at' ids = x at hrel ⊢
  generalize db'.touchRepositories at' ids = y at hrel ⊢
  cases x <;> cases y <;> cases hrel
  · exact .none
  · next hout => exact .some hout.1

end Transaction

/-! ## The run

The programs are unfolded once, in the order of the source, and each operation is passed over by a rule.
-/

/-- A change of the progress that does not touch the error. -/
theorem publicProgress_congr {f : Progress → Progress}
    (hf : ∀ p error, f { p with lastError := error } = { f p with lastError := error }) {p p' : Progress}
    (h : publicProgress p = publicProgress p') : publicProgress (f p) = publicProgress (f p') := by
  have hnone : { p with lastError := none } = { p' with lastError := none } := congrArg Prod.fst h
  have hkeep (p : Progress) : (f p).lastError = p.lastError := by
    have hp : f p = { f p with lastError := p.lastError } := hf p p.lastError
    have herror := congrArg Progress.lastError hp
    exact herror
  unfold publicProgress
  rw [hkeep, hkeep, ← hf, ← hf, hnone]
  exact congrArg (Prod.mk _) (congrArg Prod.snd h)

/-- Progress that looks alike after an update was updated alike. -/
theorem related_setProgress {f g : Progress → Progress}
    (h : ∀ p p', publicProgress p = publicProgress p' → publicProgress (f p) = publicProgress (g p')) :
    Related (Alike : World κ ν → World κ ν → Prop) Eq (Stepwise.setProgress f)
      (Stepwise.setProgress g) :=
  .modify fun _ _ hw =>
    ⟨hw.db, hw.nextRunId, hw.runLocked, h _ _ hw.progress, hw.responseCache, hw.broadcasts⟩

/-- A change of the progress that does not touch the error, in both. -/
theorem related_progress {f : Progress → Progress}
    (hf : ∀ p error, f { p with lastError := error } = { f p with lastError := error }) :
    Related (Alike : World κ ν → World κ ν → Prop) Eq (Stepwise.setProgress f)
      (Stepwise.setProgress f) := related_setProgress fun _ _ => publicProgress_congr hf

section Run

variable {py : PyLib} {input input' : RunInput μ} (hinput : AlikeInput py input input')
include hinput

/-- The statements on the tables keep two processes alike. -/
theorem related_replaceTables (s : Snapshot) {db db' : Db} (h : AlikeDb db db') :
    Related (Alike : World κ ν → World κ ν → Prop) AlikeOut (Stepwise.replaceTables input s db)
      (Stepwise.replaceTables input' s db') := by
  unfold Stepwise.replaceTables
  rw [hinput.clock]
  refine (Related.ofExcept (upsertRepositories_agrees hinput h s.repositories _)).bind ?_
  rintro ⟨db₁, n₁⟩ ⟨db₁', n₁'⟩ ⟨h₁, hn₁⟩
  obtain rfl : n₁ = n₁' := hn₁
  -- the counts are equal on both sides, so the progress is
  refine (related_progress fun _ _ => rfl).bind_eq fun _ => ?_
  refine (Related.ofExcept (upsertIssues_agrees hinput h₁ s.issues)).bind ?_
  rintro ⟨db₂, n₂⟩ ⟨db₂', n₂'⟩ ⟨h₂, hn₂⟩
  obtain rfl : n₂ = n₂' := hn₂
  refine (related_progress fun _ _ => rfl).bind_eq fun _ => ?_
  refine (Related.ofExcept (upsertPullRequests_agrees hinput h₂ s.pullRequests)).bind ?_
  rintro ⟨db₃, n₃⟩ ⟨db₃', n₃'⟩ ⟨h₃, hn₃⟩
  obtain rfl : n₃ = n₃' := hn₃
  refine (related_progress fun _ _ => rfl).bind_eq fun _ => ?_
  refine (Related.ofExcept (touchRepositories_agrees hinput h₃ _ _ _)).bind fun db₄ db₄' h₄ => ?_
  refine (Related.ofExcept (hinput.unaudited (f := fun db => some (db.deleteIssues _))
    (fun _ _ _ => rfl) h₄ _)).bind ?_
  rintro ⟨db₅, n₅⟩ ⟨db₅', n₅'⟩ ⟨h₅, hn₅⟩
  obtain rfl : n₅ = n₅' := hn₅
  refine (Related.ofExcept (hinput.unaudited (f := fun db => some (db.deletePullRequests _))
    (fun _ _ _ => rfl) h₅ _)).bind ?_
  rintro ⟨db₆, n₆⟩ ⟨db₆', n₆'⟩ ⟨h₆, hn₆⟩
  obtain rfl : n₆ = n₆' := hn₆
  refine (Related.ofExcept (hinput.unaudited (f := fun db => some (db.deleteRepositories _))
    (fun _ _ _ => rfl) h₆ _)).bind ?_
  rintro ⟨db₇, n₇⟩ ⟨db₇', n₇'⟩ ⟨h₇, hn₇⟩
  obtain rfl : n₇ = n₇' := hn₇
  exact .pure ⟨h₇, rfl⟩

/-- So does the body of the transaction. -/
theorem related_applySnapshot (runId : ℤ) (startedAt : Instant) (s : Snapshot) {db db' : Db}
    (h : AlikeDb db db') :
    Related (Alike : World κ ν → World κ ν → Prop) AlikeOut
      (Stepwise.applySnapshot input runId startedAt s db)
      (Stepwise.applySnapshot input' runId startedAt s db') := by
  unfold Stepwise.applySnapshot
  rw [hinput.clock]
  refine (related_replaceTables hinput s h).bind ?_
  rintro ⟨db₁, upserted, deleted⟩ ⟨db₁', counts⟩ ⟨h₁, hcounts⟩
  obtain rfl : (upserted, deleted) = counts := hcounts
  refine (Related.ofExcept (hinput.execute _ (h₁.setSyncState _))).bind fun db₂ db₂' h₂ => ?_
  refine (Related.ofExcept (hinput.execute _ (h₂.updateRun runId _))).bind fun db₃ db₃' h₃ => ?_
  refine (Related.ofExcept (hinput.reach _)).bind_eq fun _ => ?_
  exact .pure ⟨h₃, rfl⟩

/-- And the whole commit. -/
theorem related_commitSnapshot (runId : ℤ) (startedAt : Instant) (s : Snapshot) :
    Related (Alike : World κ ν → World κ ν → Prop) Eq
      (Stepwise.commitSnapshot input runId startedAt s)
      (Stepwise.commitSnapshot input' runId startedAt s) := by
  unfold Stepwise.commitSnapshot
  refine (related_progress fun _ _ => rfl).bind_eq fun _ => ?_
  refine (Related.ofExcept (hinput.reach _)).bind_eq fun _ => ?_
  refine (Related.read fun _ _ hw => hw).bind fun w w' (hw : Alike w w') => ?_
  refine Related.bind (Q := AlikeOut) ?_ ?_
  · refine (related_applySnapshot hinput runId startedAt s hw.db).tryExcept fun e e' => ?_
    exact (Related.ofExcept (hinput.reach _)).bind_eq fun _ => .raise e e'
  · rintro ⟨db, summary⟩ ⟨db', summary'⟩ ⟨hdb, hsummary⟩
    obtain rfl : summary = summary' := hsummary
    refine Related.bind_eq (.modify fun _ _ hw => ?_) fun _ => .pure rfl
    exact ⟨hdb, hw.nextRunId, hw.runLocked, hw.progress, hw.responseCache, hw.broadcasts⟩

omit hinput in
/-- The announcement of a commit keeps two processes alike. -/
theorem related_postCommit (summary : Summary) :
    Related (Alike : World κ ν → World κ ν → Prop) Eq (Stepwise.postCommit summary)
      (Stepwise.postCommit summary) := by
  unfold Stepwise.postCommit
  refine Related.bind_eq (.modify fun _ _ hw => ?_) fun _ => .modify fun _ _ hw => ?_
  · exact ⟨hw.db, hw.nextRunId, hw.runLocked, hw.progress,
      congrArg Cache.TTLCache.invalidate hw.responseCache, hw.broadcasts⟩
  · exact ⟨hw.db, hw.nextRunId, hw.runLocked, hw.progress, hw.responseCache,
      congrArg (· ++ [.ingestDone summary]) hw.broadcasts⟩

/-- A run after its audit row keeps two processes alike, whatever its snapshot was refused for. -/
theorem related_runOpened (runId : ℤ) :
    Related (Alike : World κ ν → World κ ν → Prop) Eq (Stepwise.runOpened py input runId)
      (Stepwise.runOpened py input' runId) := by
  unfold Stepwise.runOpened
  rw [hinput.clock, hinput.trigger]
  refine (related_progress fun _ _ => rfl).bind_eq fun _ => ?_
  refine (Related.ofExcept hinput.acquired).bind_eq fun s => ?_
  refine (related_progress fun _ _ => rfl).bind_eq fun _ => ?_
  refine (related_commitSnapshot hinput runId _ s).bind_eq fun summary => ?_
  exact (related_postCommit _).bind_eq fun _ => .pure rfl

/-- Both runs open their audit row with the same id, or raise. -/
theorem related_openRun :
    Related (Alike : World κ ν → World κ ν → Prop) Eq (.atomic (openRun input))
      (.atomic (openRun input')) := by
  refine .atomic fun w w' hw => ?_
  have hconnect := hinput.reach .openConnect
  have hinsert := hinput.execute .openInsert
    (hw.db.insertRun w.nextRunId input.trigger input.clock.startedAt)
  have hcommit := hinput.reach .openCommit
  simp only [openRun, Bind.bind, Prog.ofExcept, Prog.get, Prog.modify]
  rw [← hinput.trigger, ← hinput.clock]
  generalize input.reach .openConnect = x at hconnect ⊢
  generalize input'.reach .openConnect = y at hconnect ⊢
  cases hconnect with
  | error e e' => exact ⟨.error e e', hw⟩
  | ok _ =>
    dsimp only
    rw [← hw.nextRunId]
    generalize input.execute .openInsert _ = x at hinsert ⊢
    generalize input'.execute .openInsert _ = y at hinsert ⊢
    cases hinsert with
    | error e e' =>
      exact ⟨.error e e', hw.db, rfl, hw.runLocked, hw.progress, hw.responseCache, hw.broadcasts⟩
    | ok hdb =>
      generalize input.reach .openCommit = x at hcommit ⊢
      generalize input'.reach .openCommit = y at hcommit ⊢
      cases hcommit with
      | error e e' =>
        exact ⟨.error e e', hw.db, rfl, hw.runLocked, hw.progress, hw.responseCache, hw.broadcasts⟩
      | ok _ =>
        exact ⟨.ok rfl, hdb, rfl, hw.runLocked, hw.progress, hw.responseCache, hw.broadcasts⟩

/-! ## The record of a failure

The only statements that write a text of an error. The text goes into a column that is redacted, on both
sides.
-/

omit hinput in
/-- A text that is there stays there under any other, so a failed row is alike for every error. -/
theorem publicRun_failedRow {runId : Option ℤ} (finishedAt : Instant) (e e' : Exc) {r r' : IngestRun}
    (h : publicRun r = publicRun r') :
    publicRun (failedRow runId finishedAt e.text r) =
      publicRun (failedRow runId finishedAt e'.text r') := by
  have hrow : { r with error := none } = { r' with error := none } := congrArg Prod.fst h
  unfold failedRow
  rw [id_of_publicRun h]
  split_ifs
  · have hfailed : ({ failedRun finishedAt e.text r with error := none } : IngestRun) =
        { failedRun finishedAt e'.text r' with error := none } :=
      congrArg (fun row : IngestRun => { row with finishedAt := some finishedAt }) hrow
    exact Prod.ext hfailed ((truthy_errorText (.error e)).trans (truthy_errorText (.error e')).symm)
  · exact h

omit hinput in
/-- Two failures look alike in `sync_state`. -/
theorem publicState_failedState {old old' : Option SyncState}
    (h : old.map publicState = old'.map publicState) (finishedAt : Instant) (e e' : Exc) :
    publicState (failedState old finishedAt e.text) =
      publicState (failedState old' finishedAt e'.text) := by
  have hold : failedState old finishedAt [] = failedState old' finishedAt [] := by
    cases old with
    | none =>
      cases old' with
      | none => rfl
      | some _ => cases h
    | some s =>
      cases old' with
      | none => cases h
      | some s' =>
        have hs : { s with lastAttemptError := none } = { s' with lastAttemptError := none } :=
          congrArg Prod.fst (Option.some.inj h)
        have hfailed := congrArg (fun s => failedState (some s) finishedAt []) hs
        exact hfailed
  have hstate := congrArg (fun s : SyncState => { s with lastAttemptError := none }) hold
  exact Prod.ext hstate ((truthy_errorText (.error e)).trans (truthy_errorText (.error e')).symm)

/-- Failures that are both recorded leave alike databases. -/
theorem alike_recordFailure {runId : Option ℤ} {e e' : Exc} {db db' db₁ db₁' : Db}
    (h : AlikeDb db db') (hrecord : recordFailure input runId e.text db = .ok db₁)
    (hrecord' : recordFailure input' runId e'.text db' = .ok db₁') : AlikeDb db₁ db₁' := by
  have hleft := recorded_of_recordFailure hrecord
  have hright := recorded_of_recordFailure hrecord'
  refine ⟨?_, ?_, ?_⟩
  · exact ⟨hright.tables.1.trans (h.tables.1.trans hleft.tables.1.symm),
      hright.tables.2.trans (h.tables.2.trans hleft.tables.2.symm),
      hright.tables.3.trans (h.tables.3.trans hleft.tables.3.symm)⟩
  · rw [rows_of_recordFailure hrecord, rows_of_recordFailure hrecord', hinput.clock]
    exact map_publicRun_congr (fun _ _ => publicRun_failedRow _ e e') h.runs
  · rw [hleft.syncState, hright.syncState, hinput.clock]
    exact congrArg some (publicState_failedState h.sync _ e e')

/-- The handler leaves alike processes, whatever the two exceptions are. -/
theorem related_onFailure {α : Type} {Q : α → α → Prop} (runId : Option ℤ) (e e' : Exc) :
    Related (Alike : World κ ν → World κ ν → Prop) Q (Stepwise.onFailure input runId e)
      (Stepwise.onFailure input' runId e') := by
  unfold Stepwise.onFailure
  refine Related.bind_eq (.attempt fun w w' hw hok hok' => ?_) fun _ => ?_
  · cases hrecord : recordFailure input runId e.text w.db with
    | error _ =>
      rw [hrecord] at hok
      cases hok
    | ok db =>
      cases hrecord' : recordFailure input' runId e'.text w'.db with
      | error _ =>
        rw [hrecord'] at hok'
        cases hok'
      | ok db' =>
        exact ⟨alike_recordFailure hinput hw.db hrecord hrecord', hw.nextRunId, hw.runLocked,
          hw.progress, hw.responseCache, hw.broadcasts⟩
  refine Related.bind_eq (.modify fun w w' hw => ?_) fun _ => ?_
  · have hpayload : failurePayload input = failurePayload input' := by
      unfold failurePayload
      rw [hinput.trigger, hinput.clock]
    refine ⟨hw.db, hw.nextRunId, hw.runLocked, hw.progress, hw.responseCache, ?_⟩
    show w.broadcasts ++ [.ingestFailed (failurePayload input)] =
      w'.broadcasts ++ [.ingestFailed (failurePayload input')]
    rw [hw.broadcasts, hpayload]
  refine Related.bind_eq (related_setProgress fun _ _ _ => ?_) fun _ => .raise e e'
  have htruthy : truthy (some e.text) = truthy (some e'.text) :=
    (truthy_errorText (.error e)).trans (truthy_errorText (.error e')).symm
  exact Prod.ext rfl htruthy

/-! ## The whole run

A run returns in both processes or raises in both, and in any case leaves them alike.
-/

/-- A run keeps two processes alike, whether it returns or raises. -/
theorem related_guardedRun :
    Related (Alike : World κ ν → World κ ν → Prop) Eq (Stepwise.guardedRun py input)
      (Stepwise.guardedRun py input') := by
  unfold Stepwise.guardedRun
  refine Related.bind_eq ?_ fun runId => ?_
  · exact (related_openRun hinput).tryExcept (related_onFailure hinput none)
  · exact (related_runOpened hinput runId).tryExcept (related_onFailure hinput (some runId))

/-- Runs that fail at the same steps, whatever they fail with, look alike. -/
theorem related_runIngest :
    Related (Alike : World κ ν → World κ ν → Prop) Eq (Stepwise.runIngest py input)
      (Stepwise.runIngest py input') := by
  unfold Stepwise.runIngest
  refine Related.tryLock (fun _ _ hw => hw.runLocked) (fun w w' hw => ?_)
    (congrArg Outcome.skipped hinput.trigger) ?_
  · exact ⟨hw.db, hw.nextRunId, rfl, hw.progress, hw.responseCache, hw.broadcasts⟩
  unfold Stepwise.lockedRun
  refine Related.tryFinally (fun f hf w w' hw => ?_) ?_
  · rcases List.mem_append.mp hf with hf | hf
    · obtain rfl := List.mem_singleton.mp hf
      have hphase : w.progress.phase = w'.progress.phase :=
        congrArg (fun out => out.1.phase) hw.progress
      unfold settle
      rw [hphase]
      split_ifs
      · exact hw
      · exact ⟨hw.db, hw.nextRunId, hw.runLocked, rfl, hw.responseCache, hw.broadcasts⟩
    · obtain rfl := List.mem_singleton.mp hf
      exact ⟨hw.db, hw.nextRunId, rfl, hw.progress, hw.responseCache, hw.broadcasts⟩
  · rw [hinput.clock]
    exact (related_setProgress fun _ _ _ => rfl).bind_eq fun _ => related_guardedRun hinput

end Run

end Ghpulse.Health
