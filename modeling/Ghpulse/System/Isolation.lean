import Ghpulse.Dashboard.Readout
import Ghpulse.Health.Truthful
import Ghpulse.Ingest.History
import Ghpulse.Ingest.Stepwise
import Ghpulse.Library.Throughout

/-!
# Snapshot isolation

Readers of the database never see an ingest run in progress. Whatever interleaving the calls of
`run_ingest` take, and whatever fails in them, at every moment, also in the middle of a run, the three
tables are those of one snapshot that `_validate_snapshot` returned, and `sync_state` dates the same one;
before the first commit there is nothing. A dashboard that is built at that moment therefore reports this
snapshot (`dashboard_isolated`), and the order in which its rows are stored does not show
(`dashboard_independent`).

`Holds` is the invariant. A transaction changes nothing that others see before its commit, so of all the
operations of a run only the commit has to be argued; `Program.Throughout` takes the others.

References: `backend/ingest.py`, `backend/api_dashboard.py`.
-/

open Python Effect Keyed Interleave Ghpulse.Ingest Ghpulse.Dashboard

namespace Ghpulse.System

variable {κ ν : Type} {py : PyLib}

/-! ## The invariant

Two cases, since before the first commit there is no snapshot. A snapshot is named by the document that it
comes from, so that nothing has to be assumed about it.
-/

/-- What the database holds: before the first commit nothing, and from then on a snapshot that
`_validate_snapshot` returned, whose source time is that of `sync_state`. -/
inductive Holds (ν : Type) (py : PyLib) (db : Db) : Content → Prop where
  | nothing (hempty : db.SameTables .empty)
      (hundated : db.syncState.bind SyncState.lastSourceSnapshotAt = none) : Holds ν py db ⟨[], [], []⟩
  | snapshot (raw : Json ν) {s : Snapshot} (hvalid : validateSnapshot py raw = .ok s)
      (hstate : db.currentState = s.currentState)
      (hdated : db.syncState.bind SyncState.lastSourceSnapshotAt = some s.sourceAt) :
      Holds ν py db (snapshotContent s)

/-- The database holds one snapshot, or nothing yet. -/
def Isolated (py : PyLib) (w : World κ ν) : Prop := ∃ content, Holds ν py w.db content

/-- What a database holds depends on its tables and on the dated snapshot alone. -/
theorem Holds.of_same {db db' : Db} {content : Content} (h : Holds ν py db content)
    (htables : db'.SameTables db)
    (hsync : db'.syncState.bind SyncState.lastSourceSnapshotAt =
      db.syncState.bind SyncState.lastSourceSnapshotAt) : Holds ν py db' content := by
  cases h with
  | nothing hempty hundated =>
    exact .nothing
      ⟨htables.repositories.trans hempty.repositories, htables.issues.trans hempty.issues,
        htables.pullRequests.trans hempty.pullRequests⟩
      (hsync.trans hundated)
  | snapshot raw hvalid hstate hdated =>
    exact .snapshot raw hvalid (htables.currentState_eq.trans hstate) (hsync.trans hdated)

/-- So does the invariant. -/
theorem Isolated.of_same {w w' : World κ ν} (h : Isolated py w) (htables : w'.db.SameTables w.db)
    (hsync : w'.db.syncState.bind SyncState.lastSourceSnapshotAt =
      w.db.syncState.bind SyncState.lastSourceSnapshotAt) : Isolated py w' :=
  let ⟨content, hholds⟩ := h
  ⟨content, hholds.of_same htables hsync⟩

/-- The rows of the tables are what the database holds, in the order in which they are stored. -/
theorem Holds.same {db : Db} {content : Content} (h : Holds ν py db content) :
    (contentOf db).Same content := by
  cases h with
  | nothing hempty hundated =>
    have hcontent : contentOf db = ⟨[], [], []⟩ := by
      rw [contentOf, hempty.repositories, hempty.issues, hempty.pullRequests]
      rfl
    rw [hcontent]
    exact ⟨.refl _, .refl _, .refl _⟩
  | snapshot raw hvalid hstate hdated => exact same_of_shows (accepted_of_validateSnapshot hvalid) hstate

/-! ## Every moment of a run

One lemma for each part of a run, from the statements outwards. All of them but the commit follow from the
frame rule: what they change is nothing that the invariant speaks of.
-/

/-- The state to commit is that of the snapshot. -/
theorem holds_of_applySnapshot {raw : Json ν} {s : Snapshot} (hvalid : validateSnapshot py raw = .ok s)
    {input : RunInput ν} {runId : ℤ} {startedAt : Instant} {db db' : Db} {summary : Summary}
    {w w' : World κ ν}
    (happly : Ingest.applySnapshot input runId startedAt s db w = (.ok (db', summary), w')) :
    Holds ν py db' (snapshotContent s) := by
  have hs := accepted_of_validateSnapshot hvalid
  -- three steps: the tables are replaced, `sync_state` is written, the audit row is finished
  obtain ⟨db₁, db₂, upserted, deleted, hreplace, hstate, rfl, hrun⟩ := of_applySnapshot happly
  obtain ⟨-, hsame, -, hsync⟩ := of_setSyncState hstate
  obtain ⟨-, hsame', hsync'⟩ := of_updateRun hrun
  have hreplaced := ((replaceTables_spec hs hreplace).of_sameTables hsame).of_sameTables hsame'
  refine .snapshot raw hvalid hreplaced.currentState_eq ?_
  rw [hsync', hsync]
  rfl

/-- Opening the audit row changes neither, whether it returns or raises. -/
theorem isolated_openRun {input : RunInput ν} {w : World κ ν} (h : Isolated py w) :
    Isolated py (openRun input w).2 := by
  rcases openRun_sequence (show openRun input w = ((openRun input w).1, (openRun input w).2) from rfl)
    with ⟨hdb, -⟩ | ⟨hinsert, -⟩
  · exact h.of_same (hdb ▸ ⟨rfl, rfl, rfl⟩)
      (congrArg (fun db => db.syncState.bind SyncState.lastSourceSnapshotAt) hdb)
  · obtain ⟨htables, hsync⟩ := of_insertRun hinsert
    exact h.of_same htables (congrArg (Option.bind · _) hsync)

/-- An attempt to record a failure changes neither. -/
theorem isolated_finishFailedRun {input : RunInput ν} {w : World κ ν} (h : Isolated py w)
    (runId : Option ℤ) (error : Str) :
    Isolated py (finishFailedRun input runId error w).2 := by
  have hdb : (finishFailedRun input runId error w).2.db = recordedDb input runId error w.db := by
    unfold finishFailedRun recordedDb
    rw [Prog.modify_run]
    cases recordFailure input runId error w.db <;> rfl
  obtain ⟨htables, -, hsource⟩ := recordedDb_keeps input runId error w.db
  exact h.of_same (hdb ▸ htables) (hdb ▸ hsource)

section Moments

variable {input : RunInput ν} {w : World κ ν} (h : Isolated py w)
include h

/-- Progress is not part of the database. -/
theorem throughout_setProgress (f : Progress → Progress) :
    (Stepwise.setProgress f : Program Exc (World κ ν) Unit).Throughout (Isolated py) w :=
  Program.throughout_modify h h

/-- A pure computation changes nothing, whether it returns or raises. -/
theorem throughout_ofExcept {α : Type} (x : Except Exc α) :
    (Program.ofExcept x : Program Exc (World κ ν) α).Throughout (Isolated py) w := h

/-- The statements of a transaction change nothing that others see. -/
theorem throughout_replaceTables (s : Snapshot) (db : Db) :
    (Stepwise.replaceTables input s db : Program Exc (World κ ν) _).Throughout (Isolated py) w := by
  unfold Stepwise.replaceTables
  refine (throughout_ofExcept h _).bind fun _ w h _ => ?_
  refine (throughout_setProgress h _).bind fun _ w h _ => ?_
  refine (throughout_ofExcept h _).bind fun _ w h _ => ?_
  refine (throughout_setProgress h _).bind fun _ w h _ => ?_
  refine (throughout_ofExcept h _).bind fun _ w h _ => ?_
  refine (throughout_setProgress h _).bind fun _ w h _ => ?_
  refine (throughout_ofExcept h _).bind fun _ w h _ => ?_
  refine (throughout_ofExcept h _).bind fun _ w h _ => ?_
  refine (throughout_ofExcept h _).bind fun _ w h _ => ?_
  exact (throughout_ofExcept h _).bind fun _ w h _ => h

/-- Nor is anything seen of the rest of the transaction. -/
theorem throughout_applySnapshot (runId : ℤ) (startedAt : Instant) (s : Snapshot) (db : Db) :
    (Stepwise.applySnapshot input runId startedAt s db : Program Exc (World κ ν) _).Throughout
      (Isolated py) w := by
  unfold Stepwise.applySnapshot
  refine (throughout_replaceTables h s db).bind fun _ w h _ => ?_
  refine (throughout_ofExcept h _).bind fun _ w h _ => ?_
  refine (throughout_ofExcept h _).bind fun _ w h _ => ?_
  exact (throughout_ofExcept h _).bind fun _ w h _ => h

/-- Up to its commit a transaction is not seen, and with it the whole snapshot is. -/
theorem throughout_commitSnapshot {raw : Json ν} {s : Snapshot}
    (hvalid : validateSnapshot py raw = .ok s) (runId : ℤ) (startedAt : Instant) :
    (Stepwise.commitSnapshot input runId startedAt s : Program Exc (World κ ν) _).Throughout
      (Isolated py) w := by
  unfold Stepwise.commitSnapshot
  refine (throughout_setProgress h _).bind fun _ w h _ => ?_
  refine (throughout_ofExcept h _).bind fun _ w h _ => ?_
  refine (Program.throughout_read h).bind fun w₀ w h _ => ?_
  refine Program.Throughout.bind ?_ fun result w' h' hrun => ?_
  · refine (throughout_applySnapshot h runId startedAt s w₀.db).tryExcept fun e w h _ => ?_
    exact (throughout_ofExcept h _).bind fun _ w h _ => h
  · obtain ⟨db, summary⟩ := result
    rw [Program.run_tryExcept, Stepwise.run_applySnapshot] at hrun
    have hholds : Holds ν py db (snapshotContent s) := by
      rcases Prog.of_tryExcept_ok hrun with happly | ⟨e, w₁, -, hraise⟩
      · exact holds_of_applySnapshot hvalid happly
      · -- the handler always raises
        have hhandler : Program.run (do
            Program.ofExcept (input.reach .rollback)
            Program.raise e : Program Exc (World κ ν) (Db × Summary)) =
              (do
                Prog.ofExcept (input.reach .rollback)
                Prog.raise e) := Program.run_bind_congr rfl fun _ => rfl
        rw [hhandler] at hraise
        obtain ⟨-, -, hraise⟩ := Prog.ofExcept_bind_eq_ok.mp hraise
        cases hraise
    exact (Program.throughout_modify h' ⟨_, hholds⟩).bind fun _ w h _ => h

/-- A run after its audit row. -/
theorem throughout_runOpened (runId : ℤ) :
    (Stepwise.runOpened py input runId : Program Exc (World κ ν) _).Throughout (Isolated py) w := by
  unfold Stepwise.runOpened
  refine (throughout_setProgress h _).bind fun _ w h _ => ?_
  refine (throughout_ofExcept h _).bind fun s w h hacquired => ?_
  obtain ⟨⟨raw, hvalid⟩, -⟩ := of_acquireValidated (Prod.mk.inj hacquired).1
  refine (throughout_setProgress h _).bind fun _ w h _ => ?_
  refine (throughout_commitSnapshot h hvalid runId _).bind fun summary w h _ => ?_
  refine Program.Throughout.bind ?_ fun _ w h _ => h
  exact (Program.throughout_modify h h).bind fun _ w h _ => Program.throughout_modify h h

/-- The `except` block keeps what the database holds. -/
theorem throughout_onFailure {α : Type} (runId : Option ℤ) (e : Exc) :
    (Stepwise.onFailure input runId e : Program Exc (World κ ν) α).Throughout (Isolated py) w := by
  unfold Stepwise.onFailure
  refine Program.Throughout.bind ?_ fun _ w h _ => ?_
  · exact Program.throughout_attempt h (isolated_finishFailedRun h runId e.text)
  refine Program.Throughout.bind (Program.throughout_modify h h) fun _ w h _ => ?_
  exact (throughout_setProgress h _).bind fun _ w h _ => h

/-- So does the whole `try` block. -/
theorem throughout_guardedRun :
    (Stepwise.guardedRun py input : Program Exc (World κ ν) _).Throughout (Isolated py) w := by
  unfold Stepwise.guardedRun
  refine Program.Throughout.bind ?_ fun runId w h _ => ?_
  · refine Program.Throughout.tryExcept (Program.throughout_atomic h ?_) fun e w h _ => ?_
    · exact isolated_openRun h
    · exact throughout_onFailure h none e
  · exact (throughout_runOpened h runId).tryExcept fun e w h _ => throughout_onFailure h (some runId) e

/-- And so does a run with the lock. -/
theorem throughout_lockedRun :
    (Stepwise.lockedRun py input : Program Exc (World κ ν) _).Throughout (Isolated py)
      (Stepwise.lock w) := by
  have hlocked : Isolated py (Stepwise.lock w) := h
  unfold Stepwise.lockedRun
  refine Program.Throughout.tryFinally ?_ fun f hf w hw => ?_
  · exact (throughout_setProgress hlocked _).bind fun _ w h _ => throughout_guardedRun h
  · rcases List.mem_append.mp hf with hf | hf
    · obtain rfl := List.mem_singleton.mp hf
      unfold settle
      split_ifs <;> exact hw
    · obtain rfl := List.mem_singleton.mp hf
      exact hw

end Moments

/-! ## Every moment of a history

The moments of a history are those of its runs alone, because the runs exclude each other.
-/

/-- At every moment of a history the database holds one snapshot. -/
theorem isolated_of_reached {w₀ : World κ ν} (hisolated : Isolated py w₀) (hfree : w₀.runLocked = false)
    {history : List (Action (RunInput ν))} {s : State Exc (World κ ν) Outcome}
    (hreached : Health.reached py w₀ history = some s) : Isolated py s.shared := by
  have hE := Health.exclusive_runIngest (κ := κ) (ν := ν) (μ := ν) py
  exact throughout_of_run hE.held_lock hE.critical (fun _ _ hw _ => throughout_lockedRun hw) hisolated
    hfree hreached

/-- Snapshot isolation: however the calls of `run_ingest` interleave, and whatever fails in them, at every
moment the database holds one snapshot that `_validate_snapshot` returned, or nothing yet, and every
dashboard that is built then, over whatever window and scope, reports exactly that. -/
theorem dashboard_isolated {w₀ : World κ ν} (hisolated : Isolated py w₀)
    (hfree : w₀.runLocked = false) {history : List (Action (RunInput ν))}
    {s : State Exc (World κ ν) Outcome} (hreached : Health.reached py w₀ history = some s) :
    ∃ content, Holds ν py s.shared.db content ∧
      ∀ (printable : CodePoint → Bool) (collate : Str → Str → Bool) (clock : ReadClock) (rng : Str)
        (repository : Option Str) (body : Body),
        dashboard printable collate s.shared.db clock rng repository = .ok body →
        ∃ window, buildWindow printable s.shared.db clock rng repository = .ok window ∧
          Reports content window repository body := by
  obtain ⟨content, hholds⟩ := isolated_of_reached hisolated hfree hreached
  refine ⟨content, hholds, fun printable collate clock rng repository body hbody => ?_⟩
  obtain ⟨-, window, bounds, hwindow, hbounds, rfl⟩ := dashboard_eq_ok.mp hbody
  refine ⟨window, hwindow, ?_⟩
  have hbuild : dashboardBuild collate s.shared.db window repository clock.startedAt =
      .ok (bodyOf collate s.shared.db window repository clock.startedAt bounds) := by
    rw [dashboardBuild_eq, hbounds]
    rfl
  exact (reports_of_build hbuild).of_same hholds.same

/-- Before the first call there is nothing. -/
theorem isolated_freshWorld : Isolated samplePy Health.freshWorld := ⟨_, .nothing ⟨rfl, rfl, rfl⟩ rfl⟩

/-- A run of the user `me` in a fixed environment that fetches a document. -/
def fetching (raw : Json Unit) : RunInput Unit := quietInput fun _ _ => .returned raw

/-- A run commits its snapshot. A second one, whose snapshot has another number for the issue, has executed
every statement of its transaction but not the commit. -/
def uncommitted : List (Action (RunInput Unit)) :=
  .call 0 (fetching (sampleJson 7)) :: List.replicate 15 (.step 0) ++
    .call 1 (fetching (sampleJson 8)) :: List.replicate 10 (.step 1)

/-- The dashboard still reports the first snapshot, although the second run is past its last statement. -/
theorem uncommitted_isolated :
    ∃ s content, Health.reached samplePy Health.freshWorld uncommitted = some s ∧
      s.shared.runLocked = true ∧ s.shared.progress.phase = .committing ∧
      (contentOf s.shared.db).issues.map Issue.number = [7] ∧
      Holds Unit samplePy s.shared.db content ∧
      ∀ (printable : CodePoint → Bool) (collate : Str → Str → Bool) (clock : ReadClock) (rng : Str)
        (repository : Option Str) (body : Body),
        dashboard printable collate s.shared.db clock rng repository = .ok body →
        ∃ window, buildWindow printable s.shared.db clock rng repository = .ok window ∧
          Reports content window repository body := by
  obtain ⟨content, hholds, hreports⟩ := dashboard_isolated isolated_freshWorld rfl
    (show Health.reached samplePy Health.freshWorld uncommitted = some _ from rfl)
  exact ⟨_, content, rfl, rfl, rfl, rfl, hholds, hreports⟩

/-- History independence: when two processes, whatever their histories, hold the same records in any
order, every request has the same answer from both. -/
theorem dashboard_independent {w₀ w₀' : World κ ν} (hisolated : Isolated py w₀)
    (hisolated' : Isolated py w₀') (hfree : w₀.runLocked = false) (hfree' : w₀'.runLocked = false)
    {history history' : List (Action (RunInput ν))} {s s' : State Exc (World κ ν) Outcome}
    (hreached : Health.reached py w₀ history = some s)
    (hreached' : Health.reached py w₀' history' = some s') :
    (∃ content, Holds ν py s.shared.db content) ∧ (∃ content', Holds ν py s'.shared.db content') ∧
      ∀ content content', Holds ν py s.shared.db content → Holds ν py s'.shared.db content' →
        content.Same content' →
        ∀ (printable : CodePoint → Bool) (collate : Str → Str → Bool) (clock : ReadClock) (rng : Str)
          (repository : Option Str),
          SameAnswer (dashboard printable collate s.shared.db clock rng repository)
            (dashboard printable collate s'.shared.db clock rng repository) := by
  refine ⟨isolated_of_reached hisolated hfree hreached, isolated_of_reached hisolated' hfree' hreached',
    fun content content' hholds hholds' hsame printable collate clock rng repository => ?_⟩
  -- the rows of the one are those of the other, through what the two hold
  have hrows : (contentOf s.shared.db).Same (contentOf s'.shared.db) :=
    (hholds.same.trans hsame).trans hholds'.same.symm
  exact answers_of_same hrows printable collate clock rng repository

/-- A document with two repositories of an organization, and an issue in each. -/
def pairJson (first second : Str) : Json Unit :=
  .dict
    [(lit "schema_version", .int 1),
      (lit "generated_at", .str (lit "2026-08-11T00:00:00Z")),
      (lit "account", .dict [(lit "login", .str (lit "me"))]),
      (lit "repositories", .list ([first, second].map fun id =>
        .dict
          [(lit "id", .str id), (lit "nameWithOwner", .str (lit "org/" ++ id)),
            (lit "url", .str (lit "u")), (lit "isPrivate", .bool false),
            (lit "owner", .dict [(lit "login", .str (lit "org"))])])),
      (lit "issues", .list ([first, second].map fun id =>
        .dict
          [(lit "node_id", .str (lit "I" ++ id)), (lit "repository_id", .str id),
            (lit "repository", .str (lit "org/" ++ id)), (lit "owner", .str (lit "org")),
            (lit "repository_url", .str (lit "u")), (lit "is_private", .bool false),
            (lit "number", .int 7), (lit "url", .str (lit "v")),
            (lit "created_at", .str (lit "2026-08-11T00:00:00Z")),
            (lit "updated_at", .str (lit "2026-08-11T00:00:00Z")), (lit "closed_at", .null),
            (lit "state", .str (lit "OPEN")), (lit "state_reason", .null)])),
      (lit "pull_requests", .list [])]

/-- What validation makes of it. -/
def pairSnapshot (first second : Str) : Snapshot where
  sourceAt := 1786406400000000
  login := lit "me"
  repositories := [first, second].map fun id => ⟨id, lit "org/" ++ id, lit "org", lit "u"⟩
  issues := [first, second].map fun id =>
    ⟨lit "I" ++ id, id, 7, lit "v", some 1786406400000000, some 1786406400000000, none, lit "OPEN", none⟩
  pullRequests := []

/-- The order of the two is all that changes when they are exchanged. -/
theorem same_pairSnapshot (first second : Str) :
    (snapshotContent (pairSnapshot first second)).Same (snapshotContent (pairSnapshot second first)) :=
  ⟨.swap _ _ [], .swap _ _ [], .nil⟩

/-- A process commits the two at its first run. -/
def forwards : List (Action (RunInput Unit)) :=
  .call 0 (fetching (pairJson (lit "R") (lit "S"))) :: List.replicate 15 (.step 0)

/-- Another one commits them the other way round, after a run that failed. -/
def backwards : List (Action (RunInput Unit)) :=
  Health.failedHistory ++
    .call 2 (fetching (pairJson (lit "S") (lit "R"))) :: List.replicate 15 (.step 2)

/-- The two processes store their rows in different orders, and answer every request alike. -/
theorem backwards_independent :
    ∃ s s', Health.reached samplePy Health.freshWorld forwards = some s ∧
      Health.reached samplePy Health.freshWorld backwards = some s' ∧
      contentOf s.shared.db = snapshotContent (pairSnapshot (lit "R") (lit "S")) ∧
      contentOf s'.shared.db = snapshotContent (pairSnapshot (lit "S") (lit "R")) ∧
      ∀ (printable : CodePoint → Bool) (collate : Str → Str → Bool) (clock : ReadClock) (rng : Str)
        (repository : Option Str),
        SameAnswer (dashboard printable collate s.shared.db clock rng repository)
          (dashboard printable collate s'.shared.db clock rng repository) := by
  obtain ⟨⟨content, hholds⟩, ⟨content', hholds'⟩, hanswers⟩ :=
    dashboard_independent isolated_freshWorld isolated_freshWorld rfl rfl
      (show Health.reached samplePy Health.freshWorld forwards = some _ from rfl)
      (show Health.reached samplePy Health.freshWorld backwards = some _ from rfl)
  refine ⟨_, _, rfl, rfl, rfl, rfl, hanswers content content' hholds hholds' ?_⟩
  have hsame := hholds.same
  have hsame' := hholds'.same
  exact hsame.symm.trans (Content.Same.trans (same_pairSnapshot (lit "R") (lit "S")) hsame')

end Ghpulse.System
