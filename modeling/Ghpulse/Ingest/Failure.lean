import Ghpulse.Ingest.Accepted
import Ghpulse.Ingest.Run

/-!
# Failed runs

A run that raises leaves no trace in the current state. Everything up to the commit keeps the part of
the process that others can see (`Visible`), so the whole guarded flow is atomic there, and the clean-up
only adds the record of the failure. `runIngest_failed` says what a failed run leaves behind.

The argument has two halves. Before its commit a run changes nothing visible, by a lemma for each part of
the flow; so where it raises, only the audit row can have been added. After that only the handler acts,
and what its record raises is swallowed.

Reference: `backend/ingest.py`.
-/

open Python Effect Keyed

namespace Ghpulse.Ingest

variable {κ ν μ : Type}

/-! ## What a run must not touch before its commit

`keeps` and `KeepsOnError` are the rules of `Library.Effect` for a view of the state: a program keeps the
view, or keeps it if it raises.
-/

/-- The part of the process that a run changes only by its commit and its hooks. -/
structure Visible (κ ν : Type) where
  db : Db
  responseCache : Cache.TTLCache κ ν
  broadcasts : List Broadcast
  runLocked : Bool

/-- The visible part of a process. -/
def World.visible (w : World κ ν) : Visible κ ν :=
  ⟨w.db, w.responseCache, w.broadcasts, w.runLocked⟩

/-- Progress is not what others see of the database. -/
theorem keeps_setProgress (f : Progress → Progress) :
    Prog.Keeps World.visible (setProgress f : Prog Exc (World κ ν) Unit) := fun _ => rfl

section Transaction

variable {τ : Type} {view : World κ ν → τ}

/-- The statements of a transaction change nothing but the progress. -/
theorem keeps_replaceTables
    (hview : ∀ w n, view { w with progress := { w.progress with done := n } } = view w)
    (input : RunInput μ) (s : Snapshot) (db : Db) : Prog.Keeps view (replaceTables input s db) := by
  have hprogress (n : ℕ) : Prog.Keeps view
      (setProgress fun p => { p with done := n } : Prog Exc (World κ ν) Unit) := fun w => hview w n
  unfold replaceTables
  refine (Prog.keeps_ofExcept _).bind fun _ => ?_
  refine (hprogress _).bind fun _ => ?_
  refine (Prog.keeps_ofExcept _).bind fun _ => ?_
  refine (hprogress _).bind fun _ => ?_
  refine (Prog.keeps_ofExcept _).bind fun _ => ?_
  refine (hprogress _).bind fun _ => ?_
  refine (Prog.keeps_ofExcept _).bind fun _ => ?_
  refine (Prog.keeps_ofExcept _).bind fun _ => ?_
  refine (Prog.keeps_ofExcept _).bind fun _ => ?_
  refine (Prog.keeps_ofExcept _).bind fun _ => ?_
  exact Prog.keeps_pure _

/-- A transaction before its commit keeps every view that ignores how far it is. -/
theorem keeps_applySnapshot
    (hview : ∀ w n, view { w with progress := { w.progress with done := n } } = view w)
    (input : RunInput μ) (runId : ℤ) (startedAt : Instant) (s : Snapshot) (db : Db) :
    Prog.Keeps view (applySnapshot input runId startedAt s db) := by
  unfold applySnapshot
  refine (keeps_replaceTables hview input s db).bind fun _ => ?_
  refine (Prog.keeps_ofExcept _).bind fun _ => ?_
  refine (Prog.keeps_ofExcept _).bind fun _ => ?_
  refine (Prog.keeps_ofExcept _).bind fun _ => ?_
  exact Prog.keeps_pure _

end Transaction

/-- A commit that raises has changed nothing, whether or not its rollback raised too. -/
theorem commitSnapshot_atomic (input : RunInput μ) (runId : ℤ) (startedAt : Instant) (s : Snapshot) :
    Prog.KeepsOnError (World.visible : World κ ν → Visible κ ν)
      (commitSnapshot input runId startedAt s) := by
  unfold commitSnapshot
  refine (keeps_setProgress _).bind_onError fun _ => ?_
  refine (Prog.keeps_ofExcept _).bind_onError fun _ => ?_
  refine Prog.keeps_get.bind_onError fun w => ?_
  refine Prog.Keeps.bind_onError ?_ fun _ => ?_
  · refine (keeps_applySnapshot (fun _ _ => rfl) input runId startedAt s w.db).tryExcept fun e => ?_
    exact (Prog.keeps_ofExcept _).bind fun _ => Prog.keeps_raise e
  · exact ((Prog.returns_modify _).bind fun _ => Prog.returns_pure _).onError

/-- The guarded flow after the audit row is atomic: only its last step, the commit, changes anything,
and the hooks after the commit do not raise. -/
theorem runOpened_atomic (py : PyLib) (input : RunInput μ) (runId : ℤ) :
    Prog.KeepsOnError (World.visible : World κ ν → Visible κ ν) (runOpened py input runId) := by
  unfold runOpened
  refine (keeps_setProgress _).bind_onError fun _ => ?_
  refine (Prog.keeps_ofExcept _).bind_onError fun s => ?_
  refine (keeps_setProgress _).bind_onError fun _ => ?_
  refine (commitSnapshot_atomic input runId _ s).bind_returns fun summary => ?_
  exact (Prog.returns_modify _).bind fun _ => Prog.returns_pure _

/-- Opening the audit row is atomic. -/
theorem openRun_atomic (input : RunInput μ) :
    Prog.KeepsOnError (World.visible : World κ ν → Visible κ ν) (openRun input) := by
  unfold openRun
  refine (Prog.keeps_ofExcept _).bind_onError fun _ => ?_
  refine Prog.keeps_get.bind_onError fun w => ?_
  refine Prog.Keeps.bind_onError ?_ fun _ => ?_
  · exact Prog.keeps_modify fun _ => rfl
  refine (Prog.keeps_ofExcept _).bind_onError fun _ => ?_
  refine (Prog.keeps_ofExcept _).bind_onError fun _ => ?_
  exact ((Prog.returns_modify _).bind fun _ => Prog.returns_pure _).onError

/-- An opened run has its audit row and has changed nothing else. -/
theorem of_openRun {input : RunInput μ} {w w' : World κ ν} {id : ℤ}
    (h : openRun input w = (.ok id, w')) :
    id = w.nextRunId ∧ w.db.insertRun id input.trigger input.clock.startedAt = some w'.db ∧
      w'.visible = { w.visible with db := w'.db } := by
  unfold openRun at h
  obtain ⟨-, -, h⟩ := Prog.ofExcept_bind_eq_ok.mp h
  have h := Prog.modify_bind.mp (Prog.get_bind.mp h)
  obtain ⟨db, hinsert, h⟩ := Prog.ofExcept_bind_eq_ok.mp h
  obtain ⟨-, -, h⟩ := Prog.ofExcept_bind_eq_ok.mp h
  cases Prog.modify_bind.mp h
  exact ⟨rfl, (RunInput.execute_eq_ok.mp hinsert).2, rfl⟩

/-- The sequence goes on whether or not the row is inserted, and a row has the number drawn for it. -/
theorem openRun_sequence {input : RunInput μ} {w w' : World κ ν} {result : Except Exc ℤ}
    (h : openRun input w = (result, w')) :
    (w'.db = w.db ∧ w.nextRunId ≤ w'.nextRunId) ∨
      (w.db.insertRun w.nextRunId input.trigger input.clock.startedAt = some w'.db ∧
        w'.nextRunId = w.nextRunId + 1) := by
  simp only [openRun, Bind.bind, Prog.ofExcept, Prog.get, Prog.modify] at h
  cases hconnect : input.reach .openConnect with
  | error e =>
    simp only [hconnect] at h
    cases h
    exact .inl ⟨rfl, le_rfl⟩
  | ok u =>
    simp only [hconnect] at h
    cases hinsert : input.execute .openInsert
        (w.db.insertRun w.nextRunId input.trigger input.clock.startedAt) with
    | error e =>
      simp only [hinsert] at h
      cases h
      exact .inl ⟨rfl, Int.le_add_one le_rfl⟩
    | ok db =>
      simp only [hinsert] at h
      cases hcommit : input.reach .openCommit with
      | error e =>
        simp only [hcommit] at h
        cases h
        exact .inl ⟨rfl, Int.le_add_one le_rfl⟩
      | ok u' =>
        simp only [hcommit] at h
        cases h
        exact .inr ⟨(RunInput.execute_eq_ok.mp hinsert).2, rfl⟩

/-- After its audit row a run draws no number. -/
theorem nextRunId_runOpened (py : PyLib) (input : RunInput μ) (runId : ℤ) :
    Prog.Keeps (World.nextRunId : World κ ν → ℤ) (runOpened py input runId) := by
  have hprogress (f : Progress → Progress) : Prog.Keeps (World.nextRunId : World κ ν → ℤ)
      (setProgress f) := fun _ => rfl
  unfold runOpened
  refine (hprogress _).bind fun _ => ?_
  refine (Prog.keeps_ofExcept _).bind fun s => ?_
  refine (hprogress _).bind fun _ => ?_
  refine Prog.Keeps.bind ?_ fun _ => ?_
  · unfold commitSnapshot
    refine (hprogress _).bind fun _ => ?_
    refine (Prog.keeps_ofExcept _).bind fun _ => ?_
    refine Prog.keeps_get.bind fun w => ?_
    refine Prog.Keeps.bind ?_ fun _ => ?_
    · refine (keeps_applySnapshot (fun _ _ => rfl) input runId _ s w.db).tryExcept fun e => ?_
      exact (Prog.keeps_ofExcept _).bind fun _ => Prog.keeps_raise e
    · exact Prog.Keeps.bind (Prog.keeps_modify fun _ => rfl) fun _ => Prog.keeps_pure _
  · exact Prog.Keeps.bind (Prog.keeps_modify fun _ => rfl) fun _ => Prog.keeps_pure _

/-! ## The record of a failure

Two functions of the source, with and without an audit row, are one definition with an optional id.
-/

/-- What it takes to record a failure: the connection does not raise, and the text of the error can be
stored. -/
structure RunInput.Records (input : RunInput μ) (opened : Prop) (error : Str) : Prop where
  connect : input.faults .recordConnect = none
  run : opened → input.faults .recordRun = none
  state : input.faults .recordState = none
  commit : input.faults .recordCommit = none
  storable : Sql.storable error = true

/-- What a recorded failure leaves in the database. -/
structure Recorded (input : RunInput μ) (runId : Option ℤ) (error : Str) (db db' : Db) : Prop where
  tables : db'.SameTables db
  syncState : db'.syncState = some (failedState db.syncState input.clock.failedAt error)
  run : ∀ id ∈ runId,
    db'.ingestRuns.find id = (db.ingestRuns.find id).map (failedRun input.clock.failedAt error)

/-- Recording a failure leaves its record and nothing else. -/
theorem recorded_of_recordFailure {input : RunInput μ} {runId : Option ℤ} {error : Str} {db db' : Db}
    (h : recordFailure input runId error db = .ok db') : Recorded input runId error db db' := by
  unfold recordFailure at h
  obtain ⟨-, -, h⟩ := bind_eq_ok.mp h
  obtain ⟨db₁, hrun, h⟩ := bind_eq_ok.mp h
  obtain ⟨db₂, hstate, h⟩ := bind_eq_ok.mp h
  obtain ⟨-, -, h⟩ := bind_eq_ok.mp h
  cases h
  obtain ⟨-, htables, hruns, hsync⟩ := of_setSyncState (RunInput.execute_eq_ok.mp hstate).2
  cases runId with
  | none =>
    cases hrun
    exact ⟨htables, hsync, fun id hid => by cases hid⟩
  | some id =>
    have hupdate := (RunInput.execute_eq_ok.mp hrun).2
    obtain ⟨-, htables', hsync'⟩ := of_updateRun hupdate
    refine ⟨⟨htables.1.trans htables'.1, htables.2.trans htables'.2, htables.3.trans htables'.3⟩,
      by rw [hsync, hsync'], fun id' hid' => ?_⟩
    cases hid'
    rw [hruns, find_updateRun hupdate]

/-- What the record of a failure does to an audit row. -/
def failedRow (runId : Option ℤ) (finishedAt : Instant) (error : Str) (r : IngestRun) : IngestRun :=
  if some r.id = runId then failedRun finishedAt error r else r

/-- A failed row has neither another id nor another commit time. -/
theorem failedRow_keeps (runId : Option ℤ) (finishedAt : Instant) (error : Str) (r : IngestRun) :
    (failedRow runId finishedAt error r).id = r.id ∧
      (failedRow runId finishedAt error r).committedAt = r.committedAt := by
  unfold failedRow
  split_ifs <;> exact ⟨rfl, rfl⟩

/-- Only the audit row of the run is changed. -/
theorem rows_of_recordFailure {input : RunInput μ} {runId : Option ℤ} {error : Str} {db db' : Db}
    (h : recordFailure input runId error db = .ok db') :
    db'.ingestRuns.rows =
      db.ingestRuns.rows.map (failedRow runId input.clock.failedAt error) := by
  unfold recordFailure at h
  obtain ⟨-, -, h⟩ := bind_eq_ok.mp h
  obtain ⟨db₁, hrun, h⟩ := bind_eq_ok.mp h
  obtain ⟨db₂, hstate, h⟩ := bind_eq_ok.mp h
  obtain ⟨-, -, h⟩ := bind_eq_ok.mp h
  cases h
  obtain ⟨-, -, hruns, -⟩ := of_setSyncState (RunInput.execute_eq_ok.mp hstate).2
  rw [hruns]
  cases runId with
  | none =>
    cases hrun
    rw [List.map_congr_left fun r _ => if_neg (Option.some_ne_none r.id)]
    exact (List.map_id _).symm
  | some id =>
    rw [Table.rows_update (of_updateRun (RunInput.execute_eq_ok.mp hrun).2).1]
    refine List.map_congr_left fun r _ => ?_
    unfold Table.setAt failedRow
    simp only [Option.some.injEq]
    rfl

/-- The failed state is admitted when its text can be stored. -/
theorem check_failedState (old : Option SyncState) (finishedAt : Instant) (error : Str) :
    (failedState old finishedAt error).check = Sql.storable error := by
  have hstatus : Sql.admits (Sql.or (Sql.isNull (some (lit "failure")))
      (Sql.isIn (some (lit "failure")) [lit "success", lit "failure"])) = true := rfl
  have hstored : Option.all Sql.storable (some (lit "failure")) = true := rfl
  simp only [SyncState.check, failedState, hstatus, hstored, Bool.true_and, Option.all_some]

/-- A stored run can be failed with a text that can be stored. -/
theorem check_failedRun {r : IngestRun} (hr : r.check = true) {finishedAt : Instant} {error : Str}
    (herror : Sql.storable error = true) : (failedRun finishedAt error r).check = true := by
  simp only [IngestRun.check, Bool.and_eq_true] at hr
  simp only [IngestRun.check, failedRun, hr, herror, Bool.and_true, Option.all_some]

/-- The statement on the audit row can be executed when it meets no fault. -/
theorem recordRun_returns {input : RunInput μ} {runId : Option ℤ} {error : Str}
    (hrun : runId.isSome = true → input.faults .recordRun = none)
    (herror : Sql.storable error = true) (db : Db) :
    ∃ db', recordRun input runId error db = .ok db' := by
  cases runId with
  | none => exact ⟨db, rfl⟩
  | some id =>
    have hupdate : (db.updateRun id (failedRun input.clock.failedAt error) fun _ => rfl).isSome =
        true := by
      unfold Db.updateRun
      rw [Option.isSome_map, Table.update_isSome]
      intro r hr
      unfold Table.setAt
      split_ifs
      · exact check_failedRun (db.ingestRuns.checked r hr) herror
      · exact db.ingestRuns.checked r hr
    obtain ⟨db', hdb'⟩ := Option.isSome_iff_exists.mp hupdate
    exact ⟨db', RunInput.execute_eq_ok.mpr ⟨hrun rfl, hdb'⟩⟩

/-- A failure is recorded exactly when its statements can be executed. -/
theorem recordFailure_returns_iff {input : RunInput μ} {runId : Option ℤ} {error : Str} (db : Db) :
    (∃ db', recordFailure input runId error db = .ok db') ↔
      input.Records (runId.isSome = true) error := by
  unfold recordFailure
  constructor
  · rintro ⟨db', h⟩
    obtain ⟨_, hconnect, h⟩ := bind_eq_ok.mp h
    obtain ⟨db₁, hrun, h⟩ := bind_eq_ok.mp h
    obtain ⟨db₂, hstate, h⟩ := bind_eq_ok.mp h
    obtain ⟨_, hcommit, -⟩ := bind_eq_ok.mp h
    obtain ⟨hstate, hset⟩ := RunInput.execute_eq_ok.mp hstate
    refine ⟨(RunInput.execute_eq_ok.mp hconnect).1, fun hsome => ?_, hstate,
      (RunInput.execute_eq_ok.mp hcommit).1, ?_⟩
    · obtain ⟨id, rfl⟩ := Option.isSome_iff_exists.mp hsome
      exact (RunInput.execute_eq_ok.mp hrun).1
    · rw [← check_failedState]
      exact (of_setSyncState hset).1
  · rintro ⟨hconnect, hrun, hstate, hcommit, hstorable⟩
    obtain ⟨db₁, hdb₁⟩ := recordRun_returns hrun hstorable db
    have hset : db₁.setSyncState (failedState db₁.syncState input.clock.failedAt error) = some _ :=
      if_pos ((check_failedState _ _ _).trans hstorable)
    exact ⟨_, bind_eq_ok.mpr ⟨_, RunInput.execute_eq_ok.mpr ⟨hconnect, rfl⟩,
      bind_eq_ok.mpr ⟨_, hdb₁, bind_eq_ok.mpr ⟨_, RunInput.execute_eq_ok.mpr ⟨hstate, hset⟩,
      bind_eq_ok.mpr ⟨_, RunInput.execute_eq_ok.mpr ⟨hcommit, rfl⟩, rfl⟩⟩⟩⟩⟩

/-! ## The clean-up

The handler swallows what its record raises, tells the subscribers, and raises again.
-/

/-- The database after an attempt to record a failure. -/
def recordedDb (input : RunInput μ) (runId : Option ℤ) (error : Str) (db : Db) : Db :=
  match recordFailure input runId error db with
  | .ok db' => db'
  | .error _ => db

/-- The process after the `except` block. -/
def World.failed (w : World κ ν) (input : RunInput μ) (runId : Option ℤ) (e : Exc) : World κ ν :=
  { w with
    db := recordedDb input runId e.text w.db
    broadcasts := w.broadcasts ++ [.ingestFailed (failurePayload input)]
    progress := .reset (some e.text) }

/-- The `except` block raises the exception again. -/
theorem onFailure_run {α : Type} (input : RunInput μ) (runId : Option ℤ) (e : Exc) (w : World κ ν) :
    (onFailure input runId e : Prog Exc (World κ ν) α) w = (.error e, w.failed input runId e) := by
  unfold onFailure
  rw [finishFailedRun, Prog.modify_bind, postFailure, Prog.modify_bind, setProgress, Prog.modify_bind,
    Prog.raise_run, World.failed, recordedDb]
  cases recordFailure input runId e.text w.db <;> rfl

/-- Whether the audit row was opened when the handler ran, and what the process was then. -/
inductive FailedAt (input : RunInput μ) (w w₁ : World κ ν) : Option ℤ → Prop where
  | unopened (hopen : ∀ id, (openRun input w).1 ≠ .ok id) (hvisible : w₁.visible = w.visible) :
      FailedAt input w w₁ none
  | opened (id : ℤ) (hopen : (openRun input w).1 = .ok id)
      (hinsert : w.db.insertRun id input.trigger input.clock.startedAt = some w₁.db)
      (hvisible : w₁.visible = { w.visible with db := w₁.db }) : FailedAt input w w₁ (some id)

/-- A run that raises has gone through one of the two handlers. -/
theorem guardedRun_raises {py : PyLib} {input : RunInput μ} {w w' : World κ ν} {e : Exc}
    (h : guardedRun py input w = (.error e, w')) :
    (∃ w₁, openRun input w = (.error e, w₁) ∧ w' = w₁.failed input none e) ∨
      ∃ id w₁ w₂, openRun input w = (.ok id, w₁) ∧ runOpened py input id w₁ = (.error e, w₂) ∧
        w' = w₂.failed input (some id) e := by
  rcases Prog.bind_eq_error.mp h with hopen | ⟨id, w₁, hopen, hrun⟩
  · obtain ⟨e', w₁, hraise, hhandler⟩ := Prog.of_tryExcept_error hopen
    rw [onFailure_run] at hhandler
    cases hhandler
    exact .inl ⟨w₁, hraise, rfl⟩
  · obtain ⟨e', w₂, hraise, hhandler⟩ := Prog.of_tryExcept_error hrun
    rw [onFailure_run] at hhandler
    cases hhandler
    rcases Prog.of_tryExcept_ok hopen with hopened | ⟨e'', w₃, -, hreturned⟩
    · exact .inr ⟨id, w₁, w₂, hopened, hraise, rfl⟩
    · exact absurd hreturned onFailure_ne_ok

/-- A run whose audit row could not be opened has changed nothing. -/
theorem failedAt_unopened {input : RunInput μ} {w w₁ : World κ ν} {e : Exc}
    (h : openRun input w = (.error e, w₁)) : FailedAt input w w₁ none := by
  refine .unopened (fun id hid => ?_) (openRun_atomic input w e w₁ h)
  rw [h] at hid
  cases hid

/-- A run that fails after it has left its open audit row. -/
theorem failedAt_opened {py : PyLib} {input : RunInput μ} {w w₁ w₂ : World κ ν} {id : ℤ} {e : Exc}
    (hopen : openRun input w = (.ok id, w₁)) (hrun : runOpened py input id w₁ = (.error e, w₂)) :
    FailedAt input w w₂ (some id) := by
  obtain ⟨-, hinsert, hvisible⟩ := of_openRun hopen
  have hatomic := runOpened_atomic py input id w₁ e w₂ hrun
  have hdb : w₂.db = w₁.db := congrArg Visible.db hatomic
  refine .opened id (by rw [hopen]) (hdb ▸ hinsert) ?_
  rw [hatomic, hvisible, hdb]

/-- A run that raises has failed at some point and recorded that. -/
theorem of_guardedRun_error {py : PyLib} {input : RunInput μ} {w w' : World κ ν} {e : Exc}
    (h : guardedRun py input w = (.error e, w')) :
    ∃ runId w₁, FailedAt input w w₁ runId ∧ w' = w₁.failed input runId e := by
  rcases guardedRun_raises h with ⟨w₁, hopen, rfl⟩ | ⟨id, w₁, w₂, hopen, hrun, rfl⟩
  · exact ⟨none, w₁, failedAt_unopened hopen, rfl⟩
  · exact ⟨some id, w₂, failedAt_opened hopen hrun, rfl⟩

/-! ## The failed run

`FailedRun` collects what the run leaves, and the theorem adds that the next run can take the lock.
-/

/-- What a failed run leaves behind. -/
structure FailedRun (input : RunInput μ) (e : Exc) (w w' : World κ ν) : Prop where
  tables : w'.db.SameTables w.db
  lastCommittedAt : w'.db.syncState.bind SyncState.lastCommittedAt =
    w.db.syncState.bind SyncState.lastCommittedAt
  lastSourceSnapshotAt : w'.db.syncState.bind SyncState.lastSourceSnapshotAt =
    w.db.syncState.bind SyncState.lastSourceSnapshotAt
  responseCache : w'.responseCache = w.responseCache
  broadcasts : w'.broadcasts = w.broadcasts ++ [.ingestFailed (failurePayload input)]
  unlocked : w'.runLocked = false
  progress : w'.progress = .reset (some e.text)
  /-- If the statements that record the failure succeed, the failure is in `sync_state`. -/
  recorded : input.Records (∃ id, (openRun input w).1 = .ok id) e.text →
    ∃ state, w'.db.syncState = some state ∧ state.lastAttemptStatus = some (lit "failure") ∧
      state.lastAttemptError = some e.text ∧ e.text ≠ []
  /-- … and in the audit row, if the run had opened one. -/
  audited : ∀ id, (openRun input w).1 = .ok id →
    input.Records (∃ id, (openRun input w).1 = .ok id) e.text →
    ∃ run, w'.db.ingestRuns.find id = some run ∧ run.finishedAt = some input.clock.failedAt ∧
      run.error = some e.text ∧ run.committedAt = none

/-- The text of an exception is not empty. -/
theorem Exc.text_ne_nil (e : Exc) : e.text ≠ [] := by
  intro h
  have hnil := (List.append_eq_nil_iff.mp (List.append_eq_nil_iff.mp h).1).2
  cases hnil

/-- Recording a failure touches neither the tables nor the columns of the last commit. -/
theorem recordedDb_keeps (input : RunInput μ) (runId : Option ℤ) (error : Str) (db : Db) :
    (recordedDb input runId error db).SameTables db ∧
      (recordedDb input runId error db).syncState.bind SyncState.lastCommittedAt =
        db.syncState.bind SyncState.lastCommittedAt ∧
      (recordedDb input runId error db).syncState.bind SyncState.lastSourceSnapshotAt =
        db.syncState.bind SyncState.lastSourceSnapshotAt := by
  unfold recordedDb
  cases h : recordFailure input runId error db with
  | error e => exact ⟨⟨rfl, rfl, rfl⟩, rfl, rfl⟩
  | ok db' =>
    have hrecorded := recorded_of_recordFailure h
    rw [hrecorded.syncState]
    exact ⟨hrecorded.tables, rfl, rfl⟩

/-- The result of `_open_run` depends on the database and its sequence alone. -/
theorem openRun_congr (input : RunInput μ) {w w₁ : World κ ν} (hdb : w₁.db = w.db)
    (hid : w₁.nextRunId = w.nextRunId) : (openRun input w₁).1 = (openRun input w).1 := by
  simp only [openRun, Bind.bind, Prog.ofExcept, Prog.get, Prog.modify]
  cases input.reach .openConnect with
  | error e => rfl
  | ok u =>
    simp only [hdb, hid]
    cases input.execute .openInsert
        (w.db.insertRun w.nextRunId input.trigger input.clock.startedAt) with
    | error e => rfl
    | ok db => cases input.reach .openCommit <;> rfl

/-- The row of a run that was just opened. -/
theorem find_of_insertRun {db db' : Db} {id : ℤ} {trigger : Str} {startedAt : Instant}
    (h : db.insertRun id trigger startedAt = some db') :
    ∃ run, db'.ingestRuns.find id = some run ∧ run.committedAt = none := by
  obtain ⟨t, ht, rfl⟩ := Option.map_eq_some_iff.mp h
  exact ⟨_, (Table.find_insert ht id).trans (if_pos rfl), rfl⟩

/-- What the handler leaves, from any point of the run at which it was entered. -/
theorem FailedAt.leaves {input : RunInput μ} {w w₁ : World κ ν} {runId : Option ℤ}
    (h : FailedAt input w w₁ runId) (e : Exc) :
    FailedRun input e w { w₁.failed input runId e with runLocked := false } := by
  obtain ⟨htables, hcommitted, hsource⟩ := recordedDb_keeps input runId e.text w₁.db
  -- the tables before the handler are those before the run
  have hdb : w₁.db.SameTables w.db ∧ w₁.db.syncState = w.db.syncState := by
    cases h with
    | unopened hopen hvisible =>
      have hdb : w₁.db = w.db := congrArg Visible.db hvisible
      exact hdb ▸ ⟨⟨rfl, rfl, rfl⟩, rfl⟩
    | opened id hopen hinsert hvisible => exact of_insertRun hinsert
  have hcache : w₁.responseCache = w.responseCache := by
    cases h with
    | unopened hopen hvisible => exact congrArg Visible.responseCache hvisible
    | opened id hopen hinsert hvisible => exact congrArg Visible.responseCache hvisible
  have hbroadcasts : w₁.broadcasts = w.broadcasts := by
    cases h with
    | unopened hopen hvisible => exact congrArg Visible.broadcasts hvisible
    | opened id hopen hinsert hvisible => exact congrArg Visible.broadcasts hvisible
  -- whether there is a row to finish depends on whether it was opened
  have hopened : (∃ id, (openRun input w).1 = .ok id) ↔ runId.isSome = true := by
    cases h with
    | unopened hopen hvisible => exact iff_of_false (fun ⟨id, hid⟩ => hopen id hid) Bool.false_ne_true
    | opened id hopen hinsert hvisible => exact iff_of_true ⟨id, hopen⟩ rfl
  -- the record, if its statements succeed
  have hrecorded (hrecords : input.Records (∃ id, (openRun input w).1 = .ok id) e.text) :
      Recorded input runId e.text w₁.db (recordedDb input runId e.text w₁.db) := by
    rw [hopened] at hrecords
    obtain ⟨db', hdb'⟩ := (recordFailure_returns_iff w₁.db).mpr hrecords
    rw [recordedDb, hdb']
    exact recorded_of_recordFailure hdb'
  exact
    { tables := ⟨htables.1.trans hdb.1.1, htables.2.trans hdb.1.2, htables.3.trans hdb.1.3⟩
      lastCommittedAt := hcommitted.trans (congrArg (Option.bind · _) hdb.2)
      lastSourceSnapshotAt := hsource.trans (congrArg (Option.bind · _) hdb.2)
      responseCache := hcache
      broadcasts := congrArg (· ++ _) hbroadcasts
      unlocked := rfl
      progress := rfl
      recorded := fun hrecords =>
        ⟨_, (hrecorded hrecords).syncState, rfl, rfl, e.text_ne_nil⟩
      audited := fun id hid hrecords => by
        cases h with
        | unopened hopen hvisible => exact absurd hid (hopen id)
        | opened id' hopen hinsert hvisible =>
          obtain rfl : id' = id := Except.ok.inj (hopen.symm.trans hid)
          obtain ⟨run, hfind, hcommittedAt⟩ := find_of_insertRun hinsert
          refine ⟨failedRun input.clock.failedAt e.text run,
            ((hrecorded hrecords).run id' rfl).trans ?_, rfl, rfl, hcommittedAt⟩
          rw [hfind]
          rfl }

/-- Failure atomicity: a run that raises, wherever that is, changes nothing that others can see but the
record of its failure, tells subscribers once, and leaves the process ready for the next run. -/
theorem runIngest_failed {py : PyLib} {input : RunInput ν} {w w' : World κ ν} {e : Exc}
    (h : runIngest py input w = (.error e, w')) :
    FailedRun input e w w' ∧
      ∀ (py₂ : PyLib) (input₂ : RunInput ν) (trigger : Str) (w'' : World κ ν),
        runIngest py₂ input₂ w' ≠ (.ok (.skipped trigger), w'') := by
  cases hlocked : w.runLocked with
  | true =>
    rw [runIngest_locked hlocked] at h
    cases h
  | false =>
    obtain ⟨w₂, hraise, rfl⟩ := of_runIngest hlocked h
    obtain ⟨runId, w₁, hat, rfl⟩ := of_guardedRun_error hraise
    have hopen : (openRun input (w.started input.clock.startedAt)).1 = (openRun input w).1 :=
      openRun_congr input rfl rfl
    have hfailed := hat.leaves e
    have hrecorded := hfailed.recorded
    have haudited := hfailed.audited
    rw [hopen] at hrecorded haudited
    refine ⟨{ hfailed with recorded := hrecorded, audited := haudited }, ?_⟩
    intro py₂ input₂ trigger w'' hskipped
    obtain ⟨w₃, hreturn, -⟩ := of_runIngest rfl hskipped
    obtain ⟨id, s, summary, w₄, w₅, w₆, -, -, -, -, -, houtcome⟩ := of_guardedRun_ok hreturn
    cases houtcome

/-- A run whose source raises. -/
def brokenSource : RunInput Unit := quietInput fun _ _ => .raised (lit "timeout")

/-- A process in which a first run has committed the sample. -/
def storedWorld : World Unit Unit :=
  (runIngest samplePy (quietInput fun _ _ => .returned (sampleJson 7) : RunInput Unit)
    (.start .empty 300)).2

/-- A run that fetches another number for the issue and loses the connection at its commit. -/
def brokenCommit : RunInput Unit :=
  { quietInput fun _ _ => .returned (sampleJson 8) with
    faults := fun p => if p = .commit then some ⟨lit "OperationalError", lit "timeout"⟩ else none }

/-- A run that fails at its commit, after every statement, leaves the issue that was stored, with its
number, and its failure. -/
theorem brokenCommit_failed :
    storedWorld.db.issues.rows.map Issue.number = [7] ∧
      (runIngest samplePy brokenCommit storedWorld).2.db.issues.rows.map Issue.number = [7] ∧
      FailedRun brokenCommit ⟨lit "OperationalError", lit "timeout"⟩ storedWorld
        (runIngest samplePy brokenCommit storedWorld).2 ∧
      ∀ (py₂ : PyLib) (input₂ : RunInput Unit) (trigger : Str) (w'' : World Unit Unit),
        runIngest py₂ input₂ (runIngest samplePy brokenCommit storedWorld).2 ≠
          (.ok (.skipped trigger), w'') :=
  ⟨rfl, rfl, runIngest_failed
    (show runIngest samplePy brokenCommit storedWorld = (.error _, _) from rfl)⟩

end Ghpulse.Ingest
