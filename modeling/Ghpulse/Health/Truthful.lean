import Ghpulse.Health.Payload
import Ghpulse.Ingest.Admission
import Ghpulse.Ingest.Stepwise

/-!
# Truthful sync status

`Truthful` relates the three places in which a run leaves its outcome, the progress in memory, the row of
`sync_state` and the audit rows, to the results of the runs so far. A run that is executed alone preserves
it, whether it returns or raises, so by the rule of serial runs it holds whenever no run is in flight,
however the calls of `run_ingest` interleave. The public views follow from it.

References: `backend/app.py`, `backend/api_dashboard.py`, `backend/ingest.py`.

The three places are written at different moments of a run, and a reader that comes in between can see
them disagree. The statement is therefore about the states in which no run is in flight. A failure that
could not be recorded is excluded by a hypothesis: it leaves the progress as the only place that knows of
it.
-/

open Python Effect Keyed Interleave Ghpulse.Ingest

namespace Ghpulse.Health

variable {κ ν μ : Type}

/-! ## The results so far

A skipped call did nothing, so it is no result. The last result decides the error and the status, and the
last commit the time.
-/

/-- The results that are those of a run: a skipped call is none. -/
def isRun : Except Exc Outcome → Bool
  | .ok (.skipped _) => false
  | _ => true

/-- What a result leaves as the last error. -/
def errorText : Except Exc Outcome → Option Str
  | .ok _ => none
  | .error e => some e.text

/-- What a result leaves as the last status. -/
def attemptStatus : Except Exc Outcome → Str
  | .ok _ => lit "success"
  | .error _ => lit "failure"

/-- When a result committed. -/
def commitTime : Except Exc Outcome → Option Instant
  | .ok (.finished summary) => some summary.committedAt
  | _ => none

variable (log : List (Except Exc Outcome))

/-- The error of the most recent run. -/
def lastError : Option Str := log.getLast?.bind errorText

/-- The commit time of the most recent run that succeeded. -/
def lastCommit : Option Instant := (log.filterMap commitTime).getLast?

/-- A run has completed, and the most recent one failed. -/
def LatestFailed : Prop := ∃ e, log.getLast? = some (.error e)

/-- The last result decides the last error. -/
theorem lastError_concat (result : Except Exc Outcome) :
    lastError (log ++ [result]) = errorText result := by
  rw [lastError, List.getLast?_concat, Option.bind_some]

/-- The last commit is that of the last result, if it committed. -/
theorem lastCommit_concat (result : Except Exc Outcome) :
    lastCommit (log ++ [result]) = (commitTime result).or (lastCommit log) := by
  rw [lastCommit, List.filterMap_append]
  cases h : commitTime result with
  | none => simp [h, lastCommit]
  | some t => simp [h]

variable {log}

/-- The most recent run failed exactly when it left an error. -/
theorem latestFailed_iff : LatestFailed log ↔ lastError log ≠ none := by
  unfold LatestFailed lastError
  cases log.getLast? with
  | none => simp
  | some result => cases result <;> simp [errorText]

/-- An error is never the empty text. -/
theorem truthy_errorText (result : Except Exc Outcome) :
    truthy (errorText result) = (errorText result).isSome := by
  cases result with
  | ok outcome => rfl
  | error e =>
    rw [errorText, Option.isSome_some]
    cases h : e.text with
    | nil => exact absurd h e.text_ne_nil
    | cons c cs => rfl

/-- An error is reported exactly when there is one. -/
theorem truthy_lastError : truthy (lastError log) = (lastError log).isSome := by
  unfold lastError
  cases log.getLast? with
  | none => rfl
  | some result => exact truthy_errorText result

/-! ## Audit rows

`/health` reads the audit row with the highest id. Ids are drawn in order, so it is that of the last run
that opened one.
-/

/-- Every audit row was given its id by the sequence. -/
def Below (w : World κ ν) : Prop := ∀ r ∈ w.db.ingestRuns.rows, r.id < w.nextRunId

/-- No audit row has a commit time. -/
def Uncommitted (db : Db) : Prop := ∀ r ∈ db.ingestRuns.rows, r.committedAt = none

/-- The next number stays above all audit rows. -/
theorem below_openRun {input : RunInput μ} {w w' : World κ ν} {result : Except Exc ℤ}
    (h : openRun input w = (result, w')) (hbelow : Below w) : Below w' := by
  intro r hr
  rcases openRun_sequence h with ⟨hdb, hle⟩ | ⟨hinsert, hnext⟩
  · rw [hdb] at hr
    exact (hbelow r hr).trans_le hle
  · obtain ⟨t, ht, hdb⟩ := Option.map_eq_some_iff.mp hinsert
    rw [← hdb, Table.rows_insert ht] at hr
    rw [hnext]
    rcases List.mem_append.mp hr with hr | hr
    · exact (hbelow r hr).trans (lt_add_one w.nextRunId)
    · obtain rfl := List.mem_singleton.mp hr
      exact lt_add_one w.nextRunId

/-- A new audit row is not committed. -/
theorem uncommitted_openRun {input : RunInput μ} {w w' : World κ ν} {result : Except Exc ℤ}
    (h : openRun input w = (result, w')) (huncommitted : Uncommitted w.db) : Uncommitted w'.db := by
  intro r hr
  rcases openRun_sequence h with ⟨hdb, -⟩ | ⟨hinsert, -⟩
  · rw [hdb] at hr
    exact huncommitted r hr
  · obtain ⟨t, ht, hdb⟩ := Option.map_eq_some_iff.mp hinsert
    rw [← hdb, Table.rows_insert ht] at hr
    rcases List.mem_append.mp hr with hr | hr
    · exact huncommitted r hr
    · rw [List.mem_singleton.mp hr]

/-- What a commit leaves in the audit row, in `sync_state` and in the progress. -/
theorem commitSnapshot_audit {input : RunInput μ} {runId : ℤ} {startedAt : Instant} {s : Snapshot}
    {summary : Summary} {w w' : World κ ν}
    (h : commitSnapshot input runId startedAt s w = (.ok summary, w')) :
    w'.db.syncState = some (committedState s.sourceAt summary.committedAt) ∧
      w'.db.ingestRuns.rows =
        w.db.ingestRuns.rows.map (Table.setAt (d := runDecl) runId (committedRun summary)) ∧
      w'.progress.phase = .committing := by
  obtain ⟨w₁, w₂, happly⟩ := of_commitSnapshot h
  obtain ⟨db₁, db₂, upserted, deleted, hreplace, hstate, rfl, hrun⟩ := of_applySnapshot happly
  obtain ⟨-, -, hruns, hsync⟩ := of_setSyncState hstate
  obtain ⟨hupdate, -, hsync'⟩ := of_updateRun hrun
  refine ⟨hsync'.trans hsync, ?_, ?_⟩
  · rw [Table.rows_update hupdate, hruns, ingestRuns_replaceTables hreplace]
  · unfold commitSnapshot at h
    have h := Prog.modify_bind.mp h
    obtain ⟨-, -, h⟩ := Prog.ofExcept_bind_eq_ok.mp h
    have h := Prog.get_bind.mp h
    obtain ⟨⟨db₃, summary⟩, w₃, htry, h⟩ := Prog.bind_eq_ok.mp h
    obtain ⟨-, rfl⟩ := Prod.mk.inj (Prog.modify_bind.mp h)
    -- the transaction only counts on
    have hphase : Prog.Keeps (fun w : World κ ν => w.progress.phase)
        (Prog.tryExcept (applySnapshot input runId startedAt s w.db) fun e => do
          Prog.ofExcept (input.reach .rollback)
          Prog.raise e) := by
      refine (keeps_applySnapshot (fun _ _ => rfl) input runId startedAt s w.db).tryExcept fun e => ?_
      exact (Prog.keeps_ofExcept _).bind fun _ => Prog.keeps_raise e
    have hkept := hphase { w with progress := { w.progress with
      phase := .committing
      total := s.repositories.length + s.issues.length + s.pullRequests.length
      done := 0 } }
    rw [htry] at hkept
    exact hkept

/-! ## The invariant

One clause for each place, and two about audit rows that make the next run's row the latest.
-/

/-- The progress, the row of `sync_state` and the audit rows agree with the results so far. -/
structure Truthful (w : World κ ν) (log : List (Except Exc Outcome)) : Prop where
  progress : w.progress = .reset (lastError log)
  sync : ∃ state, w.db.syncState = some state ∧ state.lastAttemptError = lastError log ∧
    state.lastAttemptStatus = log.getLast?.map attemptStatus ∧
    state.lastCommittedAt = lastCommit log
  below : Below w
  /-- Unless the most recent run failed, the latest audit row has no error. -/
  latest : lastError log = none → ∀ r ∈ latestRun w.db, r.error = none
  uncommitted : lastCommit log = none → Uncommitted w.db

/-- The initialised schema: empty tables, and the one row of `sync_state`. -/
def initialisedDb (updatedAt : Instant) : Db :=
  { Db.empty with syncState := some ⟨none, none, none, none, none, updatedAt⟩ }

/-- A fresh process over the initialised schema. -/
def World.initialised (updatedAt : Instant) (ttlSeconds : ℚ) : World κ ν :=
  .start (initialisedDb updatedAt) ttlSeconds

/-- A process that was just initialised is truthful. -/
theorem truthful_initialised (updatedAt : Instant) (ttlSeconds : ℚ) :
    Truthful (World.initialised updatedAt ttlSeconds : World κ ν) [] where
  progress := rfl
  sync := ⟨_, rfl, rfl, rfl, rfl⟩
  below := fun _ hr => absurd hr List.not_mem_nil
  latest := fun _ _ hr => absurd (mem_of_latestRun hr) List.not_mem_nil
  uncommitted := fun _ _ hr => absurd hr List.not_mem_nil

/-! ## A run that returns

It resets the progress, marks the success in `sync_state`, and its audit row has no error.
-/

/-- Setting an audit row keeps the numbers. -/
theorem id_setAt (id : ℤ) (summary : Summary) (r : IngestRun) :
    (Table.setAt (d := runDecl) id (committedRun summary) r).id = r.id := by
  unfold Table.setAt
  split_ifs <;> rfl

/-- An opened run has added one row, which has the number drawn for it. -/
theorem rows_of_openRun {input : RunInput μ} {w w' : World κ ν} {id : ℤ}
    (h : openRun input w = (.ok id, w')) :
    ∃ run, run.id = id ∧ id = w.nextRunId ∧
      w'.db.ingestRuns.rows = w.db.ingestRuns.rows ++ [run] := by
  obtain ⟨rfl, hinsert, -⟩ := of_openRun h
  obtain ⟨t, ht, hdb⟩ := Option.map_eq_some_iff.mp hinsert
  rw [← hdb]
  exact ⟨_, rfl, rfl, Table.rows_insert ht⟩

/-- The row that a run opens is the latest, and after its commit it has no error. -/
theorem latestRun_of_commit {input : RunInput μ} {w w₁ : World κ ν} {id : ℤ} {summary : Summary}
    {db : Db} (hopen : openRun input w = (.ok id, w₁)) (hbelow : Below w)
    (hrows : db.ingestRuns.rows =
      w₁.db.ingestRuns.rows.map (Table.setAt (d := runDecl) id (committedRun summary)))
    {r : IngestRun} (hr : latestRun db = some r) : r.error = none := by
  obtain ⟨run, hrun, hid, hopened⟩ := rows_of_openRun hopen
  have hkey : runDecl.key run = id := hrun
  rw [hopened, List.map_append, List.map_singleton] at hrows
  have hlast := le_of_latestRun hr (hrows ▸ List.mem_append_right _ (List.mem_singleton_self _))
  have hmem := mem_of_latestRun hr
  rw [hrows] at hmem
  rcases List.mem_append.mp hmem with hold | hnew
  · -- an older row has a smaller id
    obtain ⟨r₀, hr₀, rfl⟩ := List.mem_map.mp hold
    rw [id_setAt, id_setAt, hrun, hid] at hlast
    exact absurd (hbelow r₀ hr₀) (not_lt.mpr hlast)
  · rw [List.mem_singleton.mp hnew, Table.setAt, if_pos hkey]
    rfl

/-- A run that returns leaves the process truthful. -/
theorem Truthful.returned {py : PyLib} {input : RunInput μ} {w w' : World κ ν} {outcome : Outcome}
    {log : List (Except Exc Outcome)} (h : Truthful w log)
    (hrun : guardedRun py input (w.started input.clock.startedAt) = (.ok outcome, w')) :
    Truthful { settle w' with runLocked := false } (log ++ [.ok outcome]) := by
  obtain ⟨id, w₁, hopen, hopened⟩ := guardedRun_returns hrun
  obtain ⟨s, summary, w₂, w₃, -, hcommit, hdb₂, hdb, hprogress, rfl⟩ := of_runOpened_ok hopened
  obtain ⟨hsync, hrows, hphase⟩ := commitSnapshot_audit hcommit
  rw [hdb₂] at hrows
  have hsettle : settle w' = { w' with progress := .reset none } := by
    unfold settle
    rw [hprogress, hphase, if_neg (by decide)]
  have hseq : w'.nextRunId = w₁.nextRunId := by
    have hkept := nextRunId_runOpened py input id w₁
    rwa [hopened] at hkept
  have hbelow : Below (w.started input.clock.startedAt) := h.below
  rw [hsettle]
  constructor
  · rw [lastError_concat]
    rfl
  · refine ⟨_, (congrArg Db.syncState hdb).trans hsync, ?_, ?_, ?_⟩
    · rw [lastError_concat]
      rfl
    · rw [List.getLast?_concat]
      rfl
    · rw [lastCommit_concat]
      rfl
  · intro r hr
    have hr : r ∈ w'.db.ingestRuns.rows := hr
    rw [hdb, hrows] at hr
    obtain ⟨r₀, hr₀, rfl⟩ := List.mem_map.mp hr
    rw [id_setAt]
    exact (below_openRun hopen hbelow r₀ hr₀).trans_eq hseq.symm
  · intro _ r hr
    exact latestRun_of_commit hopen hbelow ((congrArg (fun db => db.ingestRuns.rows) hdb).trans hrows) hr
  · intro hnone
    rw [lastCommit_concat] at hnone
    cases hnone

/-! ## A run that raises

The handler writes the same text to the progress and to `sync_state`, and to the audit row if there is
one.
-/

/-- A failure that could be recorded is in `sync_state`, and the commit times are as before. -/
theorem Truthful.recorded {input : RunInput μ} {w w₁ : World κ ν} {runId : Option ℤ} {e : Exc}
    {db : Db} {log : List (Except Exc Outcome)} (h : Truthful w log)
    (hrecord : recordFailure input runId e.text w₁.db = .ok db)
    (hsync : w₁.db.syncState = w.db.syncState) (hbelow : Below w₁)
    (huncommitted : Uncommitted w.db → Uncommitted w₁.db) :
    Truthful { settle (w₁.failed input runId e) with runLocked := false } (log ++ [.error e]) := by
  have hdb : (w₁.failed input runId e).db = db := by
    rw [World.failed, recordedDb, hrecord]
  have hsettle : settle (w₁.failed input runId e) = w₁.failed input runId e := if_pos rfl
  have hrows := rows_of_recordFailure hrecord
  obtain ⟨state, hstate, -, -, hcommitted⟩ := h.sync
  have hrecorded := (recorded_of_recordFailure hrecord).syncState
  rw [hsettle]
  constructor
  · rw [lastError_concat]
    rfl
  · refine ⟨_, (congrArg Db.syncState hdb).trans hrecorded, ?_, ?_, ?_⟩
    · rw [lastError_concat]
      rfl
    · rw [List.getLast?_concat]
      rfl
    · rw [lastCommit_concat, hsync, hstate]
      exact hcommitted
  · intro r hr
    have hr : r ∈ (w₁.failed input runId e).db.ingestRuns.rows := hr
    rw [hdb, hrows] at hr
    obtain ⟨r₀, hr₀, rfl⟩ := List.mem_map.mp hr
    rw [(failedRow_keeps _ _ _ r₀).1]
    exact hbelow r₀ hr₀
  · intro hnone
    rw [lastError_concat] at hnone
    cases hnone
  · intro hnone r hr
    have hr : r ∈ (w₁.failed input runId e).db.ingestRuns.rows := hr
    rw [hdb, hrows] at hr
    obtain ⟨r₀, hr₀, rfl⟩ := List.mem_map.mp hr
    rw [(failedRow_keeps _ _ _ r₀).2]
    rw [lastCommit_concat] at hnone
    exact huncommitted (h.uncommitted hnone) r₀ hr₀

/-- A run that is executed alone, and whose failure could be recorded, preserves the invariant. -/
theorem Truthful.run {py : PyLib} {input : RunInput μ} {w w' : World κ ν}
    {result : Except Exc Outcome} {log : List (Except Exc Outcome)} (h : Truthful w log)
    (hfree : w.runLocked = false)
    (hsound : (Stepwise.runIngest py input : Program Exc (World κ ν) _).Sound w)
    (hrun : (Stepwise.runIngest py input).run w = (result, w')) :
    Truthful w' (log ++ [result]) := by
  rw [Stepwise.run_runIngest] at hrun
  obtain ⟨w₁, hguarded, rfl⟩ := of_runIngest hfree hrun
  cases result with
  | ok outcome => exact h.returned hguarded
  | error e =>
    have hstarted : Below (w.started input.clock.startedAt) := h.below
    have hstarted' (hnone : Uncommitted w.db) :
        Uncommitted (w.started input.clock.startedAt).db := hnone
    rcases Stepwise.guardedRun_recorded (Stepwise.sound_guardedRun hfree hsound) hguarded with
      ⟨w₂, db, hopen, hrecord, rfl⟩ | ⟨id, w₂, w₃, db, hopen, hopened, hrecord, rfl⟩
    · have hvisible := openRun_atomic input _ e w₂ hopen
      exact h.recorded hrecord (congrArg (fun v => v.db.syncState) hvisible)
        (below_openRun hopen hstarted) fun hnone => uncommitted_openRun hopen (hstarted' hnone)
    · have hdb : w₃.db = w₂.db :=
        congrArg Visible.db (runOpened_atomic py input id w₂ e w₃ hopened)
      have hseq : w₃.nextRunId = w₂.nextRunId := by
        have hkept := nextRunId_runOpened py input id w₂
        rwa [hopened] at hkept
      have hbelow : Below w₃ := by
        intro r hr
        rw [hdb] at hr
        exact (below_openRun hopen hstarted r hr).trans_eq hseq.symm
      have hsync : w₃.db.syncState = w.db.syncState := by
        rw [hdb]
        exact (of_insertRun (of_openRun hopen).2.1).2
      exact h.recorded hrecord hsync hbelow fun hnone =>
        hdb ▸ uncommitted_openRun hopen (hstarted' hnone)

/-! ## Histories

The lock of `run_ingest` serialises the runs, so a history reaches the states that runs one after the
other reach.
-/

/-- The calls of `run_ingest` exclude each other, and each of them preserves the invariant. -/
theorem exclusive_runIngest (py : PyLib) : Exclusive (World.runLocked : World κ ν → Bool)
    Stepwise.lock (fun input : RunInput μ => .skipped input.trigger)
    (fun input => Stepwise.lockedRun py input) isRun Truthful where
  held_lock _ := rfl
  critical input := Stepwise.critical_lockedRun py input
  skips _ := rfl
  runs input w w' result hfree hrun := by
    have hrun : (Stepwise.runIngest py input).run w = (result, w') := hrun
    rw [Stepwise.run_runIngest] at hrun
    obtain ⟨w₁, hguarded, rfl⟩ := of_runIngest hfree hrun
    cases result with
    | error e => rfl
    | ok outcome =>
      obtain ⟨id, s, summary, w₂, w₃, w₄, -, -, -, -, -, rfl⟩ := of_guardedRun_ok hguarded
      rfl
  preserves _ _ _ _ _ h hfree hsound hrun := h.run hfree hsound hrun

/-- The process after a history of calls, as the scheduler has interleaved them. -/
def reached (py : PyLib) (w : World κ ν) (history : List (Action (RunInput μ))) :
    Option (State Exc (World κ ν) Outcome) :=
  Runs.run (step (Stepwise.runIngest py)) (.init w) history

/-- In every run of the history that fails, the statements that record the failure succeed. -/
def FailuresRecorded (py : PyLib) (w : World κ ν) (history : List (Action (RunInput μ))) : Prop :=
  Runs.Guarded (step (Stepwise.runIngest py)) Succeeds
    (.init w : State Exc (World κ ν) Outcome) history

/-- The results of the runs of a history, in order, without the skipped calls. -/
def results (py : PyLib) (w : World κ ν) (history : List (Action (RunInput μ))) :
    List (Except Exc Outcome) :=
  Runs.record (step (Stepwise.runIngest py)) (completed isRun (Stepwise.runIngest py)) (.init w) history

/-- What the public views of a process say, given the results of its runs. -/
structure TruthfulViews (w : World κ ν) (payload : Payload) (log : List (Except Exc Outcome)) :
    Prop where
  health : payload.lastErrorCode = some syncFailureCode ↔ LatestFailed log
  overlay : (syncStatus w.db.syncState).syncErrorCode = some syncFailureCode ↔ LatestFailed log
  /-- The two views agree, in the codes and in the texts. -/
  codes_agree : payload.lastErrorCode = (syncStatus w.db.syncState).syncErrorCode ∧
    payload.lastAttempt.code = (syncStatus w.db.syncState).syncErrorCode
  texts_agree : payload.lastError = (syncStatus w.db.syncState).syncError ∧
    payload.lastAttempt.error = (syncStatus w.db.syncState).syncError
  marker : ∃ state, w.db.syncState = some state ∧
    (state.lastAttemptStatus = some (lit "failure") ↔ state.lastAttemptError ≠ none)
  lastSuccess : payload.lastSuccess = lastCommit log
  lastCommittedAt : Dashboard.lastIngest w.db = lastCommit log

/-- The status is a failure exactly when there is an error. -/
theorem Truthful.status_iff {w : World κ ν} {log : List (Except Exc Outcome)} (h : Truthful w log)
    {state : SyncState} (hstate : w.db.syncState = some state) :
    state.lastAttemptStatus = some (lit "failure") ↔ state.lastAttemptError ≠ none := by
  obtain ⟨state', hstate', herror, hstatus, -⟩ := h.sync
  obtain rfl : state' = state := Option.some.inj (hstate'.symm.trans hstate)
  rw [herror, hstatus, lastError]
  have hne : lit "success" ≠ lit "failure" := by decide
  cases log.getLast? with
  | none => simp
  | some result => cases result <;> simp [errorText, attemptStatus, hne]

/-- The sync error of `/health` is that of the most recent run. -/
theorem Truthful.hasSyncError_eq {w : World κ ν} {log : List (Except Exc Outcome)}
    (h : Truthful w log) :
    hasSyncError (latestRun w.db) w.db.syncState w.progress = (lastError log).isSome := by
  obtain ⟨state, hstate, herror, -, -⟩ := h.sync
  have hstatus := h.status_iff hstate
  unfold hasSyncError
  rw [h.progress, hstate, Option.bind_some, Option.bind_some, herror]
  cases hlast : lastError log with
  | some error =>
    have htruthy : truthy (lastError log) = true := by
      rw [truthy_lastError, hlast]
      rfl
    rw [hlast] at htruthy
    rw [Progress.reset, htruthy]
    rfl
  | none =>
    have hrow : truthy ((latestRun w.db).bind IngestRun.error) = false := by
      cases hr : latestRun w.db with
      | none => rfl
      | some r =>
        rw [Option.bind_some, h.latest hlast r hr]
        rfl
    have hnot : ¬ state.lastAttemptStatus = some (lit "failure") := by
      rw [hstatus, herror, hlast]
      exact fun hne => hne rfl
    rw [hrow, decide_eq_false hnot]
    rfl

/-- What the invariant means for the public views. -/
theorem Truthful.views {w : World κ ν} {log : List (Except Exc Outcome)} (h : Truthful w log)
    {env : Env} {payload : Payload}
    (hpayload : healthPayload env (latestRun w.db) w.db.syncState w.progress = .ok payload) :
    TruthfulViews w payload log := by
  obtain ⟨herror, hcode, hattemptError, hattemptCode, hsuccess⟩ := healthPayload_reports hpayload
  obtain ⟨state, hstate, hlastError, -, hcommitted⟩ := h.sync
  have hstatus := h.status_iff hstate
  -- the two conditions of the overlay say the same here
  have hfailed : (decide (state.lastAttemptStatus = some (lit "failure")) ||
      truthy state.lastAttemptError) = (lastError log).isSome := by
    rw [hlastError, truthy_lastError]
    cases hlast : lastError log with
    | none => rw [decide_eq_false (by rw [hstatus, hlastError, hlast]; exact fun hne => hne rfl)]; rfl
    | some error => exact Bool.or_true _
  have hoverlay : syncStatus w.db.syncState =
      { syncStatus := state.lastAttemptStatus
        syncLastAttemptAt := state.lastAttemptAt
        syncErrorCode := if (lastError log).isSome then some syncFailureCode else none
        syncError := if (lastError log).isSome then some syncFailureMessage else none } := by
    rw [hstate, ← hfailed]
    rfl
  have hreports : (if (lastError log).isSome then some syncFailureCode else none) =
      some syncFailureCode ↔ LatestFailed log := by
    rw [latestFailed_iff]
    cases lastError log <;> simp
  rw [h.hasSyncError_eq] at herror hcode
  exact
    { health := by rw [hcode]; exact hreports
      overlay := by rw [hoverlay]; exact hreports
      codes_agree := by rw [hattemptCode, hcode, hoverlay]; exact ⟨rfl, rfl⟩
      texts_agree := by rw [hattemptError, herror, hoverlay]; exact ⟨rfl, rfl⟩
      marker := ⟨state, hstate, hstatus⟩
      -- without a commit in `sync_state` the audit row is read, which has none either
      lastSuccess := by
        rw [hsuccess, lastSuccessValue, hstate, Option.bind_some, hcommitted]
        cases hlast : lastCommit log with
        | some t => rfl
        | none =>
          cases hr : latestRun w.db with
          | none => rfl
          | some r => exact h.uncommitted hlast r (mem_of_latestRun hr)
      lastCommittedAt := by
        rw [Dashboard.lastIngest, hstate]
        exact hcommitted }

section History

variable {py : PyLib} {updatedAt : Instant} {ttlSeconds : ℚ} {history : List (Action (RunInput μ))}
  {s : State Exc (World κ ν) Outcome}

/-- The invariant holds in every state that the calls of `run_ingest` reach from the initialised schema,
as long as failures can be recorded. -/
theorem serial_history
    (hrecorded : FailuresRecorded py (World.initialised updatedAt ttlSeconds : World κ ν) history)
    (hreached : reached py (World.initialised updatedAt ttlSeconds) history = some s) :
    Serial World.runLocked (fun input : RunInput μ => Stepwise.runIngest py input) Truthful s
      (results py (World.initialised updatedAt ttlSeconds : World κ ν) history) :=
  Serial.run (exclusive_runIngest py) (truthful_initialised updatedAt ttlSeconds) rfl hrecorded hreached

/-- Truthful sync status: however the calls of `run_ingest` interleave, whenever no run is in flight,
`/health` and the overlay report a sync error exactly if a run has completed and the most recent one
failed, and they date the last success by the most recent run that succeeded. -/
theorem syncStatus_truthful
    (hrecorded : FailuresRecorded py (World.initialised updatedAt ttlSeconds : World κ ν) history)
    (hreached : reached py (World.initialised updatedAt ttlSeconds) history = some s)
    (hidle : s.shared.runLocked = false) {env : Env} {payload : Payload}
    (hpayload : healthPayload env (latestRun s.shared.db) s.shared.db.syncState s.shared.progress =
      .ok payload) :
    TruthfulViews s.shared payload
      (results py (World.initialised updatedAt ttlSeconds : World κ ν) history) :=
  ((serial_history hrecorded hreached).of_free hidle).views hpayload

end History

/-! ## A history -/

/-- A run fails in its source, and meanwhile another call is skipped. -/
def failedHistory : List (Action (RunInput Unit)) :=
  [.call 0 brokenSource, .step 0, .call 1 brokenSource, .step 1] ++ List.replicate 8 (.step 0)

/-- The process before it. -/
def freshWorld : World Unit Unit := World.initialised 0 300

/-- The environment of a request of `/health`. -/
def sampleEnv : Env := ⟨lit "1", .ok 7200000000, 0, 0⟩

/-- In the history the failure is recorded. -/
theorem failuresRecorded_failedHistory : FailuresRecorded samplePy freshWorld failedHistory := by
  refine ⟨trivial, fun _ h => ?_⟩
  cases h
  refine ⟨fun op next ht => by cases ht; rfl, fun _ h => ?_⟩
  cases h
  refine ⟨trivial, fun _ h => ?_⟩
  cases h
  iterate 9
    refine ⟨fun op next ht => by cases ht; rfl, fun _ h => ?_⟩
    cases h
  trivial

/-- After the history both views report the failure. -/
theorem failedHistory_truthful :
    ∃ s payload, reached samplePy freshWorld failedHistory = some s ∧ s.shared.runLocked = false ∧
      healthPayload sampleEnv (latestRun s.shared.db) s.shared.db.syncState s.shared.progress =
        .ok payload ∧
      TruthfulViews s.shared payload (results samplePy freshWorld failedHistory) ∧
      LatestFailed (results samplePy freshWorld failedHistory) := by
  have hlimit : sampleEnv.staleAfter = .ok 7200000000 := rfl
  obtain ⟨payload, hpayload⟩ := healthPayload_returns hlimit _ _ _
  exact ⟨_, payload, rfl, rfl, hpayload,
    syncStatus_truthful failuresRecorded_failedHistory rfl rfl hpayload, _, rfl⟩

end Ghpulse.Health
