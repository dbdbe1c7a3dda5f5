import Ghpulse.Health.Truthful
import Ghpulse.Ingest.History

/-!
# The ledger

What the runs of a process leave for good, as an abstract machine: the audit table, the row of
`sync_state`, the current state and the announcements. A completed run is one step of the ledger, which
appends to the audit table and never changes an earlier row. Whatever interleaving the calls of
`run_ingest` take, and whatever fails on the way, also the record of a failure, the process refines the
ledger: once no run is in flight, the completed runs are a trace of it.

Reference: `backend/ingest.py`.
-/

open Python Effect Keyed Interleave Ghpulse.Ingest Ghpulse.Health

namespace Ghpulse.System

variable {κ ν μ : Type}

/-! ## The abstract machine

A completed run takes one of three steps: it fails before its audit row exists, fails after that, or
commits. A skipped run takes none.
-/

/-- What the runs of a process leave for good. -/
structure Ledger where
  runs : List IngestRun
  syncState : Option SyncState
  currentState : CurrentState
  broadcasts : List Broadcast

/-- The ledger of a process. -/
def Ledger.ofWorld (w : World κ ν) : Ledger :=
  ⟨w.db.ingestRuns.rows, w.db.syncState, w.db.currentState, w.broadcasts⟩

/-- A row of `ingest_runs` as `_open_run` inserts it. -/
def openedRun (id : ℤ) (trigger : Str) (startedAt : Instant) : IngestRun where
  id := id
  trigger := trigger
  startedAt := startedAt
  finishedAt := none
  committedAt := none
  sourceSnapshotAt := none
  fetched := ⟨0, 0, 0⟩
  upserted := ⟨0, 0, 0⟩
  deleted := ⟨0, 0, 0⟩
  dataChanged := false
  error := none

/-- The number of a new row is above those of all others. -/
def Ledger.Fresh (ledger : Ledger) (id : ℤ) : Prop := ∀ r ∈ ledger.runs, r.id < id

/-- What a summary says about the run, the snapshot and the state before. -/
structure Ledger.Summarizes (ledger : Ledger) (run : IngestRun) (s : Snapshot) (summary : Summary) :
    Prop where
  id : summary.id = run.id
  startedAt : summary.startedAt = run.startedAt
  trigger : summary.trigger = some run.trigger
  sourceSnapshotAt : summary.sourceSnapshotAt = s.sourceAt
  fetched : summary.fetched = s.fetched
  dataChanged : summary.dataChanged = true ↔ s.currentState ≠ ledger.currentState
  error : summary.error = none
  skipped : summary.skipped = false

/-- The row of `sync_state` after a failure, which may have gone unrecorded. -/
def Ledger.failedSync (ledger : Ledger) (recorded : Bool) (failedAt : Instant) (error : Str) :
    Option SyncState :=
  if recorded then some (failedState ledger.syncState failedAt error) else ledger.syncState

/-- A completed run, with its result. -/
inductive Ledger.Step (py : PyLib) (ledger : Ledger) : Except Exc Outcome → Ledger → Prop where
  /-- The audit row could not be opened. -/
  | unopened (e : Exc) (recorded : Bool) (failedAt : Instant) (payload : FailurePayload) :
      Ledger.Step py ledger (.error e)
        { ledger with
          syncState := ledger.failedSync recorded failedAt e.text
          broadcasts := ledger.broadcasts ++ [.ingestFailed payload] }
  /-- The run failed after its audit row. -/
  | failed (e : Exc) (recorded : Bool) (failedAt : Instant) (payload : FailurePayload) (id : ℤ)
      (startedAt : Instant) (hfresh : ledger.Fresh id) :
      Ledger.Step py ledger (.error e)
        { ledger with
          runs := ledger.runs ++
            [if recorded then failedRun failedAt e.text (openedRun id payload.trigger startedAt)
              else openedRun id payload.trigger startedAt]
          syncState := ledger.failedSync recorded failedAt e.text
          broadcasts := ledger.broadcasts ++ [.ingestFailed payload] }
  /-- The run committed a snapshot. -/
  | committed (id : ℤ) (trigger : Str) (startedAt : Instant) (hfresh : ledger.Fresh id) (s : Snapshot)
      (hs : s.Accepted py) (summary : Summary)
      (hsummary : ledger.Summarizes (openedRun id trigger startedAt) s summary) :
      Ledger.Step py ledger (.ok (.finished summary))
        { runs := ledger.runs ++ [committedRun summary (openedRun id trigger startedAt)]
          syncState := some (committedState s.sourceAt summary.committedAt)
          currentState := s.currentState
          broadcasts := ledger.broadcasts ++ [.ingestDone summary] }

/-! ## What a trace of the ledger adds up to

Statements about the ledger alone, without any program. They are proved by induction on the trace, one
completed run after the other.
-/

/-- The announcement of a completed run is of its result. -/
def Announces : Except Exc Outcome → Broadcast → Prop
  | .ok (.finished summary), broadcast => broadcast = .ingestDone summary
  | .ok (.skipped _), _ => False
  | .error _, broadcast => ∃ payload, broadcast = .ingestFailed payload

/-- The commit times of a list of audit rows, in order. -/
def commitTimes (runs : List IngestRun) : List Instant := runs.filterMap IngestRun.committedAt

/-- The current state is the one before, or that of the accepted snapshot committed last. -/
inductive Ledger.ShowsLast (py : PyLib) (before : Ledger) (log : List (Except Exc Outcome))
    (after : Ledger) : Prop where
  | unchanged (hnone : lastCommit log = none) (hstate : after.currentState = before.currentState)
  | committed (s : Snapshot) (hs : s.Accepted py) (t : Instant) (hlast : lastCommit log = some t)
      (hstate : after.currentState = s.currentState)

/-- What a ledger owes to the results of the runs since an earlier one. -/
structure Ledger.Accounts (py : PyLib) (before : Ledger) (log : List (Except Exc Outcome))
    (after : Ledger) : Prop where
  /-- No audit row is changed or lost once its run is over, and the committed ones are the successes. -/
  runs : ∃ news, after.runs = before.runs ++ news ∧ commitTimes news = log.filterMap commitTime
  /-- One announcement for each completed run. -/
  broadcasts : ∃ news, after.broadcasts = before.broadcasts ++ news ∧ List.Forall₂ Announces log news
  ordered : before.runs.Pairwise (fun r r' => r.id < r'.id) →
    after.runs.Pairwise fun r r' => r.id < r'.id
  currentState : before.ShowsLast py log after
  lastCommittedAt : after.syncState.bind SyncState.lastCommittedAt =
    (lastCommit log).or (before.syncState.bind SyncState.lastCommittedAt)

theorem Ledger.Accounts.refl (py : PyLib) (ledger : Ledger) : ledger.Accounts py [] ledger where
  runs := ⟨[], (List.append_nil _).symm, rfl⟩
  broadcasts := ⟨[], (List.append_nil _).symm, .nil⟩
  ordered h := h
  currentState := .unchanged rfl rfl
  lastCommittedAt := rfl

/-- A new row keeps the ids increasing. -/
theorem Ledger.Fresh.pairwise {ledger : Ledger} {run : IngestRun} (h : ledger.Fresh run.id)
    (hordered : ledger.runs.Pairwise fun r r' => r.id < r'.id) :
    (ledger.runs ++ [run]).Pairwise fun r r' => r.id < r'.id := by
  rw [List.pairwise_append]
  refine ⟨hordered, List.pairwise_singleton _ _, fun r hr r' hr' => ?_⟩
  rw [List.mem_singleton.mp hr']
  exact h r hr

theorem Ledger.failedSync_lastCommittedAt (ledger : Ledger) (recorded : Bool) (failedAt : Instant)
    (error : Str) : (ledger.failedSync recorded failedAt error).bind SyncState.lastCommittedAt =
      ledger.syncState.bind SyncState.lastCommittedAt := by
  cases recorded <;> rfl

/-- The result of a failed run adds no commit. -/
theorem lastCommit_error (log : List (Except Exc Outcome)) (e : Exc) :
    lastCommit (log ++ [.error e]) = lastCommit log :=
  lastCommit_concat log (.error e)

theorem Ledger.ShowsLast.failed {py : PyLib} {before mid after : Ledger}
    {log : List (Except Exc Outcome)} {e : Exc} (h : before.ShowsLast py log mid)
    (hstate : after.currentState = mid.currentState) :
    before.ShowsLast py (log ++ [.error e]) after := by
  cases h with
  | unchanged hnone hsame =>
    exact .unchanged ((lastCommit_error log e).trans hnone) (hstate.trans hsame)
  | committed s hs t hlast hshown =>
    exact .committed s hs t ((lastCommit_error log e).trans hlast) (hstate.trans hshown)

/-- What a step of the ledger owes to its result. -/
theorem Ledger.Accounts.concat {py : PyLib} {before mid after : Ledger}
    {log : List (Except Exc Outcome)} {result : Except Exc Outcome} (h : before.Accounts py log mid)
    (hstep : mid.Step py result after) : before.Accounts py (log ++ [result]) after := by
  obtain ⟨runs, hruns, htimes⟩ := h.runs
  obtain ⟨broadcasts, hbroadcasts, hannounced⟩ := h.broadcasts
  have hcommits : (log ++ [result]).filterMap commitTime =
      log.filterMap commitTime ++ [result].filterMap commitTime := List.filterMap_append
  have hnews (run : IngestRun) : commitTimes (runs ++ [run]) = commitTimes runs ++ commitTimes [run] :=
    List.filterMap_append
  cases hstep with
  -- no audit row, so the table is as it was
  | unopened e recorded failedAt payload =>
    refine ⟨⟨runs, hruns, ?_⟩, ?_, h.ordered, h.currentState.failed rfl, ?_⟩
    · rw [hcommits, htimes]
      exact (List.append_nil _).symm
    · refine ⟨broadcasts ++ [.ingestFailed payload], ?_, ?_⟩
      · rw [hbroadcasts, List.append_assoc]
      · exact List.rel_append hannounced (.cons ⟨payload, rfl⟩ .nil)
    · rw [lastCommit_error, ← h.lastCommittedAt]
      exact mid.failedSync_lastCommittedAt recorded failedAt e.text
  -- an audit row without a commit time, whether or not the failure was recorded
  | failed e recorded failedAt payload id startedAt hfresh =>
    refine ⟨⟨runs ++ [_], by rw [hruns, List.append_assoc], ?_⟩, ?_, fun hordered => ?_,
      h.currentState.failed rfl, ?_⟩
    · rw [hcommits, hnews, htimes]
      cases recorded <;> rfl
    · refine ⟨broadcasts ++ [.ingestFailed payload], ?_, ?_⟩
      · rw [hbroadcasts, List.append_assoc]
      · exact List.rel_append hannounced (.cons ⟨payload, rfl⟩ .nil)
    · refine Fresh.pairwise ?_ (h.ordered hordered)
      cases recorded <;> exact hfresh
    · rw [lastCommit_error, ← h.lastCommittedAt]
      exact mid.failedSync_lastCommittedAt recorded failedAt e.text
  | committed id trigger startedAt hfresh s hs summary hsummary =>
    have hlast : lastCommit (log ++ [.ok (.finished summary)]) = some summary.committedAt :=
      lastCommit_concat log _
    refine ⟨⟨runs ++ [_], by rw [hruns, List.append_assoc], ?_⟩, ?_, fun hordered => ?_,
      .committed s hs _ hlast rfl, ?_⟩
    · rw [hcommits, hnews, htimes]
      rfl
    · refine ⟨broadcasts ++ [.ingestDone summary], ?_, ?_⟩
      · rw [hbroadcasts, List.append_assoc]
      · exact List.rel_append hannounced (.cons rfl .nil)
    · have hid : mid.Fresh (committedRun summary (openedRun id trigger startedAt)).id := hfresh
      exact hid.pairwise (h.ordered hordered)
    · rw [hlast]
      rfl

/-- The run lemma of the ledger. -/
theorem Ledger.accounts_of_trace {py : PyLib} {before after : Ledger}
    {log : List (Except Exc Outcome)} (h : Runs.Trace (Ledger.Step py) before log after) :
    before.Accounts py log after := by
  induction h with
  | nil => exact .refl py before
  | concat _ hstep ih => exact ih.concat hstep

/-! ## A run is a step of the ledger

The three ways in which a run can end are the three steps. In each case the four parts of the ledger are
read off the final state of the run.
-/

/-- A commit announces nothing. -/
theorem broadcasts_commitSnapshot (input : RunInput μ) (runId : ℤ) (startedAt : Instant) (s : Snapshot) :
    Prog.Keeps (World.broadcasts : World κ ν → List Broadcast)
      (commitSnapshot input runId startedAt s) := by
  unfold commitSnapshot
  refine Prog.Keeps.bind (Prog.keeps_modify fun _ => rfl) fun _ => ?_
  refine (Prog.keeps_ofExcept _).bind fun _ => ?_
  refine Prog.keeps_get.bind fun w => ?_
  refine Prog.Keeps.bind ?_ fun _ => ?_
  · refine (keeps_applySnapshot (fun _ _ => rfl) input runId startedAt s w.db).tryExcept fun e => ?_
    exact (Prog.keeps_ofExcept _).bind fun _ => Prog.keeps_raise e
  · exact Prog.Keeps.bind (Prog.keeps_modify fun _ => rfl) fun _ => Prog.keeps_pure _

/-- An opened run that returns has announced its summary. -/
theorem broadcasts_runOpened {py : PyLib} {input : RunInput μ} {runId : ℤ} {w w' : World κ ν}
    {outcome : Outcome} (h : runOpened py input runId w = (.ok outcome, w')) :
    ∃ summary, outcome = .finished summary ∧
      w'.broadcasts = w.broadcasts ++ [.ingestDone summary] := by
  have h := Prog.modify_bind.mp h
  obtain ⟨s, -, h⟩ := Prog.ofExcept_bind_eq_ok.mp h
  have h := Prog.modify_bind.mp h
  obtain ⟨summary, w₂, hcommit, h⟩ := Prog.bind_eq_ok.mp h
  have hkept := broadcasts_commitSnapshot input runId input.clock.startedAt s
    { w with progress := { w.progress with
      phase := .validated
      total := s.repositories.length + s.issues.length + s.pullRequests.length
      done := 0
      runId := some runId } }
  cases Prog.modify_bind.mp h
  refine ⟨{ summary with trigger := some input.trigger }, rfl, ?_⟩
  have hcommit' : (commitSnapshot input runId input.clock.startedAt s _).2 = w₂ :=
    congrArg Prod.snd hcommit
  exact congrArg (· ++ _) ((congrArg World.broadcasts hcommit').symm.trans hkept)

/-- An opened run has added one row, as it was inserted. -/
theorem runs_openRun {input : RunInput μ} {w w' : World κ ν} {id : ℤ}
    (h : openRun input w = (.ok id, w')) :
    id = w.nextRunId ∧ w'.db.ingestRuns.rows =
      w.db.ingestRuns.rows ++ [openedRun id input.trigger input.clock.startedAt] := by
  obtain ⟨hid, hinsert, -⟩ := of_openRun h
  obtain ⟨t, ht, hdb⟩ := Option.map_eq_some_iff.mp hinsert
  rw [← hdb]
  exact ⟨hid, Table.rows_insert ht⟩

/-- A change of the row that was just opened changes no other. -/
theorem map_opened {rows : List IngestRun} {run : IngestRun} {f : IngestRun → IngestRun}
    {g : IngestRun → IngestRun} (hrows : ∀ r ∈ rows, r.id < run.id)
    (hold : ∀ r, r.id ≠ run.id → f r = r) (hnew : f run = g run) :
    (rows ++ [run]).map f = rows ++ [g run] := by
  rw [List.map_append, List.map_singleton, hnew]
  congr 1
  refine (List.map_congr_left fun r hr => ?_).trans (List.map_id rows)
  exact hold r (hrows r hr).ne

theorem nextRunId_of_runOpened {py : PyLib} {input : RunInput μ} {id : ℤ} {w w' : World κ ν}
    {result : Except Exc Outcome} (h : runOpened py input id w = (result, w')) :
    w'.nextRunId = w.nextRunId :=
  (congrArg World.nextRunId (congrArg Prod.snd h)).symm.trans (nextRunId_runOpened py input id w)

/-- What `_commit_snapshot` puts into its summary. -/
theorem summary_of_commitSnapshot {input : RunInput μ} {runId : ℤ} {startedAt : Instant} {s : Snapshot}
    {summary : Summary} {w w' : World κ ν}
    (h : commitSnapshot input runId startedAt s w = (.ok summary, w')) :
    ∃ upserted deleted, summary = commitSummary input.clock runId startedAt s upserted deleted := by
  obtain ⟨w₁, w₂, happly⟩ := of_commitSnapshot h
  obtain ⟨-, -, upserted, deleted, -, -, hsummary, -⟩ := of_applySnapshot happly
  exact ⟨upserted, deleted, hsummary⟩

/-- The numbers drawn stay above those of the rows when the rows keep their numbers. -/
theorem below_of_ids {w w' : World κ ν} (h : Below w) (hnext : w'.nextRunId = w.nextRunId)
    (hids : w'.db.ingestRuns.rows.map IngestRun.id = w.db.ingestRuns.rows.map IngestRun.id) :
    Below w' := by
  intro r hr
  have hmem : r.id ∈ w.db.ingestRuns.rows.map IngestRun.id := hids ▸ List.mem_map_of_mem hr
  obtain ⟨r₀, hr₀, hid⟩ := List.mem_map.mp hmem
  rw [hnext, ← hid]
  exact h r₀ hr₀

/-- A run that returns is a step that commits. -/
theorem Ledger.Step.of_returned {py : PyLib} {input : RunInput ν} {w w' : World κ ν} {outcome : Outcome}
    (hbelow : Below w)
    (hrun : guardedRun py input (w.started input.clock.startedAt) = (.ok outcome, w')) :
    (Ledger.ofWorld w).Step py (.ok outcome) (.ofWorld w') ∧ Below w' := by
  obtain ⟨id, w₁, hopen, hopened⟩ := guardedRun_returns hrun
  obtain ⟨s, summary, w₂, w₃, hacquired, hcommit, hdb₂, hdb, -, rfl⟩ := of_runOpened_ok hopened
  obtain ⟨summary', houtcome, hbroadcasts⟩ := broadcasts_runOpened hopened
  obtain ⟨hid, hrows⟩ := runs_openRun hopen
  obtain ⟨hsync, hcommitted, -⟩ := commitSnapshot_audit hcommit
  obtain ⟨hs, -⟩ := accepted_of_acquireValidated hacquired
  have hreplaced := committed_of_commitSnapshot hs hcommit
  obtain ⟨upserted, deleted, hsummary⟩ := summary_of_commitSnapshot hcommit
  have hvisible := (of_openRun hopen).2.2
  have hbroadcasts₁ : w₁.broadcasts = w.broadcasts := congrArg Visible.broadcasts hvisible
  have hstate₁ : w₁.db.currentState = w.db.currentState :=
    (of_insertRun (of_openRun hopen).2.1).1.currentState_eq
  cases houtcome
  have hstarted : Below (w.started input.clock.startedAt) := hbelow
  have hruns : w'.db.ingestRuns.rows = w.db.ingestRuns.rows ++
      [committedRun summary (openedRun id input.trigger input.clock.startedAt)] := by
    rw [hdb, hcommitted, hdb₂, hrows]
    refine map_opened (fun r hr => ?_) (fun r hr => if_neg hr) (if_pos rfl)
    rw [show (openedRun id input.trigger input.clock.startedAt).id = id from rfl, hid]
    exact hbelow r hr
  constructor
  · have hledger : Ledger.ofWorld w' =
        { runs := (Ledger.ofWorld w).runs ++
            [committedRun { summary with trigger := some input.trigger }
              (openedRun id input.trigger input.clock.startedAt)]
          syncState := some (committedState s.sourceAt summary.committedAt)
          currentState := s.currentState
          broadcasts := (Ledger.ofWorld w).broadcasts ++
            [.ingestDone { summary with trigger := some input.trigger }] } := by
      rw [Ledger.ofWorld, hruns, hdb, hsync, hreplaced.currentState_eq, hbroadcasts, hbroadcasts₁]
      rfl
    rw [hledger]
    refine .committed id input.trigger input.clock.startedAt (hid ▸ hbelow) s hs _ ?_
    subst hsummary
    refine ⟨rfl, rfl, rfl, rfl, rfl, ?_, rfl, rfl⟩
    have hchanged := hreplaced.dataChanged
    rw [hdb₂, hstate₁, hreplaced.currentState_eq] at hchanged
    exact hchanged
  · refine below_of_ids (below_openRun hopen hstarted) (nextRunId_of_runOpened hopened) ?_
    rw [hruns, hrows, List.map_append, List.map_append]
    rfl

/-- What an attempt to record a failure writes, with whether it succeeded. -/
theorem recordedDb_writes (input : RunInput μ) (runId : Option ℤ) (error : Str) (db : Db) :
    ∃ recorded : Bool,
      (recordedDb input runId error db).ingestRuns.rows = db.ingestRuns.rows.map (fun r =>
        if recorded then failedRow runId input.clock.failedAt error r else r) ∧
      (recordedDb input runId error db).syncState =
        (if recorded then some (failedState db.syncState input.clock.failedAt error)
          else db.syncState) ∧
      (recordedDb input runId error db).currentState = db.currentState := by
  have hstate := (recordedDb_keeps input runId error db).1.currentState_eq
  cases hrecord : recordFailure input runId error db with
  | error e =>
    have hdb : recordedDb input runId error db = db := by rw [recordedDb, hrecord]
    exact ⟨false, by rw [hdb]; exact (List.map_id _).symm, by rw [hdb]; rfl, hstate⟩
  | ok db' =>
    have hdb : recordedDb input runId error db = db' := by rw [recordedDb, hrecord]
    exact ⟨true, by rw [hdb]; exact rows_of_recordFailure hrecord,
      by rw [hdb]; exact (recorded_of_recordFailure hrecord).syncState, hstate⟩

/-- A run whose audit row could not be opened is a step that fails without one. -/
theorem Ledger.Step.of_unopened {py : PyLib} {input : RunInput μ} {w w₁ : World κ ν} {e : Exc}
    (hbelow : Below w) (hopen : openRun input (w.started input.clock.startedAt) = (.error e, w₁)) :
    (Ledger.ofWorld w).Step py (.error e) (.ofWorld (w₁.failed input none e)) ∧
      Below (w₁.failed input none e) := by
  have hstarted : Below (w.started input.clock.startedAt) := hbelow
  have hvisible := openRun_atomic input _ e w₁ hopen
  have hdb : w₁.db = w.db := congrArg Visible.db hvisible
  have hbroadcasts : w₁.broadcasts = w.broadcasts := congrArg Visible.broadcasts hvisible
  obtain ⟨recorded, hrows, hsync, hstate⟩ := recordedDb_writes input none e.text w₁.db
  have hkept : (recordedDb input none e.text w₁.db).ingestRuns.rows = w₁.db.ingestRuns.rows := by
    refine hrows.trans ((List.map_congr_left fun r _ => ?_).trans (List.map_id _))
    rw [failedRow, if_neg (Option.some_ne_none r.id), ite_self]
    rfl
  constructor
  · have hledger : Ledger.ofWorld (w₁.failed input none e) =
        { Ledger.ofWorld w with
          syncState := (Ledger.ofWorld w).failedSync recorded input.clock.failedAt e.text
          broadcasts := (Ledger.ofWorld w).broadcasts ++ [.ingestFailed (failurePayload input)] } := by
      rw [Ledger.ofWorld, World.failed, hkept, hsync, hstate, hdb, hbroadcasts]
      rfl
    rw [hledger]
    exact .unopened e recorded input.clock.failedAt (failurePayload input)
  · exact below_of_ids (below_openRun hopen hstarted) rfl (congrArg (List.map _) hkept)

/-- A run that failed after its audit row is a step that fails with one. -/
theorem Ledger.Step.of_opened {py : PyLib} {input : RunInput μ} {w w₁ w₂ : World κ ν} {id : ℤ} {e : Exc}
    (hbelow : Below w) (hopen : openRun input (w.started input.clock.startedAt) = (.ok id, w₁))
    (hopened : runOpened py input id w₁ = (.error e, w₂)) :
    (Ledger.ofWorld w).Step py (.error e) (.ofWorld (w₂.failed input (some id) e)) ∧
      Below (w₂.failed input (some id) e) := by
  have hstarted : Below (w.started input.clock.startedAt) := hbelow
  have hatomic := runOpened_atomic py input id w₁ e w₂ hopened
  have hdb : w₂.db = w₁.db := congrArg Visible.db hatomic
  obtain ⟨hid, hrows₁⟩ := runs_openRun hopen
  obtain ⟨-, hinsert, hvisible⟩ := of_openRun hopen
  have hbroadcasts : w₂.broadcasts = w.broadcasts :=
    (congrArg Visible.broadcasts hatomic).trans (congrArg Visible.broadcasts hvisible)
  obtain ⟨htables, hsync₁⟩ := of_insertRun hinsert
  obtain ⟨recorded, hrows, hsync, hstate⟩ := recordedDb_writes input (some id) e.text w₂.db
  have hruns : (recordedDb input (some id) e.text w₂.db).ingestRuns.rows =
      w.db.ingestRuns.rows ++
        [if recorded then failedRun input.clock.failedAt e.text
            (openedRun id input.trigger input.clock.startedAt)
          else openedRun id input.trigger input.clock.startedAt] := by
    rw [hrows, hdb, hrows₁]
    refine map_opened (g := fun r =>
      if recorded then failedRun input.clock.failedAt e.text r else r) (fun r hr => ?_) (fun r hr => ?_) ?_
    · rw [show (openedRun id input.trigger input.clock.startedAt).id = id from rfl, hid]
      exact hbelow r hr
    -- only the row that the run has opened is marked as failed
    · have hother : failedRow (some id) input.clock.failedAt e.text r = r :=
        if_neg fun heq => hr (Option.some.inj heq)
      rw [hother, ite_self]
    · have hown : failedRow (some id) input.clock.failedAt e.text
          (openedRun id input.trigger input.clock.startedAt) = failedRun input.clock.failedAt e.text _ :=
        if_pos rfl
      rw [hown]
  constructor
  · have hledger : Ledger.ofWorld (w₂.failed input (some id) e) =
        { Ledger.ofWorld w with
          runs := (Ledger.ofWorld w).runs ++
            [if recorded then failedRun input.clock.failedAt e.text
                (openedRun id (failurePayload input).trigger input.clock.startedAt)
              else openedRun id (failurePayload input).trigger input.clock.startedAt]
          syncState := (Ledger.ofWorld w).failedSync recorded input.clock.failedAt e.text
          broadcasts := (Ledger.ofWorld w).broadcasts ++ [.ingestFailed (failurePayload input)] } := by
      rw [Ledger.ofWorld, World.failed, hruns, hsync, hstate, hdb, hbroadcasts, hsync₁,
        htables.currentState_eq]
      rfl
    rw [hledger]
    exact .failed e recorded input.clock.failedAt (failurePayload input) id input.clock.startedAt
      (hid ▸ hbelow)
  · have hnext : w₂.nextRunId = w₁.nextRunId := nextRunId_of_runOpened hopened
    refine below_of_ids (below_openRun hopen hstarted) hnext ?_
    show (recordedDb input (some id) e.text w₂.db).ingestRuns.rows.map IngestRun.id = _
    rw [hruns, hrows₁, List.map_append, List.map_append]
    cases recorded <;> rfl

/-- The clean-up of a run touches nothing that the ledger has. -/
theorem Ledger.ofWorld_settle (w : World κ ν) :
    Ledger.ofWorld { settle w with runLocked := false } = .ofWorld w ∧
      (Below w → Below { settle w with runLocked := false }) := by
  unfold settle
  split_ifs <;> exact ⟨rfl, fun h => h⟩

/-- A run that is executed alone is a step of the ledger. -/
theorem Ledger.Step.of_run {py : PyLib} {input : RunInput ν} {w w' : World κ ν}
    {result : Except Exc Outcome} (hbelow : Below w) (hfree : w.runLocked = false)
    (hrun : runIngest py input w = (result, w')) :
    (Ledger.ofWorld w).Step py result (.ofWorld w') ∧ Below w' := by
  obtain ⟨w₁, hguarded, rfl⟩ := of_runIngest hfree hrun
  obtain ⟨hledger, hsettled⟩ := Ledger.ofWorld_settle w₁
  rw [hledger]
  cases result with
  | ok outcome =>
    obtain ⟨hstep, hbelow'⟩ := Ledger.Step.of_returned hbelow hguarded
    exact ⟨hstep, hsettled hbelow'⟩
  | error e =>
    rcases guardedRun_raises hguarded with ⟨w₂, hopen, rfl⟩ | ⟨id, w₂, w₃, hopen, hopened, rfl⟩
    · obtain ⟨hstep, hbelow'⟩ := Ledger.Step.of_unopened hbelow hopen
      exact ⟨hstep, hsettled hbelow'⟩
    · obtain ⟨hstep, hbelow'⟩ := Ledger.Step.of_opened hbelow hopen hopened
      exact ⟨hstep, hsettled hbelow'⟩

/-! ## Histories

Runs exclude each other, so a history is a sequence of runs that were executed alone, and the steps follow
one another.
-/

/-- The ledger behind a process is a trace of its completed runs. -/
def Traced (py : PyLib) (w₀ w : World κ ν) (log : List (Except Exc Outcome)) : Prop :=
  Runs.Trace (Ledger.Step py) (.ofWorld w₀) log (.ofWorld w) ∧ Below w

/-- The process refines the ledger: however the calls of `run_ingest` interleave, and whatever fails on the
way, once no run is in flight its completed runs, in the order in which they returned, are a trace of the
ledger from where the process started. -/
theorem history_refines_ledger {py : PyLib} {w₀ : World κ ν} (hbelow : Below w₀)
    (hfree : w₀.runLocked = false) {history : List (Action (RunInput ν))}
    {s : State Exc (World κ ν) Outcome} (hreached : reached py w₀ history = some s)
    (hidle : s.shared.runLocked = false) :
    Runs.Trace (Ledger.Step py) (.ofWorld w₀) (results py w₀ history) (.ofWorld s.shared) ∧
      (Ledger.ofWorld w₀).Accounts py (results py w₀ history) (.ofWorld s.shared) := by
  have hE := exclusive_runIngest (κ := κ) (ν := ν) (μ := ν) py
  have htraced : Traced py w₀ s.shared (results py w₀ history) := by
    refine serial_of_run (P := Traced py w₀) hE.held_lock hE.critical hE.skips hE.runs ?_
      ⟨.nil, hbelow⟩ hfree hreached hidle
    intro input w w' result log htrace hfree hrun
    have hrun : (Stepwise.runIngest py input).run w = (result, w') := hrun
    rw [Stepwise.run_runIngest] at hrun
    obtain ⟨hstep, hbelow'⟩ := Ledger.Step.of_run htrace.2 hfree hrun
    exact ⟨htrace.1.concat hstep, hbelow'⟩
  exact ⟨htraced.1, Ledger.accounts_of_trace htraced.1⟩

/-- A run commits, the next one fails, and a call that comes meanwhile is skipped. -/
def committedHistory : List (Action (RunInput Unit)) :=
  .call 2 (quietInput fun _ _ => .returned (sampleJson 7)) :: List.replicate 15 (.step 2) ++ failedHistory

/-- It is a trace of two runs, of which the first has left its issue and the second its audit row. -/
theorem committedHistory_refines_ledger :
    ∃ s, reached samplePy freshWorld committedHistory = some s ∧
      (results samplePy freshWorld committedHistory).length = 2 ∧
      s.shared.db.issues.rows.length = 1 ∧ s.shared.db.ingestRuns.rows.length = 2 ∧
      Runs.Trace (Ledger.Step samplePy) (.ofWorld freshWorld) (results samplePy freshWorld committedHistory)
        (.ofWorld s.shared) ∧
      (Ledger.ofWorld freshWorld).Accounts samplePy (results samplePy freshWorld committedHistory)
        (.ofWorld s.shared) :=
  ⟨_, rfl, rfl, rfl, rfl, history_refines_ledger (fun _ hr => absurd hr List.not_mem_nil) rfl rfl rfl⟩

end Ghpulse.System
