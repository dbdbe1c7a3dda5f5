import Ghpulse.Ingest.Failure
import Ghpulse.Ingest.Replacement

/-!
# Histories of runs

Whatever runs of one account do, from empty tables on, the current state is that of one accepted snapshot
of the account: a run that commits replaces it, and every other run leaves it.

`Reachable` has a constructor for the state after the first transaction of a run, since a reader can come
in there; later readers see the state before or after the commit. A history may start from any
bookkeeping, as long as the three tables are empty.

Reference: `backend/ingest.py`.
-/

open Python Effect Keyed

namespace Ghpulse.Ingest

variable {κ ν : Type} {py : PyLib} {login : Str}

/-- The processes that runs of one account reach from empty tables: after whole runs, and, as others see
a run, after its first transaction. -/
inductive Reachable (py : PyLib) (login : Str) : World κ ν → Prop where
  | start (w : World κ ν) (hempty : w.db.SameTables .empty) : Reachable py login w
  | opened {w w' : World κ ν} {id : ℤ} (hw : Reachable py login w) (input : RunInput ν)
      (hlogin : input.env.login = login)
      (hopen : openRun input (w.started input.clock.startedAt) = (.ok id, w')) :
      Reachable py login w'
  | run {w w' : World κ ν} {result : Except Exc Outcome} (hw : Reachable py login w)
      (input : RunInput ν) (hlogin : input.env.login = login)
      (hrun : runIngest py input w = (result, w')) : Reachable py login w'

/-- The database shows an accepted snapshot of an account. -/
def Shows (py : PyLib) (login : Str) (db : Db) : Prop :=
  ∃ s : Snapshot, s.Accepted py ∧ py.casefold s.login = py.casefold login ∧
    db.currentState = s.currentState

/-- The current state depends on the three tables alone. -/
theorem Db.SameTables.currentState_eq {db db' : Db} (h : db'.SameTables db) :
    db'.currentState = db.currentState := by
  unfold Db.currentState
  rw [h.repositories, h.issues, h.pullRequests]

theorem Shows.of_sameTables {db db' : Db} (h : Shows py login db) (hsame : db'.SameTables db) :
    Shows py login db' := by
  obtain ⟨s, hs, hlogin, hstate⟩ := h
  exact ⟨s, hs, hlogin, hsame.currentState_eq.trans hstate⟩

/-- Empty tables show the empty snapshot. -/
theorem shows_of_empty {db : Db} (h : db.SameTables .empty) : Shows py login db := by
  refine ⟨⟨0, login, [], [], []⟩, ⟨?_, ?_, ?_, List.nodup_nil⟩, rfl, h.currentState_eq⟩
  · exact fun r hr => absurd hr List.not_mem_nil
  · exact fun r hr => absurd hr List.not_mem_nil
  · exact fun r hr => absurd hr List.not_mem_nil

/-- What a run commits, `_validate_snapshot` returned, for the account of its configuration. -/
theorem of_acquireValidated {input : RunInput ν} {s : Snapshot}
    (h : acquireValidated py input = .ok s) :
    (∃ raw : Json ν, validateSnapshot py raw = .ok s) ∧
      py.casefold s.login = py.casefold input.env.login := by
  unfold acquireValidated at h
  obtain ⟨⟨token, login⟩, hcredentials, h⟩ := bind_eq_ok.mp h
  obtain ⟨raw, -, h⟩ := bind_eq_ok.mp h
  obtain ⟨s', hvalid, h⟩ := bind_eq_ok.mp h
  obtain ⟨haccount, h⟩ := ensure_bind_eq_ok.mp h
  cases h
  have hlogin : login = input.env.login := by
    unfold configuredCredentials at hcredentials
    dsimp only at hcredentials
    split_ifs at hcredentials
    exact (Prod.mk.inj (Except.ok.inj hcredentials)).2.symm
  rw [← hlogin]
  exact ⟨⟨raw, hvalid⟩, of_decide_eq_true haccount⟩

/-- What a run commits is accepted, for the account of its configuration. -/
theorem accepted_of_acquireValidated {input : RunInput ν} {s : Snapshot}
    (h : acquireValidated py input = .ok s) :
    s.Accepted py ∧ py.casefold s.login = py.casefold input.env.login :=
  let ⟨⟨_, hvalid⟩, hlogin⟩ := of_acquireValidated h
  ⟨accepted_of_validateSnapshot hvalid, hlogin⟩

/-- A run leaves the current state or replaces it by an accepted snapshot of its account. -/
theorem Shows.run {input : RunInput ν} {w w' : World κ ν} {result : Except Exc Outcome}
    (h : Shows py input.env.login w.db) (hrun : runIngest py input w = (result, w')) :
    Shows py input.env.login w'.db := by
  cases hlocked : w.runLocked with
  | true =>
    rw [runIngest_locked hlocked] at hrun
    cases hrun
    exact h
  | false =>
    obtain ⟨w₁, hguarded, rfl⟩ := of_runIngest hlocked hrun
    cases result with
    | ok outcome =>
      obtain ⟨id, s, summary, w₂, w₃, w₄, -, hacquired, hcommit, -, hdb, -⟩ :=
        of_guardedRun_ok hguarded
      obtain ⟨hs, hlogin⟩ := accepted_of_acquireValidated hacquired
      refine ⟨s, hs, hlogin, ?_⟩
      have hshown := (committed_of_commitSnapshot hs hcommit).currentState_eq
      have hsettle : (settle w₁).db = w₁.db := by
        unfold settle
        split_ifs <;> rfl
      show (settle w₁).db.currentState = s.currentState
      rw [hsettle, hdb, hshown]
    | error e =>
      obtain ⟨runId, w₂, hat, rfl⟩ := of_guardedRun_error hguarded
      exact h.of_sameTables (hat.leaves e).tables

/-- In every reachable state the database shows an accepted snapshot of the account. -/
theorem Reachable.shows {w : World κ ν} (h : Reachable py login w) : Shows py login w.db := by
  induction h with
  | start w hempty => exact shows_of_empty hempty
  | opened hw input hlogin hopen ih =>
    obtain ⟨-, hinsert, -⟩ := of_openRun hopen
    exact ih.of_sameTables (of_insertRun hinsert).1
  | run hw input hlogin hrun ih =>
    subst hlogin
    exact ih.run hrun

/-- No repository that the account owns is stored. -/
theorem Shows.external {db : Db} (h : Shows py login db) {r : Repository}
    (hr : r ∈ db.repositories.rows) : py.casefold r.ownerLogin ≠ py.casefold login := by
  obtain ⟨s, hs, hlogin, hstate⟩ := h
  have hfind : db.currentState.repositories r.nodeId = some r.columns := by
    show (db.repositories.find r.nodeId).map Repository.columns = _
    rw [show db.repositories.find r.nodeId = some r from Table.find_of_mem hr]
    rfl
  rw [hstate] at hfind
  obtain ⟨record, hrecord, hcolumns⟩ := Option.map_eq_some_iff.mp hfind
  have hmem : record ∈ s.repositories := List.mem_of_find?_eq_some hrecord
  have howner : record.ownerLogin = r.ownerLogin := congrArg RepositoryColumns.ownerLogin hcolumns
  rw [← howner, ← hlogin]
  exact (hs.repositories record hmem).external

end Ghpulse.Ingest
