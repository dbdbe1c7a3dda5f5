import Ghpulse.Web.Transitions

/-!
# Where the states of the dashboard come from

A run of the coordinator as it is seen from outside: `trace` records each action when it is executed, and
then what the coordinator calls in it. What the executed actions amount to (`calls`) is read off the trace
alone, without the variables of the closure: the loads that were asked for, the event source that was
connected, and whether `dispose` was called. `Allowed` says what a call of `onStateChange` or `fetchJson`
asks of the entries before it.

The invariant `Inv` relates the closure to the trace. An action is one entry of its own, so each operation
is a few entries, and each entry keeps the invariant.

Reference: `src/app.jsx` (`createDashboardRequestCoordinator`).
-/

open Python

namespace Ghpulse.Web.Coordinator

variable {V B : Type}

/-! ## Traces

An action is recorded before the calls that are made in it, so that what a call may refer to stands before
it.
-/

/-- An action that is executed, or a call that is made. -/
inductive Entry (V B : Type) where
  | did (a : Action V B)
  | said (o : Output V B)

/-- The action of an entry. -/
def Entry.action : Entry V B → Option (Action V B)
  | .did a => some a
  | .said _ => none

/-- The call of an entry. -/
def Entry.output : Entry V B → Option (Output V B)
  | .did _ => none
  | .said o => some o

/-- An action, with the calls that are made in it. -/
def entries [DecidableEq V] (env : Values V) (s : State V B) (a : Action V B) : List (Entry V B) :=
  .did a :: (step env s a).elim [] fun s' => (s'.log.drop s.log.length).map .said

/-- A run from outside. -/
def trace [DecidableEq V] (env : Values V) (as : List (Action V B)) : List (Entry V B) :=
  Runs.record (step env) (entries env) State.initial as

/-! ## What was asked for

Computed from the actions alone. Whether the coordinator does what was asked is not decided here, which is
why this can be compared with what it calls.
-/

/-- A load, with the selection that it was given. -/
structure Load (V : Type) where
  given : Option (Selection V)
  retain : Bool
  fresh : Bool

/-- What the executed actions amount to. -/
structure Calls (V : Type) where
  loads : List (Load V)
  source : Option Abilities
  disposed : Bool

/-- What one more action amounts to: an ingest that is announced loads again what was loaded last, and
keeps it meanwhile; the first event source is the only one; and after `dispose` nothing counts. -/
def Calls.act (c : Calls V) : Action V B → Calls V
  | .load given retain fresh _ =>
    if c.disposed then c else { c with loads := c.loads ++ [⟨given, retain, fresh⟩] }
  | .deliver _ .ingestDone _ | .deliver _ .ingestFailed _ =>
    if c.disposed then c
    else { c with loads := c.loads ++ (c.loads.getLast?.map fun l => ⟨l.given, true, true⟩).toList }
  | .connect made => if c.disposed then c else { c with source := c.source.or made }
  | .dispose => { c with disposed := true }
  | .deliver _ .opened _ | .deliver _ .error _ | .settle _ _ | .react _ => c

/-- What one more entry amounts to. -/
def Calls.note (c : Calls V) : Entry V B → Calls V
  | .did a => c.act a
  | .said _ => c

/-- What a trace amounts to. -/
def calls (trace : List (Entry V B)) : Calls V := trace.foldl Calls.note ⟨[], none, false⟩

/-- A part of a selection is what was given, if that is truthy, and the default otherwise. -/
def PartMeets (env : Values V) (default : V) (given : Option V) (part : V) : Prop :=
  (∃ v, given = some v ∧ env.truthy v = true ∧ part = v) ∨
    (∀ v, given = some v → env.truthy v = false) ∧ part = default

/-- A selection is the one that was given, with the defaults for what is missing. -/
structure Meets (env : Values V) (given : Option (Selection V)) (selection : Selection V) : Prop where
  range : PartMeets env env.thirtyDays (given.map Selection.range) selection.range
  repository : PartMeets env env.empty (given.map Selection.repository) selection.repository

/-! ## What is allowed

Each condition is about the entries before the call. A published state has to be that of the most recent
load, with data of its own selection and of a body that was received; and neither a state nor a request
comes after `dispose`.
-/

/-- `d` is the last data that was published as ready, and each load since then was of its selection and
retained it. -/
def LastReady (env : Values V) (trace : List (Entry V B)) (d : Data V B) : Prop :=
  ∃ before p after loads, trace = before ++ .said (.notify p) :: after ∧
    p.phase = .ready ∧ p.data = some d ∧ p.selection = d.selection ∧
    (∀ q, .said (.notify q) ∈ after → q.phase ≠ .ready) ∧
    (calls trace).loads = (calls before).loads ++ loads ∧
    ∀ l ∈ loads, l.retain = true ∧ Meets env l.given d.selection

/-- A number and a selection are those of the most recent load. -/
def MostRecent (env : Values V) (before : List (Entry V B)) (id : ℕ) (selection : Selection V)
    (l : Load V) : Prop :=
  (calls before).loads.getLast? = some l ∧ id = (calls before).loads.length ∧ Meets env l.given selection

/-- What a state that is published asks of the entries before it. -/
structure AllowedState (env : Values V) (before : List (Entry V B)) (p : Published V B) : Prop where
  undisposed : .did .dispose ∉ before
  recent : ∃ l, MostRecent env before p.requestId p.selection l
  /-- The data is of the selection of the state. -/
  data : ∀ d, p.data = some d → d.selection = p.selection
  /-- A load ends once. -/
  once : p.phase.Terminal → ∀ q, .said (.notify q) ∈ before → q.phase.Terminal → q.requestId ≠ p.requestId
  /-- A body is the one that the request of the load was fulfilled with. -/
  ready : p.phase = .ready →
    ∃ body, p.data = some ⟨body, p.selection⟩ ∧ .did (.settle p.requestId (.inl body)) ∈ before
  stale : p.phase = .stale → ∃ d, p.data = some d ∧ LastReady env before d

/-- A request is that of a load. -/
def Fulfils (env : Values V) (l : Load V) (request : ℕ × Selection V × Bool) : Prop :=
  Meets env l.given request.2.1 ∧ request.2.2 = l.fresh

/-- What each entry asks of those before it. -/
def Allowed (env : Values V) (before : List (Entry V B)) : Entry V B → Prop
  | .said (.notify p) => AllowedState env before p
  | .said (.fetch id selection fresh) =>
    .did .dispose ∉ before ∧ ∃ l, MostRecent env before id selection l ∧ fresh = l.fresh
  | _ => True

/-! ## Reading a trace

How the derived notions change with one more entry.
-/

section Reading

variable {env : Values V} {before : List (Entry V B)} {d : Data V B}

/-- A call does not change what was asked for. -/
@[simp] theorem calls_said (before : List (Entry V B)) (o : Output V B) :
    calls (before ++ [.said o]) = calls before := by
  rw [calls, List.foldl_append]
  rfl

/-- An action does what it amounts to. -/
@[simp] theorem calls_did (before : List (Entry V B)) (a : Action V B) :
    calls (before ++ [.did a]) = (calls before).act a := by
  rw [calls, List.foldl_append]
  rfl

/-- Many calls do not change it either. -/
theorem calls_saids (before : List (Entry V B)) (new : List (Output V B)) :
    calls (before ++ new.map .said) = calls before := by
  induction new generalizing before with
  | nil => rw [List.map_nil, List.append_nil]
  | cons o new ih => rw [List.map_cons, List.append_cons, ih, calls_said]

/-- Only `dispose` disposes. -/
theorem disposed_act (c : Calls V) (a : Action V B) :
    (c.act a).disposed = true ↔ c.disposed = true ∨ a = .dispose := by
  cases a with
  | dispose => exact iff_of_true rfl (Or.inr rfl)
  | deliver k event thrown => cases event <;> unfold Calls.act <;> split_ifs <;> simp
  | _ => unfold Calls.act; split_ifs <;> simp

/-- What the trace amounts to is disposed once `dispose` was executed. -/
theorem disposed_calls (before : List (Entry V B)) :
    (calls before).disposed = true ↔ .did .dispose ∈ before := by
  induction before using List.reverseRecOn with
  | nil => exact iff_of_false Bool.false_ne_true List.not_mem_nil
  | append_singleton before e ih =>
    cases e with
    | said o => simp [ih]
    | did a =>
      rw [calls_did, disposed_act, ih, List.mem_append, List.mem_singleton, Entry.did.injEq]
      exact or_congr_right eq_comm

/-- Normalizing a selection makes it the one that was given. -/
theorem meets_normalize (env : Values V) (given : Option (Selection V)) :
    Meets env given (normalizeDashboardSelection env given) := by
  cases given with
  | none =>
    have hpart (default : V) : PartMeets env default none default :=
      Or.inr ⟨fun v hv => (by cases hv), rfl⟩
    exact ⟨hpart env.thirtyDays, hpart env.empty⟩
  | some s =>
    have hpart (default part : V) :
        PartMeets env default (some part) (if env.truthy part then part else default) := by
      split_ifs with htruthy
      · exact Or.inl ⟨part, rfl, htruthy, rfl⟩
      · refine Or.inr ⟨fun v hv => ?_, rfl⟩
        obtain rfl : part = v := Option.some.inj hv
        exact Bool.eq_false_iff.mpr htruthy
    exact ⟨hpart env.thirtyDays s.range, hpart env.empty s.repository⟩

/-- Normalizing again changes nothing. -/
theorem normalize_of_meets {given : Option (Selection V)} {selection : Selection V}
    (h : Meets env given selection) : normalizeDashboardSelection env (some selection) = selection := by
  have hpart {default part : V} {given : Option V} (h : PartMeets env default given part) :
      (if env.truthy part then part else default) = part := by
    rcases h with ⟨v, -, htruthy, rfl⟩ | ⟨-, rfl⟩
    · exact if_pos htruthy
    · exact ite_self _
  exact congrArg₂ Selection.mk (hpart h.range) (hpart h.repository)

/-- What was ready stays so when something else is called. -/
theorem LastReady.said (h : LastReady env before d) {o : Output V B}
    (ho : ∀ q, o = .notify q → q.phase ≠ .ready) : LastReady env (before ++ [.said o]) d := by
  obtain ⟨first, p, after, loads, rfl, hphase, hdata, hselection, hafter, hcalls, hloads⟩ := h
  refine ⟨first, p, after ++ [.said o], loads, by simp, hphase, hdata, hselection, fun q hq => ?_, ?_, hloads⟩
  · rcases List.mem_append.mp hq with hq | hq
    · exact hafter q hq
    · exact ho q (Entry.said.inj (List.mem_singleton.mp hq)).symm
  · rw [calls_said]
    exact hcalls

/-- It stays so after an action that loads nothing but its selection, and retains it. -/
theorem LastReady.did (h : LastReady env before d) {a : Action V B} (loads : List (Load V))
    (hact : ((calls before).act a).loads = (calls before).loads ++ loads)
    (hkeep : ∀ l ∈ loads, l.retain = true ∧ Meets env l.given d.selection) :
    LastReady env (before ++ [.did a]) d := by
  obtain ⟨first, p, after, old, rfl, hphase, hdata, hselection, hafter, hcalls, hold⟩ := h
  refine ⟨first, p, after ++ [.did a], old ++ loads, by simp, hphase, hdata, hselection,
    fun q hq => ?_, ?_, ?_⟩
  · rcases List.mem_append.mp hq with hq | hq
    · exact hafter q hq
    · cases List.mem_singleton.mp hq
  · rw [calls_did, hact, hcalls, List.append_assoc]
  · intro l hl
    rcases List.mem_append.mp hl with hl | hl
    · exact hold l hl
    · exact hkeep l hl

/-- What is published as ready is the last that was. -/
theorem lastReady_concat {p : Published V B} (hphase : p.phase = .ready) (hdata : p.data = some d)
    (hselection : p.selection = d.selection) : LastReady env (before ++ [.said (.notify p)]) d :=
  ⟨before, p, [], [], rfl, hphase, hdata, hselection, fun _ hq => absurd hq List.not_mem_nil,
    by rw [calls_said, List.append_nil], fun _ hl => absurd hl List.not_mem_nil⟩

end Reading

/-! ## The invariant

The numbers of the closure are the numbers of loads, and its active selection is the one that was asked
for last. After `dispose` neither matters any more.
-/

/-- How the closure stands to the trace. Of the fields of the closure it reads those that decide what is
published; `controller`, the event source and the log are free. -/
structure Inv (env : Values V) (before : List (Entry V B)) (s : State V B) : Prop where
  lawful : Runs.Lawful (Allowed env) before
  disposed : (calls before).disposed = s.disposed
  number : s.disposed = false → s.requestId = (calls before).loads.length
  active : s.disposed = false → Option.Rel (fun selection l => Meets env l.given selection)
    s.activeSelection (calls before).loads.getLast?
  data : ∀ d, s.activeData = some d → LastReady env before d ∧ s.activeSelection = some d.selection
  fresh : ∀ id, s.requestId < id → s.requests id = none
  ended : ∀ p, .said (.notify p) ∈ before → p.phase.Terminal →
    ∃ r, s.requests p.requestId = some r ∧ r.status = .handled
  resolved : ∀ id r body, s.requests id = some r → r.status = .resolved body →
    .did (.settle id (.inl body)) ∈ before

/-- A call that is neither a publication nor a request. -/
def Output.Quiet : Output V B → Prop
  | .notify _ | .fetch _ _ _ => False
  | _ => True

/-- A step makes calls that keep the invariant, and sends a request for each load that it asks for. -/
structure Follows [DecidableEq V] (env : Values V) (before : List (Entry V B)) (s : State V B)
    (a : Action V B) (s' : State V B) (new : List (Output V B)) (loads : List (Load V)) : Prop where
  log : s'.log = s.log ++ new
  asked : ((calls before).act a).loads = (calls before).loads ++ loads
  sent : List.Forall₂ (Fulfils env) loads (new.filterMap Output.fetched)
  inv : Inv env (before ++ .did a :: new.map .said) s'

section Invariant

variable {env : Values V} {before : List (Entry V B)} {s : State V B}

theorem Inv.initial : Inv env [] (State.initial : State V B) where
  lawful := Runs.lawful_nil
  disposed := rfl
  number _ := rfl
  active _ := .none
  data _ h := by cases h
  fresh _ _ := rfl
  ended _ h := absurd h List.not_mem_nil
  resolved _ _ _ h := by cases h

/-! ## Keeping the invariant

One lemma for each kind of entry: an action that asks for nothing, the end, and a call. None of them
mentions an operation.
-/

/-- The other fields are free. -/
theorem Inv.withRest (hi : Inv env before s) (controller eventSource : Option ℕ) (sources : List Source)
    (log : List (Output V B)) :
    Inv env before { s with
      controller := controller, eventSource := eventSource, sources := sources, log := log } :=
  ⟨hi.lawful, hi.disposed, hi.number, hi.active, hi.data, hi.fresh, hi.ended, hi.resolved⟩

/-- A trace is disposed when the closure is. -/
theorem Inv.undisposed (hi : Inv env before s) (hopen : s.disposed = false) : .did .dispose ∉ before := by
  rw [← disposed_calls, hi.disposed, hopen]
  exact Bool.false_ne_true

/-- What is active is of the most recent load. -/
theorem Inv.mostRecent (hi : Inv env before s) (hopen : s.disposed = false) {selection : Selection V}
    (hactive : s.activeSelection = some selection) : ∃ l, MostRecent env before s.requestId selection l := by
  have hrel := hi.active hopen
  rw [hactive] at hrel
  generalize hlast : (calls before).loads.getLast? = last at hrel
  cases hrel with
  | @some _ l hmeets => exact ⟨l, hlast, hi.number hopen, hmeets⟩

/-- An action that asks for no load. -/
theorem Inv.idle (hi : Inv env before s) {a : Action V B}
    (hloads : ((calls before).act a).loads = (calls before).loads)
    (hdisposed : ((calls before).act a).disposed = (calls before).disposed) :
    Inv env (before ++ [.did a]) s where
  lawful := Runs.lawful_concat.mpr ⟨hi.lawful, trivial⟩
  disposed := by rw [calls_did, hdisposed, hi.disposed]
  number := by rw [calls_did, hloads]; exact hi.number
  active := by rw [calls_did, hloads]; exact hi.active
  data d hd := by
    obtain ⟨hready, hselection⟩ := hi.data d hd
    have hact := hloads.trans (List.append_nil _).symm
    exact ⟨hready.did [] hact fun _ hl => absurd hl List.not_mem_nil, hselection⟩
  fresh := hi.fresh
  ended p hp := by
    rcases List.mem_append.mp hp with hp | hp
    · exact hi.ended p hp
    · cases List.mem_singleton.mp hp
  resolved id r body hr hstatus := List.mem_append_left _ (hi.resolved id r body hr hstatus)

/-- The coordinator is disposed. -/
theorem Inv.end (hi : Inv env before s) :
    Inv env (before ++ [.did .dispose]) { s with disposed := true, requestId := s.requestId + 1 } where
  lawful := Runs.lawful_concat.mpr ⟨hi.lawful, trivial⟩
  disposed := by rw [calls_did]; rfl
  number h := by cases h
  active h := by cases h
  data d hd := by
    obtain ⟨hready, hselection⟩ := hi.data d hd
    have hact := (List.append_nil (calls before).loads).symm
    exact ⟨hready.did [] hact fun _ hl => absurd hl List.not_mem_nil, hselection⟩
  fresh id hid := hi.fresh id (Nat.lt_of_succ_lt hid)
  ended p hp := by
    rcases List.mem_append.mp hp with hp | hp
    · exact hi.ended p hp
    · cases List.mem_singleton.mp hp
  resolved id r body hr hstatus := List.mem_append_left _ (hi.resolved id r body hr hstatus)

/-- A call that is allowed; a publication is allowed to end a load whose handlers have run, and what may be
shown afterwards is what it shows, or what might be shown before. -/
theorem Inv.say (hi : Inv env before s) {o : Output V B} (ho : Allowed env before (.said o))
    (hended : ∀ p, o = .notify p → p.phase.Terminal →
      ∃ r, s.requests p.requestId = some r ∧ r.status = .handled)
    (data : Option (Data V B))
    (hdata : ∀ d, data = some d → LastReady env (before ++ [.said o]) d ∧
      s.activeSelection = some d.selection) :
    Inv env (before ++ [.said o]) { s with activeData := data } where
  lawful := Runs.lawful_concat.mpr ⟨hi.lawful, ho⟩
  disposed := by rw [calls_said, hi.disposed]
  number := by rw [calls_said]; exact hi.number
  active := by rw [calls_said]; exact hi.active
  data := hdata
  fresh := hi.fresh
  ended p hp := by
    rcases List.mem_append.mp hp with hp | hp
    · exact hi.ended p hp
    · exact hended p (Entry.said.inj (List.mem_singleton.mp hp)).symm
  resolved id r body hr hstatus := List.mem_append_left _ (hi.resolved id r body hr hstatus)

/-- A call that publishes nothing. -/
theorem Inv.sayOther (hi : Inv env before s) {o : Output V B} (ho : Allowed env before (.said o))
    (hother : ∀ p, o ≠ .notify p) : Inv env (before ++ [.said o]) s :=
  hi.say ho (fun p hp => absurd hp (hother p)) s.activeData fun d hd =>
    ⟨(hi.data d hd).1.said fun q hq => absurd hq (hother q), (hi.data d hd).2⟩

/-- Quiet calls. -/
theorem Inv.sayQuiet (hi : Inv env before s) (new : List (Output V B)) (hquiet : ∀ o ∈ new, o.Quiet) :
    Inv env (before ++ new.map .said) s := by
  induction new generalizing before with
  | nil => rwa [List.map_nil, List.append_nil]
  | cons o new ih =>
    obtain ⟨ho, hnew⟩ := List.forall_mem_cons.mp hquiet
    rw [List.map_cons, List.append_cons]
    refine ih (hi.sayOther ?_ ?_) hnew
    · cases o <;> first | exact trivial | cases ho
    · rintro p rfl
      cases ho

/-- A request of the past is replaced; one whose handlers have run stays so, and one that is fulfilled was
settled so. -/
theorem Inv.withRequest (hi : Inv env before s) {id : ℕ} {r : Request V B} (hid : id ≤ s.requestId)
    (hhandled : ∀ r', s.requests id = some r' → r'.status = .handled → r.status = .handled)
    (hresolved : ∀ body, r.status = .resolved body → .did (.settle id (.inl body)) ∈ before) :
    Inv env before { s with requests := Function.update s.requests id (some r) } where
  lawful := hi.lawful
  disposed := hi.disposed
  number := hi.number
  active := hi.active
  data := hi.data
  fresh id' h := by
    have hlt : s.requestId < id' := h
    exact (Function.update_of_ne (Nat.ne_of_gt (hid.trans_lt hlt)) _ _).trans (hi.fresh id' hlt)
  ended p h hterminal := by
    obtain ⟨r', hr', hstatus⟩ := hi.ended p h hterminal
    by_cases hp : p.requestId = id
    · refine ⟨r, ?_, hhandled r' (hp ▸ hr') hstatus⟩
      rw [hp]
      exact Function.update_self _ _ _
    · exact ⟨r', (Function.update_of_ne hp _ _).trans hr', hstatus⟩
  resolved id' r' body hr' hstatus := by
    rcases update_eq_some hr' with ⟨rfl, rfl⟩ | ⟨-, hold⟩
    · exact hresolved body hstatus
    · exact hi.resolved id' r' body hold hstatus

/-- A request that exists has been numbered. -/
theorem Inv.le_of_request (hi : Inv env before s) {id : ℕ} {r : Request V B} (hr : s.requests id = some r) :
    id ≤ s.requestId := by
  by_contra hlt
  rw [hi.fresh id (Nat.lt_of_not_le hlt)] at hr
  cases hr

/-! ## The operations

Each operation keeps the invariant for its action and its calls. A load is the long one: it aborts,
publishes and sends.
-/

variable [DecidableEq V]

/-- An action asks for a load: its selection becomes active, and data is kept if the load retains it. -/
theorem Inv.start (hi : Inv env before s) (hopen : s.disposed = false) {a : Action V B} {l : Load V}
    {selection : Selection V} (hmeets : Meets env l.given selection)
    (ha : (calls before).act a = { calls before with loads := (calls before).loads ++ [l] }) :
    Inv env (before ++ [.did a]) { s with
      requestId := s.requestId + 1
      activeSelection := some selection
      activeData := retained s l.retain selection } where
  lawful := Runs.lawful_concat.mpr ⟨hi.lawful, trivial⟩
  disposed := by rw [calls_did, ha]; exact hi.disposed
  number _ := by
    rw [calls_did, ha, List.length_append, ← hi.number hopen]
    rfl
  active _ := by
    rw [calls_did, ha]
    dsimp only
    rw [List.getLast?_concat]
    exact .some hmeets
  data d hd := by
    obtain ⟨hretain, hactive, rfl⟩ := retained_eq_some.mp hd
    refine ⟨(hi.data d hactive).1.did [l] (by rw [ha]) fun l' hl' => ?_, rfl⟩
    obtain rfl := List.mem_singleton.mp hl'
    exact ⟨hretain, hmeets⟩
  fresh id hid := hi.fresh id (Nat.lt_of_succ_lt hid)
  ended p hp := by
    rcases List.mem_append.mp hp with hp | hp
    · exact hi.ended p hp
    · cases List.mem_singleton.mp hp
  resolved id r body hr hstatus := List.mem_append_left _ (hi.resolved id r body hr hstatus)

omit [DecidableEq V] in
/-- Quiet calls send nothing. -/
theorem filterMap_fetched_of_quiet {new : List (Output V B)} (hquiet : ∀ o ∈ new, o.Quiet) :
    new.filterMap Output.fetched = [] := by
  refine List.filterMap_eq_nil_iff.mpr fun o ho => ?_
  have ho := hquiet o ho
  cases o <;> first | rfl | cases ho

/-- A step that asks for nothing and calls quietly. -/
theorem Follows.quiet {a : Action V B} {s' : State V B} {new : List (Output V B)}
    (ha : ((calls before).act a).loads = (calls before).loads) (hlog : s'.log = s.log ++ new)
    (hquiet : ∀ o ∈ new, o.Quiet) (hi : Inv env (before ++ [.did a]) s') :
    Follows env before s a s' new [] := by
  refine ⟨hlog, by rw [ha, List.append_nil], ?_, ?_⟩
  · rw [filterMap_fetched_of_quiet hquiet]
    exact .nil
  · have hsay := hi.sayQuiet new hquiet
    rwa [List.append_assoc] at hsay

omit [DecidableEq V] in
/-- Aborts are quiet. -/
theorem quiet_abortOutput (s : State V B) : ∀ o ∈ abortOutput s, o.Quiet := by
  intro o ho
  obtain ⟨id, -, rfl⟩ := Option.map_eq_some_iff.mp (Option.mem_toList.mp ho)
  trivial

/-- A load: whatever is called quietly before, then the abort of the request before, the state that it
starts with, and its request. -/
theorem Inv.load (hi : Inv env before s) (hopen : s.disposed = false) {a : Action V B} {l : Load V}
    {selection : Selection V} (hmeets : Meets env l.given selection)
    (ha : (calls before).act a = { calls before with loads := (calls before).loads ++ [l] })
    {quiet : List (Output V B)} (hquiet : ∀ o ∈ quiet, o.Quiet) (thrown : Option Reason) :
    Inv env (before ++ .did a :: (quiet ++ loadOutput s l.retain l.fresh selection).map .said)
      { s with
        requestId := s.requestId + 1
        activeSelection := some selection
        activeData := retained s l.retain selection
        requests := Function.update s.requests (s.requestId + 1)
          (some ⟨selection, l.retain, (thrown.map .rejected).getD .pending⟩) } := by
  have hstart := (hi.start hopen hmeets ha).sayQuiet (quiet ++ abortOutput s) fun o ho =>
    (List.mem_append.mp ho).elim (hquiet o) (quiet_abortOutput s o)
  have hcalls (rest : List (Output V B)) : calls (before ++ [.did a] ++ rest.map .said) =
      { calls before with loads := (calls before).loads ++ [l] } := by
    rw [calls_saids, calls_did, ha]
  have hrecent (rest : List (Output V B)) :
      MostRecent env (before ++ [.did a] ++ rest.map .said) (s.requestId + 1) selection l := by
    refine ⟨?_, ?_, hmeets⟩
    · rw [hcalls]
      exact List.getLast?_concat
    · have hlength : ((calls before).loads ++ [l]).length = (calls before).loads.length + 1 :=
        List.length_append
      rw [hcalls, hi.number hopen]
      exact hlength.symm
  have hstate : AllowedState env (before ++ [.did a] ++ (quiet ++ abortOutput s).map .said)
      (startState s l.retain selection) :=
    { undisposed := hstart.undisposed hopen
      recent := ⟨l, hrecent _⟩
      data := fun d hd => (retained_eq_some.mp hd).2.2
      once := fun h => absurd h (not_terminal_startState s l.retain selection)
      ready := fun h => absurd (h ▸ trivial) (not_terminal_startState s l.retain selection)
      stale := fun h => absurd (h ▸ trivial) (not_terminal_startState s l.retain selection) }
  have hnotify := hstart.say (o := .notify (startState s l.retain selection)) hstate
    (fun p hp hterminal => by
      cases hp
      exact absurd hterminal (not_terminal_startState s l.retain selection))
    (retained s l.retain selection) fun d hd => by
      obtain ⟨hready, hselection⟩ := hstart.data d hd
      refine ⟨hready.said fun q hq hphase => ?_, hselection⟩
      cases hq
      exact not_terminal_startState s l.retain selection (hphase ▸ trivial)
  -- the request is sent under the number of the load
  have hfetch := hnotify.sayOther (o := .fetch (s.requestId + 1) selection l.fresh)
    ⟨hnotify.undisposed hopen, l, by
      have hsaid := hrecent (quiet ++ abortOutput s ++ [.notify (startState s l.retain selection)])
      rw [List.map_append, ← List.append_assoc] at hsaid
      exact ⟨hsaid, rfl⟩⟩ fun p hp => by cases hp
  have hnone : s.requests (s.requestId + 1) = none := hi.fresh _ (Nat.lt_succ_self _)
  have hrequest := hfetch.withRequest
    (r := ⟨selection, l.retain, (thrown.map .rejected).getD .pending⟩) le_rfl
    (fun r' hr' => by cases hnone.symm.trans hr') fun body hstatus => by cases thrown <;> cases hstatus
  simpa only [loadOutput, List.map_append, List.append_assoc, List.cons_append, List.nil_append,
    List.map_cons, List.map_nil] using hrequest

/-- A load sends its request. -/
theorem Inv.follows_load (hi : Inv env before s) (hopen : s.disposed = false) {a : Action V B} {l : Load V}
    {selection : Selection V} (hmeets : Meets env l.given selection)
    (ha : (calls before).act a = { calls before with loads := (calls before).loads ++ [l] })
    {quiet : List (Output V B)} (hquiet : ∀ o ∈ quiet, o.Quiet) (thrown : Option Reason)
    (log : List (Output V B)) (hlog : log = s.log ++ (quiet ++ loadOutput s l.retain l.fresh selection)) :
    Follows env before s a
      { s with
        requestId := s.requestId + 1
        activeSelection := some selection
        activeData := retained s l.retain selection
        controller := some (s.requestId + 1)
        requests := Function.update s.requests (s.requestId + 1)
          (some ⟨selection, l.retain, (thrown.map .rejected).getD .pending⟩)
        log := log } (quiet ++ loadOutput s l.retain l.fresh selection) [l] := by
  refine ⟨hlog, by rw [ha], ?_, (hi.load hopen hmeets ha hquiet thrown).withRest _ _ _ _⟩
  have hsent : (quiet ++ loadOutput s l.retain l.fresh selection).filterMap Output.fetched =
      [(s.requestId + 1, selection, l.fresh)] := by
    rw [loadOutput, List.filterMap_append, List.filterMap_append, filterMap_fetched_of_quiet hquiet,
      filterMap_fetched_of_quiet (quiet_abortOutput s)]
    rfl
  rw [hsent]
  exact .cons ⟨hmeets, rfl⟩ .nil

/-- The handlers of a request run. -/
theorem Inv.react (hi : Inv env before s) {id : ℕ} {s' : State V B} (h : react s id = some s') :
    ∃ new, Follows env before s (.react id) s' new [] := by
  obtain ⟨r, hr, hpending, hhandled, hreacts⟩ := reacts_of_react h
  have hidle : Inv env (before ++ [.did (.react id)]) s := hi.idle rfl rfl
  have hhandle : Inv env (before ++ [.did (.react id)]) (s.handle id r) :=
    (hidle.withRequest (hi.le_of_request hr) (r := { r with status := .handled }) (fun _ _ _ => rfl)
      fun body hbody => by cases hbody).withRest _ _ _ _
  cases hreacts with
  | silent =>
    exact ⟨[.answer id none], .quiet rfl rfl (fun o ho => List.mem_singleton.mp ho ▸ trivial)
      (hhandle.withRest _ _ _ _)⟩
  | published p answer controller hopen hphase hselection hid hready hkept hstale hcontroller =>
    obtain ⟨hopen, hcurrent, hactive⟩ := not_superseded hopen
    refine ⟨[.notify p, .answer id answer], log_two _ _ _, (List.append_nil _).symm, .nil, ?_⟩
    -- the load has not ended before, or its handlers would have run
    have honce (q : Published V B) (hq : .said (.notify q) ∈ before ++ [.did (.react id)])
        (hterminal : q.phase.Terminal) : q.requestId ≠ p.requestId := by
      intro hsame
      obtain ⟨r', hr', hstatus⟩ := hidle.ended q hq hterminal
      rw [hsame, hid, hr] at hr'
      cases hr'
      exact hhandled hstatus
    have hbody (hphase : p.phase = .ready) : ∃ body, p.data = some ⟨body, p.selection⟩ ∧
        .did (.settle p.requestId (.inl body)) ∈ before ++ [.did (.react id)] := by
      obtain ⟨body, hstatus, hdata⟩ := hready hphase
      exact ⟨body, hselection ▸ hdata, hid ▸ hidle.resolved id r body hr hstatus⟩
    have hdata (d : Data V B) (hd : p.data = some d) : d.selection = p.selection := by
      by_cases hphase : p.phase = .ready
      · obtain ⟨body, hbody, -⟩ := hbody hphase
        obtain rfl := Option.some.inj (hbody.symm.trans hd)
        rfl
      · exact (hkept hphase d hd).2.trans hselection.symm
    have hrecent : ∃ l, MostRecent env (before ++ [.did (.react id)]) p.requestId p.selection l := by
      rw [hid.trans hcurrent, hselection]
      exact hidle.mostRecent hopen hactive
    have hstate : AllowedState env (before ++ [.did (.react id)]) p :=
      { undisposed := hidle.undisposed hopen
        recent := hrecent
        data := hdata
        once := fun _ q hq hterminal => honce q hq hterminal
        ready := hbody
        stale := fun hphase => by
          obtain ⟨d, hd⟩ := Option.isSome_iff_exists.mp (hstale hphase)
          have hnot : p.phase ≠ .ready := by rw [hphase]; exact Phase.noConfusion
          exact ⟨d, hd, (hidle.data d (hkept hnot d hd).1).1⟩ }
    have hnotify := hhandle.say (o := .notify p) hstate
      (fun q hq _ => by
        cases hq
        exact ⟨{ r with status := .handled }, hid ▸ Function.update_self _ _ _, rfl⟩)
      p.data fun d hd => by
        refine ⟨?_, hactive.trans (by rw [hdata d hd, hselection])⟩
        by_cases hphase : p.phase = .ready
        · exact lastReady_concat hphase hd (hdata d hd).symm
        · refine (hidle.data d (hkept hphase d hd).1).1.said fun q hq => ?_
          cases hq
          exact hphase
    have hanswer := (hnotify.sayQuiet [.answer id answer] fun o ho =>
      List.mem_singleton.mp ho ▸ trivial).withRest controller (s.handle id r).eventSource
        (s.handle id r).sources (s.log ++ [.notify p] ++ [.answer id answer])
    simpa only [List.map_cons, List.map_nil, List.append_assoc, List.cons_append, List.nil_append]
      using hanswer

/-- A request settles. -/
theorem Inv.settle (hi : Inv env before s) {id : ℕ} {outcome : B ⊕ Reason} {s' : State V B}
    (h : settle s id outcome = some s') : Follows env before s (.settle id outcome) s' [] [] := by
  obtain ⟨r, hr, hpending, rfl⟩ := settle_eq h
  have hidle : Inv env (before ++ [.did (.settle id outcome)]) s := hi.idle rfl rfl
  refine .quiet rfl (List.append_nil _).symm (fun o ho => absurd ho List.not_mem_nil)
    (hidle.withRequest (hi.le_of_request hr) (fun r' hr' hhandled => ?_) fun body hbody => ?_)
  -- a request whose handlers have run cannot settle again
  · obtain rfl := Option.some.inj (hr.symm.trans hr')
    cases hpending.symm.trans hhandled
  · cases outcome with
    | inl body' =>
      cases hbody
      exact List.mem_append_right _ (List.mem_singleton_self _)
    | inr e => cases hbody

/-- An event is delivered. -/
theorem Inv.deliver (hi : Inv env before s) {k : ℕ} {event : Event} {thrown : Option Reason}
    {s' : State V B} (h : deliver env s k event thrown = some s') :
    ∃ new loads, Follows env before s (.deliver k event thrown) s' new loads := by
  rcases deliver_cases h with ⟨hevent, connected, rfl⟩ | ⟨hevent, failed, rfl⟩
  · have ha : (calls before).act (.deliver k event thrown : Action V B) = calls before := by
      rcases hevent with rfl | rfl <;> rfl
    exact ⟨[.stream connected], [], .quiet (congrArg Calls.loads ha) rfl
      (fun o ho => List.mem_singleton.mp ho ▸ trivial)
      ((hi.idle (congrArg Calls.loads ha) (congrArg Calls.disposed ha)).withRest _ _ _ _)⟩
  have ha : (calls before).act (.deliver k event thrown : Action V B) =
      if (calls before).disposed then calls before
      else { calls before with
        loads := (calls before).loads ++
          ((calls before).loads.getLast?.map fun l => ⟨l.given, true, true⟩).toList } := by
    rcases hevent with rfl | rfl <;> rfl
  rw [hi.disposed] at ha
  have hquiet : ∀ o ∈ [.stream true, .ingest failed s.activeSelection], (o : Output V B).Quiet := by
    intro o ho
    rcases List.mem_pair.mp ho with rfl | rfl <;> trivial
  -- an event that loads nothing is still told to its listener
  have hsilent (hnothing : s.disposed = true ∨ s.activeSelection = none)
      (ha : (calls before).act (.deliver k event thrown : Action V B) = calls before) :
      Follows env before s (.deliver k event thrown) (onIngest env s failed thrown)
        [.stream true, .ingest failed s.activeSelection] [] := by
    rw [onIngest_silent hnothing]
    exact .quiet (congrArg Calls.loads ha) (log_two _ _ _) hquiet
      ((hi.idle (congrArg Calls.loads ha) (congrArg Calls.disposed ha)).withRest _ _ _ _)
  cases hopen : s.disposed with
  | true =>
    rw [hopen, if_pos rfl] at ha
    exact ⟨_, _, hsilent (Or.inl hopen) ha⟩
  | false =>
    rw [hopen, if_neg Bool.false_ne_true] at ha
    have hrel := hi.active hopen
    cases hactive : s.activeSelection with
    | none =>
      rw [hactive] at hrel
      generalize (calls before).loads.getLast? = last at ha hrel
      cases hrel with
      | none => exact ⟨_, _, hsilent (Or.inr hactive) (ha.trans (by simp))⟩
    | some selection =>
      obtain ⟨l, hlast, -, hmeets⟩ := hi.mostRecent hopen hactive
      rw [hlast] at ha
      rw [onIngest_eq hactive, load_of_open (s :=
        { s with log := s.log ++ [.stream true] ++ [.ingest failed (some selection)] }) hopen
        (normalize_of_meets hmeets)]
      rw [hactive] at hquiet
      refine ⟨_, _, hi.follows_load hopen (l := ⟨l.given, true, true⟩) hmeets ha hquiet thrown _ ?_⟩
      rw [log_two, List.append_assoc]
      rfl

/-- One step: what is called in it is allowed, and each load that it asks for sends its request. -/
theorem Inv.step (hi : Inv env before s) {a : Action V B} {s' : State V B} (h : step env s a = some s') :
    ∃ new loads, Follows env before s a s' new loads := by
  have hnil : ∀ o ∈ ([] : List (Output V B)), o.Quiet := fun o ho => absurd ho List.not_mem_nil
  cases a with
  | load given retain fresh thrown =>
    obtain rfl := Option.some.inj h
    have ha : (calls before).act (.load given retain fresh thrown : Action V B) =
        if s.disposed then calls before
        else { calls before with loads := (calls before).loads ++ [⟨given, retain, fresh⟩] } := by
      rw [← hi.disposed]
      rfl
    cases hopen : s.disposed with
    | true =>
      rw [hopen, if_pos rfl] at ha
      have hload : Coordinator.load env s given retain fresh thrown = s := if_pos hopen
      rw [hload]
      exact ⟨[], [], .quiet (congrArg Calls.loads ha) (List.append_nil _).symm hnil
        (hi.idle (congrArg Calls.loads ha) (congrArg Calls.disposed ha))⟩
    | false =>
      rw [hopen, if_neg Bool.false_ne_true] at ha
      rw [load_of_open hopen rfl]
      exact ⟨_, _, hi.follows_load hopen (l := ⟨given, retain, fresh⟩) (meets_normalize env given) ha hnil
        thrown _ rfl⟩
  | settle id outcome => exact ⟨[], [], hi.settle h⟩
  | react id => exact (hi.react h).imp fun new hfollows => ⟨[], hfollows⟩
  | connect made =>
    obtain rfl := Option.some.inj h
    have ha : ((calls before).act (.connect made : Action V B)).loads = (calls before).loads ∧
        ((calls before).act (.connect made : Action V B)).disposed = (calls before).disposed := by
      unfold Calls.act
      dsimp only
      split_ifs <;> exact ⟨rfl, rfl⟩
    have hidle := hi.idle ha.1 ha.2
    refine ⟨[], [], .quiet ha.1 ?_ hnil ?_⟩
    · unfold Coordinator.connect
      split_ifs
      · exact (List.append_nil _).symm
      · cases made <;> exact (List.append_nil _).symm
    · unfold Coordinator.connect
      split_ifs
      · exact hidle
      · cases made with
        | none => exact hidle
        | some can => exact hidle.withRest _ _ _ _
  | deliver k event thrown => exact hi.deliver h
  | dispose =>
    obtain rfl := Option.some.inj h
    cases hopen : s.disposed with
    | true =>
      have hdisposed : (calls before).disposed = true := hi.disposed.trans hopen
      have hdispose : Coordinator.dispose s = s := if_pos hopen
      rw [hdispose]
      exact ⟨[], [], .quiet rfl (List.append_nil _).symm hnil (hi.idle rfl hdisposed.symm)⟩
    | false =>
      rw [dispose_of_open hopen]
      exact ⟨abortOutput s, [], .quiet rfl rfl (quiet_abortOutput s) (hi.end.withRest _ _ _ _)⟩

end Invariant

/-! ## The event source

There is at most one, since later calls of `connect` find it there. It is kept apart from the other
fields, which do not depend on it.
-/

/-- A new event source, with all four listeners if it can have any. -/
def Source.new (can : Abilities) : Source :=
  let events : List Event :=
    if can.addEventListener then [.opened, .error, .ingestDone, .ingestFailed] else []
  ⟨can, events, events, false⟩

/-- The one event source is the first that was connected, and `dispose` releases it. -/
structure Attached (before : List (Entry V B)) (s : State V B) : Prop where
  disposed : (calls before).disposed = s.disposed
  eventSource : s.eventSource = if s.disposed then none else (calls before).source.map fun _ => 0
  sources : s.sources = ((calls before).source.map fun can =>
    if s.disposed then (Source.new can).release else Source.new can).toList

section Sources

variable {env : Values V} {before : List (Entry V B)} {s s' : State V B}

theorem Attached.initial : Attached [] (State.initial : State V B) := ⟨rfl, rfl, rfl⟩

/-- What only `connect` and `dispose` change. -/
def SameSources (s s' : State V B) : Prop :=
  s'.disposed = s.disposed ∧ s'.eventSource = s.eventSource ∧ s'.sources = s.sources

/-- Steps that neither connect nor dispose leave it as it is. -/
theorem Attached.congr (h : Attached before s) {a : Action V B}
    (hsource : ((calls before).act a).source = (calls before).source)
    (hdisposed : ((calls before).act a).disposed = (calls before).disposed) (hsame : SameSources s s')
    (new : List (Output V B)) : Attached (before ++ .did a :: new.map .said) s' := by
  have hcalls : calls (before ++ .did a :: new.map .said) = (calls before).act a := by
    rw [List.append_cons, calls_saids, calls_did]
  obtain ⟨h₁, h₂, h₃⟩ := hsame
  refine ⟨?_, ?_, ?_⟩
  · rw [hcalls, hdisposed, h₁, h.disposed]
  · rw [hcalls, hsource, h₁, h₂, h.eventSource]
  · rw [hcalls, hsource, h₁, h₃, h.sources]

/-- Before `dispose` the event source is new. -/
theorem Attached.of_open {c : Calls V} (hcalls : calls before = c) (hdisposed : c.disposed = false)
    (hopen : s.disposed = false) (heventSource : s.eventSource = c.source.map fun _ => 0)
    (hsources : s.sources = (c.source.map Source.new).toList) : Attached before s := by
  refine ⟨by rw [hcalls, hdisposed, hopen], ?_, ?_⟩
  · rw [hcalls, hopen]
    exact heventSource
  · rw [hcalls, hopen]
    exact hsources

/-- Connecting: the first event source stays. -/
theorem Attached.connect (h : Attached before s) (made : Option Abilities) (new : List (Output V B)) :
    Attached (before ++ .did (.connect made) :: new.map .said) (connect s made) := by
  have hcalls : calls (before ++ .did (.connect made) :: new.map .said) =
      if s.disposed then calls before
      else { calls before with source := (calls before).source.or made } := by
    rw [List.append_cons, calls_saids, calls_did, ← h.disposed]
    rfl
  unfold Coordinator.connect
  cases hopen : s.disposed with
  | true =>
    rw [hopen, if_pos rfl] at hcalls
    rw [Bool.true_or, if_pos rfl]
    exact ⟨hcalls ▸ h.disposed, hcalls ▸ h.eventSource, hcalls ▸ h.sources⟩
  | false =>
    rw [hopen, if_neg Bool.false_ne_true] at hcalls
    have heventSource := h.eventSource
    have hsources := h.sources
    have hdisposed : (calls before).disposed = false := h.disposed.trans hopen
    simp only [hopen, Bool.false_eq_true, if_false] at heventSource hsources
    rw [heventSource, Bool.false_or]
    cases hsource : (calls before).source with
    | some can =>
      rw [hsource] at hcalls heventSource hsources
      exact .of_open hcalls hdisposed hopen heventSource hsources
    | none =>
      rw [hsource] at hcalls heventSource hsources
      cases made with
      | none => exact .of_open hcalls hdisposed hopen heventSource hsources
      | some can =>
        refine .of_open hcalls hdisposed rfl ?_ ?_
        · exact congrArg (fun sources => some (List.length sources)) hsources
        · exact congrArg (· ++ [Source.new can]) hsources

/-- Disposing: the event source is released. -/
theorem Attached.dispose (h : Attached before s) (new : List (Output V B)) :
    Attached (before ++ .did .dispose :: new.map .said) (dispose s) := by
  have hcalls :
      calls (before ++ .did .dispose :: new.map .said) = { calls before with disposed := true } := by
    rw [List.append_cons, calls_saids, calls_did]
    rfl
  cases hopen : s.disposed with
  | true =>
    have hdispose : Coordinator.dispose s = s := if_pos hopen
    rw [hdispose]
    exact ⟨by rw [hcalls, hopen], by rw [hcalls]; exact h.eventSource, by rw [hcalls]; exact h.sources⟩
  | false =>
    have heventSource := h.eventSource
    have hsources := h.sources
    simp only [hopen, Bool.false_eq_true, if_false] at heventSource hsources
    rw [dispose_of_open hopen]
    refine ⟨by rw [hcalls], rfl, ?_⟩
    rw [hcalls, heventSource, hsources]
    cases (calls before).source <;> rfl

/-- The event source is connected, and released after `dispose`. -/
theorem Attached.eq_of_mem (h : Attached before s) {source : Source} (hsource : source ∈ s.sources) :
    ∃ can, source = if s.disposed then (Source.new can).release else Source.new can := by
  rw [h.sources, Option.mem_toList] at hsource
  obtain ⟨can, -, rfl⟩ := Option.map_eq_some_iff.mp hsource
  exact ⟨can, rfl⟩

variable [DecidableEq V]

/-- A load leaves the event source. -/
theorem sameSources_load (env : Values V) (s : State V B) (given : Option (Selection V)) (retain fresh : Bool)
    (thrown : Option Reason) : SameSources s (load env s given retain fresh thrown) := by
  cases hopen : s.disposed with
  | true =>
    have hload : load env s given retain fresh thrown = s := if_pos hopen
    rw [hload]
    exact ⟨rfl, rfl, rfl⟩
  | false =>
    rw [load_of_open hopen rfl]
    exact ⟨rfl, rfl, rfl⟩

/-- So does an event. -/
theorem sameSources_deliver {k : ℕ} {event : Event} {thrown : Option Reason}
    (h : deliver env s k event thrown = some s') : SameSources s s' := by
  rcases deliver_cases h with ⟨-, connected, rfl⟩ | ⟨-, failed, rfl⟩
  · exact ⟨rfl, rfl, rfl⟩
  · cases hactive : s.activeSelection with
    | none =>
      rw [onIngest_silent (Or.inr hactive)]
      exact ⟨rfl, rfl, rfl⟩
    | some selection =>
      rw [onIngest_eq hactive]
      exact sameSources_load env
        { s with log := s.log ++ [.stream true] ++ [.ingest failed (some selection)] } _ _ _ _

theorem Attached.step (h : Attached before s) {a : Action V B} (hstep : step env s a = some s')
    (new : List (Output V B)) : Attached (before ++ .did a :: new.map .said) s' := by
  cases a with
  | load given retain fresh thrown =>
    obtain rfl := Option.some.inj hstep
    refine h.congr ?_ ?_ (sameSources_load env s given retain fresh thrown) new <;> unfold Calls.act <;>
      dsimp only <;> split_ifs <;> rfl
  | settle id outcome =>
    obtain ⟨r, -, -, rfl⟩ := settle_eq hstep
    refine h.congr (a := .settle id outcome) rfl rfl ?_ new
    exact ⟨rfl, rfl, rfl⟩
  | react id =>
    obtain ⟨r, -, -, -, hreacts⟩ := reacts_of_react hstep
    have hsame : SameSources s s' := by cases hreacts <;> exact ⟨rfl, rfl, rfl⟩
    exact h.congr (a := .react id) rfl rfl hsame new
  | connect made =>
    obtain rfl := Option.some.inj hstep
    exact h.connect made new
  | deliver k event thrown =>
    refine h.congr ?_ ?_ (sameSources_deliver hstep) new <;> cases event <;> unfold Calls.act <;>
      dsimp only <;> split_ifs <;> rfl
  | dispose =>
    obtain rfl := Option.some.inj hstep
    exact h.dispose new

end Sources

/-! ## Every run

The trace of a run has every action in its order, and the calls of the log between them.
-/

section Runs

variable [DecidableEq V]

/-- What the trace of a run tells. -/
structure Safe (env : Values V) (as : List (Action V B)) (s : State V B) : Prop where
  /-- It has every action that was executed, and every call that was made. -/
  executed : (trace env as).filterMap Entry.action = as
  called : (trace env as).filterMap Entry.output = s.log
  /-- Every publication and every request is allowed by what was before it. -/
  lawful : Runs.Lawful (Allowed env) (trace env as)
  /-- Every load that was asked for sent one request, in order. -/
  sent : List.Forall₂ (Fulfils env) (calls (trace env as)).loads (s.log.filterMap Output.fetched)
  /-- The event source is the first that was connected. -/
  connected : s.sources.map Source.can = (calls (trace env as)).source.toList
  /-- It has all four listeners, if it can have any, until `dispose` removes them, if that can be. -/
  listening : .dispose ∉ as → ∀ source ∈ s.sources, source.can.addEventListener = true →
    ∀ event, event ∈ source.listeners
  removed : .dispose ∈ as → ∀ source ∈ s.sources, source.can.removeEventListener = true →
    source.listeners = []

variable {env : Values V} {s s' : State V B}

/-- The entries of a step are its action and what it adds to the log. -/
theorem entries_eq {a : Action V B} {new : List (Output V B)} (h : step env s a = some s')
    (hlog : s'.log = s.log ++ new) : entries env s a = .did a :: new.map .said := by
  rw [entries, h, Option.elim_some, hlog, List.drop_left]

/-- The trace has every action of the run. -/
theorem actions_record {as : List (Action V B)} (hrun : Runs.run (step env) s as = some s') :
    (Runs.record (step env) (entries env) s as).filterMap Entry.action = as := by
  induction as generalizing s with
  | nil => rfl
  | cons a as ih =>
    obtain ⟨m, hm, hrest⟩ := Runs.run_cons.mp hrun
    have hentries : (entries env s a).filterMap Entry.action = [a] := by
      have hfirst : (Entry.did a : Entry V B).action = some a := rfl
      rw [entries, hm, Option.elim_some, List.filterMap_cons_some hfirst, List.filterMap_map]
      exact congrArg (List.cons a) (List.filterMap_eq_nil_iff.mpr fun _ _ => rfl)
    rw [Runs.record, hm, Option.elim_some, List.filterMap_append, hentries, ih hrest]
    rfl

/-- What every step preserves of a state and the trace so far. -/
structure Traced (env : Values V) (before : List (Entry V B)) (s : State V B) : Prop where
  inv : Inv env before s
  attached : Attached before s
  called : before.filterMap Entry.output = s.log
  sent : List.Forall₂ (Fulfils env) (calls before).loads (s.log.filterMap Output.fetched)

theorem Traced.step {before : List (Entry V B)} (h : Traced env before s) {a : Action V B}
    (hstep : step env s a = some s') : Traced env (before ++ entries env s a) s' := by
  obtain ⟨new, loads, hfollows⟩ := h.inv.step hstep
  rw [entries_eq hstep hfollows.log]
  refine ⟨hfollows.inv, h.attached.step hstep new, ?_, ?_⟩
  · rw [List.filterMap_append, h.called, List.filterMap_cons_none rfl, List.filterMap_map, hfollows.log]
    exact congrArg (s.log ++ ·) List.filterMap_some
  · rw [List.append_cons, calls_saids, calls_did, hfollows.asked, hfollows.log, List.filterMap_append]
    exact List.rel_append h.sent hfollows.sent

/-- In every run of the coordinator: each state that is published and each request that is sent is that of
the most recent load that was asked for, and allowed by what was done and called before; and the listeners of
the event source are there until `dispose` removes them. -/
theorem coordinator_safe {as : List (Action V B)} (hrun : Runs.run (step env) State.initial as = some s) :
    Safe env as s := by
  have h : Traced env (trace env as) s :=
    Runs.record_preserves (P := fun s l _ => Traced env l s) (g := fun _ _ => ([] : List Unit)) (k := [])
      (l := []) (fun _ _ _ _ _ h hstep => h.step hstep)
      ⟨.initial, .initial, rfl, .nil⟩ hrun
  have hactions := actions_record hrun
  have hdisposed : .dispose ∈ as ↔ s.disposed = true := by
    rw [← h.attached.disposed, disposed_calls]
    nth_rewrite 1 [← hactions]
    rw [List.mem_filterMap]
    constructor
    · rintro ⟨e, he, ha⟩
      cases e with
      | did a => exact Option.some.inj ha ▸ he
      | said o => cases ha
    · exact fun he => ⟨_, he, rfl⟩
  refine ⟨hactions, h.called, h.inv.lawful, h.sent, ?_, fun hnot source hsource hcan event => ?_,
    fun hdispose source hsource hcan => ?_⟩
  · rw [h.attached.sources]
    cases (calls (trace env as)).source with
    | none => rfl
    | some can => cases s.disposed <;> rfl
  · obtain ⟨can, rfl⟩ := h.attached.eq_of_mem hsource
    rw [if_neg (mt hdisposed.mpr hnot)] at hcan ⊢
    have hcan : can.addEventListener = true := hcan
    have hall (event : Event) : event ∈ [Event.opened, .error, .ingestDone, .ingestFailed] := by
      cases event <;> decide
    unfold Source.new
    rw [if_pos hcan]
    exact hall event
  · obtain ⟨can, rfl⟩ := h.attached.eq_of_mem hsource
    rw [if_pos (hdisposed.mp hdispose)] at hcan ⊢
    have hcan : can.removeEventListener = true := hcan
    exact (if_pos hcan).trans (List.filter_eq_nil_iff.mpr fun event hevent => by
      rw [decide_eq_true_iff]
      exact not_not.mpr hevent)

/-- A stale body, a late answer to a request that was replaced, and an event after `dispose`. -/
def staleRun : List (Action Str ℕ) :=
  [.connect (some ⟨true, true, true⟩), .load none false false none,
    .load (some ⟨lit "7d", []⟩) false false none, .settle 1 (.inl 10), .settle 2 (.inl 20), .react 2,
    .react 1, .deliver 0 .ingestDone none, .settle 3 (.inr ⟨lit "TypeError", lit "offline", []⟩),
    .react 3, .load (some ⟨lit "7d", []⟩) true false none, .dispose, .settle 4 (.inl 30), .react 4]

/-- In that run no listener is left, although all four were there, and the loads that were asked for are the
three calls and the ingest. -/
theorem staleRun_safe : ∃ s, Runs.run (step texts) State.initial staleRun = some s ∧ Safe texts staleRun s ∧
    (∃ source, s.sources = [source] ∧ source.listeners = []) ∧
    (calls (trace texts staleRun)).loads.map Load.fresh = [false, false, true, false] := by
  have hsome : (Runs.run (step texts) State.initial staleRun).isSome = true := by decide +kernel
  obtain ⟨s, hs⟩ := Option.isSome_iff_exists.mp hsome
  have hsafe := coordinator_safe hs
  have hcalls : (calls (trace texts staleRun)).source = some ⟨true, true, true⟩ ∧
      (calls (trace texts staleRun)).loads.map Load.fresh = [false, false, true, false] := by decide +kernel
  have hconnected := hsafe.connected
  rw [hcalls.1] at hconnected
  obtain ⟨source, hsource, hcan⟩ := List.map_eq_singleton_iff.mp hconnected
  have hmem : source ∈ s.sources := hsource ▸ List.mem_singleton_self source
  have hdispose : Action.dispose ∈ staleRun := by simp [staleRun]
  exact ⟨s, hs, hsafe, ⟨source, hsource, hsafe.removed hdispose source hmem (hcan ▸ rfl)⟩, hcalls.2⟩

/-- The phases of that run: the late answer publishes nothing, nor does the one after `dispose`. -/
example : (Runs.run (step texts) State.initial staleRun).map
    (fun s => s.log.filterMap fun o => match o with | .notify p => some p.phase | _ => none) =
      some [.loading, .loading, .ready, .refreshing, .stale, .refreshing] := by
  decide +kernel

end Runs

end Ghpulse.Web.Coordinator
