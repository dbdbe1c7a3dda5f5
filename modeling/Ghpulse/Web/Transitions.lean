import Ghpulse.Web.Coordinator

/-!
# What the operations of the coordinator change

One lemma for each operation of a coordinator that is not disposed: the fields it changes, and what it adds
to the log.

Reference: `src/app.jsx` (`createDashboardRequestCoordinator`).
-/

open Python

namespace Ghpulse.Web.Coordinator

variable {V B : Type}

/-! ## The operations

What an operation adds to the log is a list, so that what a run has called is the concatenation of these
lists. The handlers of a request have two outcomes, however many branches the source has.
-/

/-- What `abortCurrent` does that others can see. -/
def abortOutput (s : State V B) : List (Output V B) := (s.controller.map Output.abort).toList

/-- Aborting appends to the log and takes the controller. -/
theorem abortCurrent_eq (s : State V B) :
    abortCurrent s = { s with log := s.log ++ abortOutput s, controller := none } := by
  obtain ⟨_, _, _, _, controller, _, _, _, _⟩ := s
  cases controller
  · exact congrArg (State.mk _ _ _ _ _ _ _ _) (List.append_nil _).symm
  · rfl

/-- Releasing a controller takes it or leaves it. -/
theorem controller_releaseController (s : State V B) (id : ℕ) :
    (releaseController s id).controller = none ∨ (releaseController s id).controller = s.controller := by
  unfold releaseController
  dsimp only
  split_ifs
  · exact Or.inl rfl
  · exact Or.inr rfl

/-- A request that settles was pending. -/
theorem settle_eq {s s' : State V B} {id : ℕ} {outcome : B ⊕ Reason} (h : settle s id outcome = some s') :
    ∃ r, s.requests id = some r ∧ r.status = .pending ∧
      s' = { s with
        requests := Function.update s.requests id
          (some { r with status := outcome.elim .resolved .rejected }) } := by
  obtain ⟨r, hr, h⟩ := Option.bind_eq_some_iff.mp h
  dsimp only at h
  cases hstatus : r.status with
  | pending =>
    simp only [hstatus, Option.some.injEq] at h
    exact ⟨r, hr, hstatus, h.symm⟩
  | handled => simp only [hstatus, reduceCtorEq] at h
  | resolved body => simp only [hstatus, reduceCtorEq] at h
  | rejected e => simp only [hstatus, reduceCtorEq] at h

/-- Two entries in a row. -/
theorem log_two (s : State V B) (o o' : Output V B) : s.log ++ [o] ++ [o'] = s.log ++ [o, o'] := by
  rw [List.append_assoc, List.singleton_append]

variable [DecidableEq V]

/-! ## A load

The only operation that sends a request. What it publishes first says that the load has begun, with the
data that it keeps.
-/

/-- What is published when a load starts. -/
def startState (s : State V B) (retain : Bool) (selection : Selection V) : Published V B :=
  let kept := retained s retain selection
  ⟨if kept.isSome then .refreshing else .loading, selection, kept, [], s.requestId + 1⟩

/-- A request that starts is not over. -/
theorem not_terminal_startState (s : State V B) (retain : Bool) (selection : Selection V) :
    ¬ (startState s retain selection).phase.Terminal := by
  unfold startState
  dsimp only
  split_ifs <;> exact id

/-- What a load does that others can see. -/
def loadOutput (s : State V B) (retain fresh : Bool) (selection : Selection V) : List (Output V B) :=
  abortOutput s ++ [.notify (startState s retain selection), .fetch (s.requestId + 1) selection fresh]

/-- A load starts a request, and aborts the one before. -/
theorem load_of_open {env : Values V} {s : State V B} (hopen : s.disposed = false)
    {selection : Option (Selection V)} {normalized : Selection V}
    (hnormal : normalizeDashboardSelection env selection = normalized) (retain fresh : Bool)
    (thrown : Option Reason) :
    load env s selection retain fresh thrown =
      { s with
        requestId := s.requestId + 1
        activeSelection := some normalized
        activeData := retained s retain normalized
        controller := some (s.requestId + 1)
        requests := Function.update s.requests (s.requestId + 1)
          (some ⟨normalized, retain, (thrown.map .rejected).getD .pending⟩)
        log := s.log ++ loadOutput s retain fresh normalized } := by
  obtain ⟨disposed, requestId, _, _, controller, _, _, _, log⟩ := s
  obtain rfl : disposed = false := hopen
  unfold load
  rw [if_neg Bool.false_ne_true, hnormal]
  dsimp only
  rw [abortCurrent_eq]
  refine congrArg (State.mk _ _ _ _ _ _ _ _) ?_
  simp only [State.emit, List.append_assoc, List.cons_append, List.nil_append]
  rfl

/-- A load whose request is sent. -/
theorem load_eq {env : Values V} {s : State V B} (hopen : s.disposed = false) {selection : Selection V}
    (hnormal : normalizeDashboardSelection env (some selection) = selection) (retain fresh : Bool) :
    load env s (some selection) retain fresh none =
      { s with
        requestId := s.requestId + 1
        activeSelection := some selection
        activeData := retained s retain selection
        controller := some (s.requestId + 1)
        requests := Function.update s.requests (s.requestId + 1) (some ⟨selection, retain, .pending⟩)
        log := s.log ++ loadOutput s retain fresh selection } :=
  load_of_open hopen hnormal retain fresh none

/-! ## The handlers of a request

A request may settle long after another one has taken its place. Its handlers then say no more than that
it was answered.
-/

/-- A request that is not superseded is the last one, and its selection is active. -/
theorem not_superseded {s : State V B} {id : ℕ} {selection : Selection V}
    (h : superseded s id selection = false) :
    s.disposed = false ∧ id = s.requestId ∧ s.activeSelection = some selection := by
  unfold superseded at h
  simp only [Bool.or_eq_false_iff, decide_eq_false_iff_not, not_not, Bool.not_eq_false'] at h
  exact ⟨h.1.1, h.1.2, sameDashboardSelection_iff.mp h.2⟩

/-- The handlers of request `id` have run. -/
def State.handle (s : State V B) (id : ℕ) (r : Request V B) : State V B :=
  { s with requests := Function.update s.requests id (some { r with status := .handled }) }

/-- What the handlers of a request do: nothing that is published, or the end of its load. -/
inductive Reacts (s : State V B) (id : ℕ) (r : Request V B) : State V B → Prop where
  | silent (h : superseded s id r.selection = true ∨
      ∃ e, r.status = .rejected e ∧ e.name = lit "AbortError") :
    Reacts s id r { s.handle id r with log := s.log ++ [.answer id none] }
  | published (p : Published V B) (answer : Option (Data V B)) (controller : Option ℕ)
    (hopen : superseded s id r.selection = false) (hphase : p.phase.Terminal)
    (hselection : p.selection = r.selection) (hid : p.requestId = id)
    (hready : p.phase = .ready → ∃ body, r.status = .resolved body ∧ p.data = some ⟨body, r.selection⟩)
    (hkept : p.phase ≠ .ready → ∀ d, p.data = some d → s.activeData = some d ∧ d.selection = r.selection)
    (hstale : p.phase = .stale → p.data.isSome = true)
    (hcontroller : controller = none ∨ controller = s.controller) :
    Reacts s id r { s.handle id r with
      controller := controller
      activeData := p.data
      log := s.log ++ [.notify p] ++ [.answer id answer] }

/-- What runs when a request has settled. -/
theorem reacts_of_react {s s' : State V B} {id : ℕ} (h : react s id = some s') :
    ∃ r, s.requests id = some r ∧ r.status ≠ .pending ∧ r.status ≠ .handled ∧ Reacts s id r s' := by
  obtain ⟨r, hr, h⟩ := Option.bind_eq_some_iff.mp h
  dsimp only at h
  cases hstatus : r.status with
  | pending => simp only [hstatus, reduceCtorEq] at h
  | handled => simp only [hstatus, reduceCtorEq] at h
  | resolved body =>
    simp only [hstatus, Option.some.injEq] at h
    subst h
    refine ⟨r, hr, by rw [hstatus]; simp, by rw [hstatus]; simp, ?_⟩
    unfold onBody
    split_ifs with hsuperseded
    · exact .silent (Or.inl hsuperseded)
    · exact Reacts.published (s := s) ⟨.ready, r.selection, some ⟨body, r.selection⟩, [], id⟩
        (some ⟨body, r.selection⟩) (releaseController (s.handle id r) id).controller
        ((Bool.not_eq_true _).mp hsuperseded) trivial rfl rfl (fun _ => ⟨body, hstatus, rfl⟩)
        (fun h => absurd rfl h) (fun h => by cases h) (controller_releaseController (s.handle id r) id)
  | rejected e =>
    simp only [hstatus, Option.some.injEq] at h
    subst h
    refine ⟨r, hr, by rw [hstatus]; simp, by rw [hstatus]; simp, ?_⟩
    unfold onReason
    split_ifs with hsilent
    · refine .silent ?_
      rw [Bool.or_eq_true, decide_eq_true_iff] at hsilent
      exact hsilent.imp_right fun hname => ⟨e, hstatus, hname⟩
    · rw [Bool.or_eq_true, not_or, Bool.not_eq_true] at hsilent
      have hterminal : (if (retained (s.handle id r) r.retain r.selection).isSome then Phase.stale
          else Phase.error).Terminal := by
        split_ifs <;> trivial
      have hready : (if (retained (s.handle id r) r.retain r.selection).isSome then Phase.stale
          else Phase.error) ≠ .ready := by
        split_ifs <;> exact Phase.noConfusion
      have hkept (d : Data V B) (hd : retained (s.handle id r) r.retain r.selection = some d) :
          s.activeData = some d ∧ d.selection = r.selection := (retained_eq_some.mp hd).2
      have hstale (h : (if (retained (s.handle id r) r.retain r.selection).isSome then Phase.stale
          else Phase.error) = .stale) : (retained (s.handle id r) r.retain r.selection).isSome = true := by
        split_ifs at h with hsome
        exact hsome
      exact Reacts.published (s := s) ⟨_, r.selection, retained (s.handle id r) r.retain r.selection,
        e.error, id⟩ none (releaseController (s.handle id r) id).controller hsilent.1 hterminal rfl rfl
        (fun h => absurd h hready) (fun _ => hkept) hstale
        (controller_releaseController (s.handle id r) id)

/-! ## Events

An announced ingest, done or failed, loads what is active again; the other events only tell the state of
the stream.
-/

/-- An event of an ingest tells its listener, and loads the active selection again. -/
theorem onIngest_eq {env : Values V} {s : State V B} {selection : Selection V}
    (hactive : s.activeSelection = some selection) (failed : Bool) (thrown : Option Reason) :
    onIngest env s failed thrown = load env
      { s with log := s.log ++ [.stream true] ++ [.ingest failed (some selection)] } (some selection) true
        true thrown := by
  obtain ⟨_, _, active, _, _, _, _, _, _⟩ := s
  obtain rfl : active = some selection := hactive
  rfl

/-- It loads nothing where nothing is active, or after `dispose`. -/
theorem onIngest_silent {env : Values V} {s : State V B} (h : s.disposed = true ∨ s.activeSelection = none)
    (failed : Bool) (thrown : Option Reason) :
    onIngest env s failed thrown =
      { s with log := s.log ++ [.stream true] ++ [.ingest failed s.activeSelection] } := by
  obtain ⟨disposed, _, active, _, _, _, _, _, _⟩ := s
  cases active with
  | none => rfl
  | some selection =>
    obtain rfl : disposed = true := h.resolve_right (Option.some_ne_none selection)
    rfl

/-- What an event source delivers. -/
theorem deliver_cases {env : Values V} {s s' : State V B} {k : ℕ} {event : Event}
    {thrown : Option Reason} (h : deliver env s k event thrown = some s') :
    ((event = .opened ∨ event = .error) ∧
      ∃ connected, s' = { s with log := s.log ++ [.stream connected] }) ∨
    (event = .ingestDone ∨ event = .ingestFailed) ∧ ∃ failed, s' = onIngest env s failed thrown := by
  obtain ⟨source, -, h⟩ := Option.bind_eq_some_iff.mp h
  split_ifs at h
  cases h
  cases event with
  | opened => exact Or.inl ⟨Or.inl rfl, true, rfl⟩
  | error => exact Or.inl ⟨Or.inr rfl, false, rfl⟩
  | ingestDone => exact Or.inr ⟨Or.inl rfl, false, rfl⟩
  | ingestFailed => exact Or.inr ⟨Or.inr rfl, true, rfl⟩

omit [DecidableEq V] in
/-- An end aborts the request that is under way, and lets go of the event source. -/
theorem dispose_of_open {s : State V B} (hopen : s.disposed = false) :
    dispose s = { s with
      disposed := true
      requestId := s.requestId + 1
      controller := none
      eventSource := none
      sources := s.eventSource.elim s.sources fun k => s.sources.modify k Source.release
      log := s.log ++ abortOutput s } := by
  obtain ⟨disposed, _, _, _, _, eventSource, _, _, _⟩ := s
  obtain rfl : disposed = false := hopen
  unfold dispose
  rw [if_neg Bool.false_ne_true]
  dsimp only
  rw [abortCurrent_eq]
  cases eventSource <;> rfl

/-- A selection of texts whose range is not empty is normal. -/
theorem normalize_texts {selection : Selection Str} (h : selection.range ≠ []) :
    normalizeDashboardSelection texts (some selection) = selection := by
  obtain ⟨range, repository⟩ := selection
  have hrange : range ≠ [] := h
  have hrepository : (if decide (repository ≠ []) = true then repository else []) = repository := by
    split_ifs with hne
    · rfl
    · exact (not_not.mp fun hne' => hne (decide_eq_true hne')).symm
  exact congrArg₂ Selection.mk (if_pos (decide_eq_true hrange)) hrepository

/-! ## The traffic of a coordinator

Requests and answers are the part of the state that another component sees. All other fields are forgotten
here.
-/

/-- The request that an output sends. -/
def Output.fetched : Output V B → Option (ℕ × Selection V × Bool)
  | .fetch id selection fresh => some (id, selection, fresh)
  | _ => none

/-- The state that an output publishes as ready. -/
def Output.readied : Output V B → Option (Published V B)
  | .notify p => if p.phase = .ready then some p else none
  | _ => none

/-- What goes in and out: the number of the last request, the requests, those that were sent, and the states
that were published as ready. -/
structure Traffic (V B : Type) where
  requestId : ℕ
  requests : ℕ → Option (Request V B)
  fetches : List (ℕ × Selection V × Bool)
  readies : List (Published V B)

/-- The traffic so far. -/
def State.traffic (s : State V B) : Traffic V B :=
  ⟨s.requestId, s.requests, s.log.filterMap Output.fetched, s.log.filterMap Output.readied⟩

/-- What a step does to the traffic; `received` says which bodies requests are fulfilled with. -/
inductive Moves (received : ℕ → B → Prop) (t : Traffic V B) : Traffic V B → Prop where
  /-- Nothing is sent or published; `dispose` takes a number. -/
  | quiet (requestId : ℕ) (hid : t.requestId ≤ requestId) : Moves received t { t with requestId := requestId }
  /-- A request is sent. -/
  | started (selection : Selection V) (retain fresh : Bool) (status : Status B)
      (hstatus : ∀ body, status ≠ .resolved body) :
    Moves received t { t with
      requestId := t.requestId + 1
      requests := Function.update t.requests (t.requestId + 1) (some ⟨selection, retain, status⟩)
      fetches := t.fetches ++ [(t.requestId + 1, selection, fresh)] }
  /-- A request settles. -/
  | settled (id : ℕ) (r : Request V B) (outcome : B ⊕ Reason) (hr : t.requests id = some r)
      (hreceived : ∀ body, outcome = .inl body → received id body) :
    Moves received t { t with
      requests := Function.update t.requests id (some { r with status := outcome.elim .resolved .rejected }) }
  /-- The handlers of a request run and publish nothing as ready. -/
  | handled (id : ℕ) (r : Request V B) (hr : t.requests id = some r) :
    Moves received t { t with requests := Function.update t.requests id (some { r with status := .handled }) }
  /-- The handlers of a request publish its body. -/
  | readied (id : ℕ) (r : Request V B) (body : B) (p : Published V B) (hr : t.requests id = some r)
      (hstatus : r.status = .resolved body) (hid : p.requestId = id) (hselection : p.selection = r.selection)
      (hdata : p.data = some ⟨body, r.selection⟩) :
    Moves received t { t with
      requests := Function.update t.requests id (some { r with status := .handled })
      readies := t.readies ++ [p] }

/-- Entries that a filter ignores may be appended. -/
theorem filterMap_append_of_none {α β : Type} {f : α → Option β} (log : List α) {new : List α}
    (hnew : ∀ o ∈ new, f o = none) : (log ++ new).filterMap f = log.filterMap f := by
  rw [List.filterMap_append, List.filterMap_eq_nil_iff.mpr hnew, List.append_nil]

/-- A load tells of the request that it sends. -/
theorem fetch_mem_loadOutput (s : State V B) (retain fresh : Bool) (selection : Selection V) :
    .fetch (s.requestId + 1) selection fresh ∈ loadOutput s retain fresh selection := by
  unfold loadOutput
  simp

/-- An event of an ingest sends a fresh request for the active selection. -/
theorem onIngest_loads {env : Values V} {s : State V B} (hopen : s.disposed = false) {selection : Selection V}
    (hactive : s.activeSelection = some selection)
    (hnormal : normalizeDashboardSelection env (some selection) = selection) (failed : Bool) :
    (onIngest env s failed none).requestId = s.requestId + 1 ∧
      .fetch (s.requestId + 1) selection true ∈ (onIngest env s failed none).log := by
  rw [onIngest_eq hactive failed none,
    load_eq (s := { s with log := s.log ++ [.stream true] ++ [.ingest failed (some selection)] })
      hopen hnormal]
  exact ⟨rfl, List.mem_append_right _ (fetch_mem_loadOutput _ _ _ _)⟩

/-! ## What each step does to the traffic

Aborts, the answers of promises and the state of the stream do not count here, so a step adds at most one
request or one answer.
-/

/-- An output that neither sends nor publishes as ready. -/
def Output.Silent (o : Output V B) : Prop := o.fetched = none ∧ o.readied = none

omit [DecidableEq V] in
/-- Silent outputs leave what was sent and what was published. -/
theorem traffic_eq {s s' : State V B} {new : List (Output V B)} (hlog : s'.log = s.log ++ new)
    (hsilent : ∀ o ∈ new, o.Silent) :
    s'.traffic = ⟨s'.requestId, s'.requests, s.traffic.fetches, s.traffic.readies⟩ := by
  unfold State.traffic
  rw [hlog, filterMap_append_of_none _ fun o ho => (hsilent o ho).1,
    filterMap_append_of_none _ fun o ho => (hsilent o ho).2]

omit [DecidableEq V] in
/-- A step whose outputs are silent. -/
theorem Moves.of_silent {received : ℕ → B → Prop} {s s' : State V B} {new : List (Output V B)}
    (hlog : s'.log = s.log ++ new)
    (hsilent : ∀ o ∈ new, o.Silent)
    (h : Moves received s.traffic ⟨s'.requestId, s'.requests, s.traffic.fetches, s.traffic.readies⟩) :
    Moves received s.traffic s'.traffic := by
  rw [traffic_eq hlog hsilent]
  exact h

omit [DecidableEq V] in
/-- An abort is no request and no answer. -/
theorem silent_abortOutput (s : State V B) : ∀ o ∈ abortOutput s, o.Silent := by
  intro o ho
  obtain ⟨id, -, rfl⟩ := Option.map_eq_some_iff.mp (Option.mem_toList.mp ho)
  exact ⟨rfl, rfl⟩

omit [DecidableEq V] in
/-- A state that is not ready carries no answer. -/
theorem silent_notify {p : Published V B} (h : p.phase ≠ .ready) : (Output.notify p).Silent :=
  ⟨rfl, if_neg h⟩

variable {env : Values V} {s s' : State V B} {received : ℕ → B → Prop}

/-- A load moves the traffic by at most one request. -/
theorem moves_load (selection : Option (Selection V)) (retain fresh : Bool) (thrown : Option Reason) :
    Moves received s.traffic (load env s selection retain fresh thrown).traffic := by
  cases hopen : s.disposed with
  | true =>
    have hload : load env s selection retain fresh thrown = s := if_pos hopen
    rw [hload]
    exact .quiet s.requestId le_rfl
  | false =>
    have hready : (startState s retain (normalizeDashboardSelection env selection)).phase ≠ .ready := fun h =>
      not_terminal_startState s retain (normalizeDashboardSelection env selection) (h ▸ trivial)
    have hfetched : (loadOutput s retain fresh (normalizeDashboardSelection env selection)).filterMap
        Output.fetched = [(s.requestId + 1, normalizeDashboardSelection env selection, fresh)] := by
      rw [loadOutput, List.filterMap_append,
        List.filterMap_eq_nil_iff.mpr fun o ho => (silent_abortOutput s o ho).1]
      rfl
    have hreadied : (loadOutput s retain fresh (normalizeDashboardSelection env selection)).filterMap
        Output.readied = [] := by
      rw [loadOutput, List.filterMap_append,
        List.filterMap_eq_nil_iff.mpr fun o ho => (silent_abortOutput s o ho).2,
        List.filterMap_cons_none (silent_notify hready).2]
      rfl
    have hstatus (body : B) : (thrown.map Status.rejected).getD .pending ≠ .resolved body := by
      cases thrown <;> simp
    have htraffic : (load env s selection retain fresh thrown).traffic = { s.traffic with
        requestId := s.traffic.requestId + 1
        requests := Function.update s.traffic.requests (s.traffic.requestId + 1)
          (some ⟨normalizeDashboardSelection env selection, retain, (thrown.map .rejected).getD .pending⟩)
        fetches := s.traffic.fetches ++
          [(s.traffic.requestId + 1, normalizeDashboardSelection env selection, fresh)] } := by
      rw [load_of_open hopen rfl]
      unfold State.traffic
      dsimp only
      rw [List.filterMap_append, List.filterMap_append, hfetched, hreadied, List.append_nil]
    rw [htraffic]
    exact .started _ retain fresh _ hstatus

omit [DecidableEq V] in
/-- A silent output leaves the traffic. -/
theorem traffic_emit {o : Output V B} (ho : o.Silent) : (s.emit o).traffic = s.traffic :=
  traffic_eq rfl fun _ ho' => List.mem_singleton.mp ho' ▸ ho

/-- The announcement of an ingest run loads at most once. -/
theorem moves_onIngest (failed : Bool) (thrown : Option Reason) :
    Moves received s.traffic (onIngest env s failed thrown).traffic := by
  have htraffic : ((s.emit (.stream true)).emit (.ingest failed s.activeSelection)).traffic = s.traffic :=
    (traffic_emit ⟨rfl, rfl⟩).trans (traffic_emit ⟨rfl, rfl⟩)
  unfold onIngest
  dsimp only
  rw [← htraffic]
  cases s.activeSelection with
  | none => exact .quiet _ le_rfl
  | some selection => exact moves_load _ _ _ _

/-- A reaction answers at most one request. -/
theorem moves_react {id : ℕ} (h : react s id = some s') : Moves received s.traffic s'.traffic := by
  obtain ⟨r, hr, -, -, hreacts⟩ := reacts_of_react h
  cases hreacts with
  | silent =>
    have hsilent : (Output.answer id none : Output V B).Silent := ⟨rfl, rfl⟩
    exact .of_silent rfl (fun o ho => List.mem_singleton.mp ho ▸ hsilent) (.handled id r hr)
  | published p answer controller _ _ hselection hid hready _ _ _ =>
    have hanswer : (Output.answer id answer : Output V B).Silent := ⟨rfl, rfl⟩
    by_cases hphase : p.phase = .ready
    · obtain ⟨body, hstatus, hdata⟩ := hready hphase
      have hfetched :
          ([Output.notify p, .answer id answer] : List (Output V B)).filterMap Output.fetched = [] := rfl
      have hreadied : ([Output.notify p, .answer id answer] : List (Output V B)).filterMap Output.readied =
          [p] := by
        have hone : (Output.notify p).readied = some p := if_pos hphase
        rw [List.filterMap_cons_some hone, List.filterMap_cons_none rfl]
        rfl
      have htraffic : Moves received s.traffic _ :=
        Moves.readied id r body p hr hstatus hid hselection hdata
      unfold State.traffic at htraffic ⊢
      dsimp only [State.handle] at htraffic ⊢
      rw [log_two, List.filterMap_append, List.filterMap_append, hfetched, hreadied, List.append_nil]
      exact htraffic
    · refine .of_silent (log_two _ _ _) (fun o ho => ?_) (.handled id r hr)
      rcases List.mem_pair.mp ho with rfl | rfl
      · exact silent_notify hphase
      · exact hanswer

omit [DecidableEq V] in
/-- An end sends and publishes nothing. -/
theorem moves_dispose : Moves received s.traffic (dispose s).traffic := by
  cases hopen : s.disposed with
  | true =>
    have hdispose : dispose s = s := if_pos hopen
    rw [hdispose]
    exact .quiet _ le_rfl
  | false =>
    rw [dispose_of_open hopen]
    exact .of_silent rfl (silent_abortOutput s) (.quiet _ (Nat.le_succ _))

/-- What a step of a coordinator does to its traffic. -/
theorem moves_of_step {a : Action V B} (h : step env s a = some s') :
    Moves (fun id body => a = .settle id (.inl body)) s.traffic s'.traffic := by
  cases a with
  | load selection retain fresh thrown =>
    cases h
    exact moves_load _ _ _ _
  | settle id outcome =>
    obtain ⟨r, hr, -, rfl⟩ := settle_eq h
    exact .settled id r outcome hr fun body hbody => hbody ▸ rfl
  | react id => exact moves_react h
  | connect made =>
    cases h
    unfold connect
    split_ifs
    · exact .quiet _ le_rfl
    · cases made <;> exact .quiet _ le_rfl
  | deliver k event thrown =>
    obtain ⟨source, -, h⟩ := Option.bind_eq_some_iff.mp h
    split_ifs at h
    cases h
    cases event with
    | opened => exact traffic_emit (s := s) (o := .stream true) ⟨rfl, rfl⟩ ▸ .quiet _ le_rfl
    | error => exact traffic_emit (s := s) (o := .stream false) ⟨rfl, rfl⟩ ▸ .quiet _ le_rfl
    | ingestDone => exact moves_onIngest _ _
    | ingestFailed => exact moves_onIngest _ _
  | dispose =>
    cases h
    exact moves_dispose

/-! ## The numbers of requests

Numbers are given in order and never twice. What is said of the requests after a number is therefore not
affected by the ones before it.
-/

/-- Each request has a number of its own, and what is published as ready belongs to one. -/
structure Numbered (t : Traffic V B) : Prop where
  bounded : ∀ f ∈ t.fetches, f.1 ≤ t.requestId
  unique : ∀ f ∈ t.fetches, ∀ g ∈ t.fetches, f.1 = g.1 → f = g
  asked : ∀ id r, t.requests id = some r → ∃ fresh, (id, r.selection, fresh) ∈ t.fetches
  answered : ∀ p ∈ t.readies, ∃ fresh, (p.requestId, p.selection, fresh) ∈ t.fetches

omit [DecidableEq V] in
/-- Before the first load nothing is numbered. -/
theorem numbered_initial : Numbered (State.initial : State V B).traffic where
  bounded := fun _ hf => absurd hf List.not_mem_nil
  unique := fun _ hf => absurd hf List.not_mem_nil
  asked := fun _ _ hr => by cases hr
  answered := fun _ hp => absurd hp List.not_mem_nil

variable {t t' : Traffic V B}

/-- A value after an update: the new one, or one that was there. -/
theorem update_eq_some {α : Type} {f : ℕ → Option α} {id id' : ℕ} {a a' : α}
    (h : Function.update f id (some a) id' = some a') :
    (id' = id ∧ a' = a) ∨ (id' ≠ id ∧ f id' = some a') := by
  by_cases hid : id' = id
  · subst hid
    rw [Function.update_self] at h
    exact Or.inl ⟨rfl, (Option.some.inj h).symm⟩
  · rw [Function.update_of_ne hid] at h
    exact Or.inr ⟨hid, h⟩

omit [DecidableEq V] in
/-- A request keeps its selection when its status changes. -/
theorem Numbered.asked_update (h : Numbered t) {id : ℕ} {r : Request V B} (hr : t.requests id = some r)
    (status : Status B) (id' : ℕ) (r' : Request V B)
    (hr' : Function.update t.requests id (some { r with status := status }) id' = some r') :
    ∃ fresh, (id', r'.selection, fresh) ∈ t.fetches := by
  rcases update_eq_some hr' with ⟨rfl, rfl⟩ | ⟨-, hold⟩
  · exact h.asked id' r hr
  · exact h.asked id' r' hold

omit [DecidableEq V] in
/-- The numbers of the requests stay in order. -/
theorem Numbered.moves (h : Numbered t) (hmoves : Moves received t t') : Numbered t' := by
  cases hmoves with
  | quiet requestId hid =>
    exact ⟨fun f hf => (h.bounded f hf).trans hid, h.unique, h.asked, h.answered⟩
  | started selection retain fresh status hstatus =>
    -- no request that was sent before has the new number
    have hnew (f : ℕ × Selection V × Bool) (hf : f ∈ t.fetches) : f.1 ≠ t.requestId + 1 :=
      ((h.bounded f hf).trans_lt (Nat.lt_succ_self _)).ne
    refine ⟨fun f hf => ?_, fun f hf g hg hfg => ?_, fun id r hr => ?_, fun p hp => ?_⟩
    · rcases List.mem_append.mp hf with hf | hf
      · exact (h.bounded f hf).trans (Nat.le_succ _)
      · rw [List.mem_singleton.mp hf]
    · rcases List.mem_append.mp hf with hf | hf <;> rcases List.mem_append.mp hg with hg | hg
      · exact h.unique f hf g hg hfg
      · exact absurd (hfg.trans (by rw [List.mem_singleton.mp hg])) (hnew f hf)
      · exact absurd (hfg.symm.trans (by rw [List.mem_singleton.mp hf])) (hnew g hg)
      · exact (List.mem_singleton.mp hf).trans (List.mem_singleton.mp hg).symm
    · rcases update_eq_some hr with ⟨rfl, rfl⟩ | ⟨-, hold⟩
      · exact ⟨fresh, List.mem_append_right _ (List.mem_singleton.mpr rfl)⟩
      · exact (h.asked id r hold).imp fun _ => List.mem_append_left _
    · exact (h.answered p hp).imp fun _ => List.mem_append_left _
  | settled id r outcome hr => exact ⟨h.bounded, h.unique, h.asked_update hr _, h.answered⟩
  | handled id r hr => exact ⟨h.bounded, h.unique, h.asked_update hr _, h.answered⟩
  | readied id r body p hr hstatus hid hselection hdata =>
    refine ⟨h.bounded, h.unique, h.asked_update hr _, fun q hq => ?_⟩
    rcases List.mem_append.mp hq with hq | hq
    · exact h.answered q hq
    · rw [List.mem_singleton.mp hq, hid, hselection]
      exact h.asked id r hr

/-! ## What is answered

For the requests that somebody waits for: the bodies that they are fulfilled with, and the states that are
published for them, are of one kind.
-/

/-- The fresh requests that are wanted are fulfilled with bodies of a kind, and so are the states that are
published for them. -/
structure Answered (wanted : ℕ → Selection V → Prop) (shows : Selection V → B → Prop) (t : Traffic V B) :
    Prop where
  resolved : ∀ id r body, t.requests id = some r → r.status = .resolved body →
    (id, r.selection, true) ∈ t.fetches → wanted id r.selection → shows r.selection body
  readied : ∀ p ∈ t.readies, (p.requestId, p.selection, true) ∈ t.fetches → wanted p.requestId p.selection →
    ∃ body, p.data = some ⟨body, p.selection⟩ ∧ shows p.selection body

variable {wanted : ℕ → Selection V → Prop} {shows : Selection V → B → Prop}

omit [DecidableEq V] in
/-- A request that was sent before is not the next one. -/
theorem mem_fetches_of_le {id : ℕ} (hid : id ≤ t.requestId) {selection selection' : Selection V}
    {fresh fresh' : Bool}
    (hf : (id, selection, fresh) ∈ t.fetches ++ [(t.requestId + 1, selection', fresh')]) :
    (id, selection, fresh) ∈ t.fetches := by
  refine (List.mem_append.mp hf).resolve_right fun hnew => ?_
  have heq : id = t.requestId + 1 := congrArg Prod.fst (List.mem_singleton.mp hnew)
  exact absurd hid (heq ▸ Nat.not_succ_le_self _)

omit [DecidableEq V] in
/-- No request has a number above the last one. -/
theorem Numbered.le_of_request (h : Numbered t) {id : ℕ} {r : Request V B} (hr : t.requests id = some r) :
    id ≤ t.requestId := by
  obtain ⟨fresh, hf⟩ := h.asked id r hr
  exact h.bounded _ hf

omit [DecidableEq V] in
/-- No answer has a number above the last one. -/
theorem Numbered.le_of_ready (h : Numbered t) {p : Published V B} (hp : p ∈ t.readies) :
    p.requestId ≤ t.requestId := by
  obtain ⟨fresh, hf⟩ := h.answered p hp
  exact h.bounded _ hf

omit [DecidableEq V] in
/-- A request whose status changes: nothing is asked of the others, and of it only when it is fulfilled. -/
theorem Answered.resolved_update (h : Answered wanted shows t) {id : ℕ} {r : Request V B}
    (hbody : ∀ body, r.status = .resolved body → (id, r.selection, true) ∈ t.fetches →
      wanted id r.selection → shows r.selection body)
    (id' : ℕ) (r' : Request V B) (body : B) (hr' : Function.update t.requests id (some r) id' = some r')
    (hresolved : r'.status = .resolved body) (hf : (id', r'.selection, true) ∈ t.fetches)
    (hwanted : wanted id' r'.selection) : shows r'.selection body := by
  rcases update_eq_some hr' with ⟨rfl, rfl⟩ | ⟨-, hold⟩
  · exact hbody body hresolved hf hwanted
  · exact h.resolved id' r' body hold hresolved hf hwanted

omit [DecidableEq V] in
/-- A step that receives bodies of this kind only. -/
theorem Answered.moves (h : Answered wanted shows t) (hnumbered : Numbered t) (hmoves : Moves received t t')
    (hreceived : ∀ id body selection, received id body → (id, selection, true) ∈ t.fetches →
      wanted id selection → shows selection body) : Answered wanted shows t' := by
  cases hmoves with
  | quiet => exact ⟨h.resolved, h.readied⟩
  | started selection retain fresh status hstatus =>
    refine ⟨fun id r body hr hbody hf hwanted => ?_, fun p hp hf hwanted => ?_⟩
    · rcases update_eq_some hr with ⟨rfl, rfl⟩ | ⟨-, hold⟩
      -- the new request is not fulfilled yet
      · exact absurd hbody (hstatus body)
      · exact h.resolved id r body hold hbody (mem_fetches_of_le (hnumbered.le_of_request hold) hf) hwanted
    · exact h.readied p hp (mem_fetches_of_le (hnumbered.le_of_ready hp) hf) hwanted
  | settled id r outcome hr hbodies =>
    refine ⟨h.resolved_update fun body hbody hf hwanted => ?_, h.readied⟩
    cases outcome with
    | inl body' =>
      cases hbody
      exact hreceived id body r.selection (hbodies body rfl) hf hwanted
    | inr e => cases hbody
  | handled id r hr => exact ⟨h.resolved_update fun body hbody => (by cases hbody), h.readied⟩
  | readied id r body p hr hstatus hid hselection hdata =>
    refine ⟨h.resolved_update fun body hbody => (by cases hbody), fun q hq hf hwanted => ?_⟩
    rcases List.mem_append.mp hq with hq | hq
    · exact h.readied q hq hf hwanted
    · obtain rfl := List.mem_singleton.mp hq
      dsimp only at hf
      rw [hid, hselection] at hf hwanted
      refine ⟨body, ?_, ?_⟩
      · rw [hdata, hselection]
      · rw [hselection]
        exact h.resolved id r body hr hstatus hf hwanted

end Ghpulse.Web.Coordinator
