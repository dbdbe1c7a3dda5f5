import Ghpulse.Library.PyStr
import Ghpulse.Library.Runs
import Mathlib.Data.List.Basic
import Mathlib.Logic.Function.Basic

/-!
# The request coordinator of the dashboard

`createDashboardRequestCoordinator` as a state machine: the variables of the closure, the promises of the
requests it has started, the event source it has connected, and a log of what it calls. A promise settles
at any time, and its handlers run at any later time.

The parts of a selection are arbitrary values, compared by `===`. The coordinator compares normalized
parts only, and `NaN` is not truthy, so `===` is equality there.

Reference: `src/app.jsx` (`normalizeDashboardSelection`, `sameDashboardSelection`,
`createDashboardRequestCoordinator`).
-/

open Python

namespace Ghpulse.Web.Coordinator

/-! ## Selections

A selection is normalized before it is compared, so that a missing part and its default are the same.
-/

/-- A selection; a missing property is `undefined`. -/
structure Selection (V : Type) where
  range : V
  repository : V
  deriving DecidableEq

/-- The truth of values, and the two default texts. -/
structure Values (V : Type) where
  truthy : V → Bool
  thirtyDays : V
  empty : V

variable {V B : Type}

/-- `normalizeDashboardSelection`; nothing stands for a selection that is not truthy. -/
def normalizeDashboardSelection (env : Values V) (selection : Option (Selection V)) : Selection V where
  range := match selection with
    | some s => if env.truthy s.range then s.range else env.thirtyDays
    | none => env.thirtyDays
  repository := match selection with
    | some s => if env.truthy s.repository then s.repository else env.empty
    | none => env.empty

/-- `sameDashboardSelection`. -/
def sameDashboardSelection [DecidableEq V] : Option (Selection V) → Option (Selection V) → Bool
  | some left, some right =>
    decide (left.range = right.range) && decide (left.repository = right.repository)
  | _, _ => false

theorem sameDashboardSelection_iff [DecidableEq V] {left : Option (Selection V)} {right : Selection V} :
    sameDashboardSelection left (some right) = true ↔ left = some right := by
  cases left with
  | none => simp [sameDashboardSelection]
  | some l =>
    obtain ⟨range, repository⟩ := l
    obtain ⟨range', repository'⟩ := right
    simp [sameDashboardSelection]

/-! ## What the coordinator calls

The log has every call to the outside in its order. The coordinator never reads it; it is there to state
what a run has done, and for the page that is called.
-/

/-- A body with the selection it was loaded for. -/
structure Data (V B : Type) where
  body : B
  selection : Selection V

inductive Phase where
  | loading
  | refreshing
  | ready
  | stale
  | error
  deriving DecidableEq

/-- The phases that end a load. -/
def Phase.Terminal : Phase → Prop
  | .ready | .stale | .error => True
  | .loading | .refreshing => False

/-- An argument of `onStateChange`. -/
structure Published (V B : Type) where
  phase : Phase
  selection : Selection V
  data : Option (Data V B)
  error : Str
  requestId : ℕ

/-- What the coordinator does that others can see. -/
inductive Output (V B : Type) where
  /-- `onStateChange`. -/
  | notify (state : Published V B)
  /-- `fetchJson`. -/
  | fetch (requestId : ℕ) (selection : Selection V) (fresh : Bool)
  /-- `controller.abort()`. -/
  | abort (requestId : ℕ)
  /-- The promise of a `load` is fulfilled. -/
  | answer (requestId : ℕ) (data : Option (Data V B))
  /-- `onStreamStateChange`: `connected` or `reconnecting`. -/
  | stream (connected : Bool)
  /-- `onIngest` or `onIngestFailure`. -/
  | ingest (failed : Bool) (selection : Option (Selection V))

/-! ## The state

The handlers of a promise run later than it settles, so a request has a status of its own, which outlives
the variables of the closure.
-/

/-- What a promise can be rejected with: its `name`, its `message` and its text. -/
structure Reason where
  name : Str
  message : Str
  text : Str
  deriving DecidableEq

/-- The error text of a state. -/
def Reason.error (e : Reason) : Str := if e.message ≠ [] then e.message else e.text

/-- The promise of a request. -/
inductive Status (B : Type) where
  | pending
  | resolved (body : B)
  | rejected (e : Reason)
  /-- The handlers have run. -/
  | handled

/-- A request, with what its handlers close over. -/
structure Request (V B : Type) where
  selection : Selection V
  retain : Bool
  status : Status B

/-- The events that the coordinator listens to. -/
inductive Event where
  | opened
  | error
  | ingestDone
  | ingestFailed
  deriving DecidableEq

/-- What an event source can do. -/
structure Abilities where
  addEventListener : Bool
  removeEventListener : Bool
  close : Bool
  deriving DecidableEq

/-- An event source; `handlers` is `__ghpulseHandlers`. -/
structure Source where
  can : Abilities
  handlers : List Event
  listeners : List Event
  closed : Bool
  deriving DecidableEq

/-- The variables of the closure, the requests, the event sources and the log. `controller` is the
request whose controller it is. -/
structure State (V B : Type) where
  disposed : Bool
  requestId : ℕ
  activeSelection : Option (Selection V)
  activeData : Option (Data V B)
  controller : Option ℕ
  eventSource : Option ℕ
  sources : List Source
  requests : ℕ → Option (Request V B)
  log : List (Output V B)

/-- A new coordinator. -/
def State.initial : State V B := ⟨false, 0, none, none, none, none, [], fun _ => none, []⟩

/-- Do something visible. -/
def State.emit (s : State V B) (o : Output V B) : State V B := { s with log := s.log ++ [o] }

/-! ## The functions

In the order of the source. Each takes the state and returns the new one; what the environment decides,
such as whether `fetchJson` throws, is an argument.
-/

/-- `abortCurrent`. -/
def abortCurrent (s : State V B) : State V B :=
  match s.controller with
  | none => s
  | some id => { s.emit (.abort id) with controller := none }

variable [DecidableEq V]

/-- The data that a request keeps. -/
def retained (s : State V B) (retain : Bool) (selection : Selection V) : Option (Data V B) :=
  if retain then
    s.activeData.filter fun d => sameDashboardSelection (some d.selection) (some selection)
  else none

theorem retained_eq (s : State V B) (retain : Bool) (selection : Selection V) :
    retained s retain selection =
      if retain then s.activeData.filter fun d => decide (d.selection = selection) else none := by
  unfold retained
  congr 2
  funext d
  rw [Bool.eq_iff_iff, sameDashboardSelection_iff, decide_eq_true_iff, Option.some.injEq]

theorem retained_eq_some {s : State V B} {retain : Bool} {selection : Selection V} {d : Data V B} :
    retained s retain selection = some d ↔
      retain = true ∧ s.activeData = some d ∧ d.selection = selection := by
  rw [retained_eq]
  split_ifs with hretain
  · rw [Option.filter_eq_some_iff, decide_eq_true_iff]
    exact ⟨fun h => ⟨hretain, h⟩, fun h => h.2⟩
  · exact ⟨fun h => (by cases h), fun h => absurd h.1 hretain⟩

/-- `load`; `thrown` is what `fetchJson` throws. -/
def load (env : Values V) (s : State V B) (selection : Option (Selection V)) (retain fresh : Bool)
    (thrown : Option Reason) : State V B :=
  if s.disposed then s
  else
    let normalized := normalizeDashboardSelection env selection
    let kept := retained s retain normalized
    let id := s.requestId + 1
    let s := abortCurrent s
    let s := { s with activeSelection := some normalized, activeData := kept, requestId := id }
    let s := s.emit (.notify
      ⟨if kept.isSome then .refreshing else .loading, normalized, kept, [], id⟩)
    let s := { s with controller := some id }
    let s := s.emit (.fetch id normalized fresh)
    let request : Request V B := ⟨normalized, retain, (thrown.map .rejected).getD .pending⟩
    { s with requests := Function.update s.requests id (some request) }

/-- The request may no longer publish. -/
def superseded (s : State V B) (id : ℕ) (selection : Selection V) : Bool :=
  s.disposed || decide (id ≠ s.requestId) ||
    !sameDashboardSelection s.activeSelection (some selection)

/-- `if (controller === requestController) controller = null`. -/
def releaseController (s : State V B) (id : ℕ) : State V B :=
  { s with controller := if s.controller = some id then none else s.controller }

/-- The handler of a fulfilled request. -/
def onBody (s : State V B) (id : ℕ) (r : Request V B) (body : B) : State V B :=
  if superseded s id r.selection then s.emit (.answer id none)
  else
    -- the data is kept before the publication, so a later failure of this selection can fall back on it
    let data : Data V B := ⟨body, r.selection⟩
    let s := releaseController { s with activeData := some data } id
    let s := s.emit (.notify ⟨.ready, r.selection, some data, [], id⟩)
    s.emit (.answer id (some data))

/-- The handler of a rejected request. -/
def onReason (s : State V B) (id : ℕ) (r : Request V B) (e : Reason) : State V B :=
  if superseded s id r.selection || decide (e.name = lit "AbortError") then s.emit (.answer id none)
  else
    let s := releaseController s id
    -- a failure with nothing to fall back on is an error, else the kept data is stale
    let fallback := retained s r.retain r.selection
    let s := { s with activeData := fallback }
    let s := s.emit (.notify
      ⟨if fallback.isSome then .stale else .error, r.selection, fallback, e.error, id⟩)
    s.emit (.answer id none)

/-- The handlers of a settled request run. -/
def react (s : State V B) (id : ℕ) : Option (State V B) :=
  (s.requests id).bind fun r =>
    let r' : Request V B := { r with status := .handled }
    let s' := { s with requests := Function.update s.requests id (some r') }
    match r.status with
    | .resolved body => some (onBody s' id r body)
    | .rejected e => some (onReason s' id r e)
    | .pending | .handled => none

/-- A request settles. -/
def settle (s : State V B) (id : ℕ) (outcome : B ⊕ Reason) : Option (State V B) :=
  (s.requests id).bind fun r =>
    let r' : Request V B := { r with status := outcome.elim .resolved .rejected }
    match r.status with
    | .pending => some { s with requests := Function.update s.requests id (some r') }
    | _ => none

/-- `connect`; `made` is what the factory returns, if that is truthy. -/
def connect (s : State V B) (made : Option Abilities) : State V B :=
  if s.disposed || s.eventSource.isSome then s
  else match made with
    | none => s
    | some can =>
      let events : List Event :=
        if can.addEventListener then [.opened, .error, .ingestDone, .ingestFailed] else []
      { s with
        eventSource := some s.sources.length
        sources := s.sources ++ [⟨can, events, events, false⟩] }

/-- `onIngest` and `onIngestFailure`. -/
def onIngest (env : Values V) (s : State V B) (failed : Bool) (thrown : Option Reason) : State V B :=
  let s' := (s.emit (.stream true)).emit (.ingest failed s.activeSelection)
  match s.activeSelection with
  | some selection => load env s' (some selection) true true thrown
  | none => s'

/-- The listeners. -/
def listen (env : Values V) (s : State V B) (thrown : Option Reason) : Event → State V B
  | .opened => s.emit (.stream true)
  | .error => s.emit (.stream false)
  | .ingestDone => onIngest env s false thrown
  | .ingestFailed => onIngest env s true thrown

/-- An event source delivers an event to its listener. -/
def deliver (env : Values V) (s : State V B) (k : ℕ) (event : Event) (thrown : Option Reason) :
    Option (State V B) :=
  (s.sources[k]?).bind fun source =>
    if event ∈ source.listeners then some (listen env s thrown event) else none

/-- What `dispose` does to an event source. -/
def Source.release (source : Source) : Source :=
  { source with
    listeners := if source.can.removeEventListener then
        source.listeners.filter fun event => decide (event ∉ source.handlers)
      else source.listeners
    closed := source.closed || source.can.close }

/-- `dispose`. -/
def dispose (s : State V B) : State V B :=
  if s.disposed then s
  else
    -- the new id supersedes the requests whose handlers have not run yet
    let s := abortCurrent { s with disposed := true, requestId := s.requestId + 1 }
    match s.eventSource with
    | none => s
    | some k => { s with sources := s.sources.modify k Source.release, eventSource := none }

/-! ## Runs

A list of actions says what happens next: a call of the page, a promise that settles, handlers that run,
or an event of the stream. Every order in which they can happen is a run.
-/

/-- What happens next. -/
inductive Action (V B : Type) where
  | load (selection : Option (Selection V)) (retain fresh : Bool) (thrown : Option Reason)
  | settle (requestId : ℕ) (outcome : B ⊕ Reason)
  | react (requestId : ℕ)
  | connect (made : Option Abilities)
  | deliver (source : ℕ) (event : Event) (thrown : Option Reason)
  | dispose

/-- One step. -/
def step (env : Values V) (s : State V B) : Action V B → Option (State V B)
  | .load selection retain fresh thrown => some (load env s selection retain fresh thrown)
  | .settle id outcome => settle s id outcome
  | .react id => react s id
  | .connect made => some (connect s made)
  | .deliver k event thrown => deliver env s k event thrown
  | .dispose => some (dispose s)

/-- Texts as parts of a selection. -/
def texts : Values Str := ⟨fun s => decide (s ≠ []), lit "30d", []⟩

end Ghpulse.Web.Coordinator
