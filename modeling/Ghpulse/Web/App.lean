import Ghpulse.Library.Batched
import Ghpulse.Web.Query
import Ghpulse.Web.Repositories
import Ghpulse.Web.Transitions

/-!
# The page

`App` as a state machine: the state variables of the component and their queued updates, the two references
of the repository list, the dependencies of the effects that ran last, the request coordinator, and the
page's address. The handlers of a click, the render they cause and its effects are one step, since React
finishes a discrete event before the next one; other updates are rendered later, and the effects of such a
render run later still.

Rendering is React's; the model relies on this order of updates, renders and effects only. A promise of
`fetch` is rejected with an `AbortError` only when its controller was aborted, a list that is not read fails
as a rejected promise does, and a `<select>` reports a value only when it changes to one of its options. The
identity of the viewer is left out.

Reference: `src/app.jsx` (`App`, `FilterBar`).
-/

open Python Js Batched

namespace Ghpulse.Web.App

open Coordinator (Selection Phase Published Output Reason Data texts)

/-! ## The state

Every state variable is a queue of updates, since an answer may be applied by a later render than the one
that a click causes. What the effects have seen when they ran last decides whether they run again.
-/

/-- How far a request of the repository list has come. -/
inductive Progress where
  | pending
  | listed (rows : List Value)
  | failed

/-- A request of the repository list, with what its handlers close over. -/
structure ListRequest where
  range : Str
  fresh : Bool
  nonce : ℕ
  alive : Bool
  progress : Progress

/-- `dashboardState`, without the number of its request. -/
structure Shown where
  phase : Phase
  selection : Selection Str
  data : Option (Data Str Value)
  error : Str

/-- The component. -/
structure State where
  /-- `window.location.search`. -/
  search : Str
  /-- `activeRange` and `activeRepository`; only discrete events set them. -/
  selection : Selection Str
  dashboard : Hook Shown
  repositories : Hook (List Value)
  history : Hook (List (Str × Value))
  repositoryError : Hook Str
  /-- `repositoryRefreshNonce`. -/
  nonce : Hook ℕ
  /-- `repositoryRequestId.current`. -/
  requestId : ℕ
  /-- `repositoryRefreshHandled.current`. -/
  handled : ℕ
  requests : ℕ → Option ListRequest
  coordinator : Coordinator.State Str Value
  /-- The dependencies of the repository effect when it ran last. -/
  listDeps : Option (Str × ℕ)
  /-- The dependencies of the load effect when it ran last. -/
  loadDeps : Option (Selection Str)
  /-- A render has not run its effects yet. -/
  effectsDue : Bool

/-- The state that a selection starts from. -/
def loading (selection : Selection Str) : Shown := ⟨.loading, selection, none, []⟩

/-- The first render. -/
def State.initial (search : Str) : State where
  search := search
  selection := readFilterState search
  dashboard := .new (loading (readFilterState search))
  repositories := .new []
  history := .new []
  repositoryError := .new []
  nonce := .new 0
  requestId := 0
  handled := 0
  requests := fun _ => none
  coordinator := .initial
  listDeps := none
  loadDeps := none
  effectsDue := true

/-! ## What the coordinator calls

The callbacks that the component passes to the coordinator. They only put updates into queues, so the
order of the calls is the order of the updates.
-/

/-- The rows that a published body lists, if it lists any. -/
def publishedRows (p : Published Str Value) : Option (List Value) :=
  p.data.bind fun d =>
    match d.body.get (lit "repositories") with
    | .array rows => some rows
    | _ => none

/-- `onStateChange` and `onIngest`; the state of the stream is left out. -/
def onOutput (s : State) : Output Str Value → State
  | .notify p =>
    { s with
      dashboard := s.dashboard.set false ⟨p.phase, p.selection, p.data, p.error⟩
      history := match publishedRows p with
        | some rows => s.history.update false (mergeRepositoryHistory · rows)
        | none => s.history }
  | .ingest false _ => { s with nonce := s.nonce.update false (· + 1) }
  | _ => s

/-- The coordinator moves on, and its calls reach the component. -/
def absorb (s : State) (coordinator : Coordinator.State Str Value) : State :=
  (coordinator.log.drop s.coordinator.log.length).foldl onOutput { s with coordinator := coordinator }

/-! ## The effects

An effect runs after a render whose dependencies differ from those of its last run, its cleanup first.
-/

/-- The cleanup of the repository effect. -/
def retire (s : State) : ℕ → Option ListRequest :=
  Function.update s.requests s.requestId
    ((s.requests s.requestId).map fun r => { r with alive := false })

/-- The effect that requests the repository list. -/
def listEffect (s : State) : State :=
  if s.listDeps = some (s.selection.range, s.nonce.value) then s
  else
    let request : ListRequest :=
      ⟨s.selection.range, decide (s.nonce.value ≠ s.handled), s.nonce.value, true, .pending⟩
    { s with
      requestId := s.requestId + 1
      repositoryError := s.repositoryError.set false []
      requests := Function.update (retire s) (s.requestId + 1) (some request)
      listDeps := some (s.selection.range, s.nonce.value) }

/-- The effect that loads the dashboard; on mount the event source is connected too. -/
def loadEffect (s : State) : State :=
  if s.loadDeps = some s.selection then s
  else
    let loaded := Coordinator.load texts s.coordinator (some s.selection) true false none
    let connected :=
      if s.loadDeps = none then Coordinator.connect loaded (some ⟨true, true, true⟩) else loaded
    { absorb s connected with loadDeps := some s.selection }

/-- Run the effects that are due. -/
def flush (s : State) : State :=
  if s.effectsDue then { loadEffect (listEffect s) with effectsDue := false } else s

/-! ## The steps

A click is one step up to the end of its effects. Everything else leaves its updates in the queues until a
render takes them, and the effects of that render may be delayed further.
-/

/-- Render everything that waits, after the effects of the render before. -/
def render (s : State) : State :=
  let s := flush s
  { s with
    dashboard := s.dashboard.render
    repositories := s.repositories.render
    history := s.history.render
    repositoryError := s.repositoryError.render
    nonce := s.nonce.render
    effectsDue := true }

/-- The end of a discrete event: its updates are rendered, and their effects run. -/
def finish (s : State) (selection : Selection Str) : State :=
  let s := flush s
  flush { s with
    selection := selection
    dashboard := s.dashboard.renderUrgent
    repositories := s.repositories.renderUrgent
    history := s.history.renderUrgent
    repositoryError := s.repositoryError.renderUrgent
    nonce := s.nonce.renderUrgent
    effectsDue := true }

/-- `onRangeChange`. -/
def onRangeChange (s : State) (value : Str) : State :=
  let selection : Selection Str := ⟨value, s.selection.repository⟩
  finish { s with
    dashboard := s.dashboard.set true (loading selection)
    repositories := s.repositories.set true []
    search := setBrowserFilterState s.search value s.selection.repository } selection

/-- `onRepositoryChange`. -/
def onRepositoryChange (s : State) (value : Str) : State :=
  let selection : Selection Str := ⟨s.selection.range, value⟩
  finish { s with
    dashboard := s.dashboard.set true (loading selection)
    search := setBrowserFilterState s.search s.selection.range value } selection

/-- The handlers of a request of the repository list run: its rows, or what it failed with. -/
def onListed (s : State) (id : ℕ) (r : ListRequest) : List Value ⊕ Reason → State
  | .inl rows =>
    let s := { s with requests := Function.update s.requests id (some { r with progress := .listed rows }) }
    if r.alive && decide (id = s.requestId) then
      { s with
        repositories := s.repositories.set false rows
        history := s.history.update false (mergeRepositoryHistory · rows)
        handled := if r.fresh then r.nonce else s.handled }
    else s
  | .inr e =>
    let s := { s with requests := Function.update s.requests id (some { r with progress := .failed }) }
    if r.alive && decide (id = s.requestId) && decide (e.name ≠ lit "AbortError") then
      { s with
        repositoryError := s.repositoryError.set false (lit "repository list unavailable: " ++ e.message) }
    else s

/-- The options that the filter shows. -/
def options (js : Runtime) (s : State) : List Value :=
  repositoryOptionsForSelection js s.repositories.value s.selection.repository s.history.value

/-- A request fails with an `AbortError` only if it was aborted. -/
def mayReject (reason : Option Reason) (aborted : Bool) : Bool :=
  match reason with
  | some e => decide (e.name ≠ lit "AbortError") || aborted
  | none => true

/-- Whether a log aborts a request. -/
def aborts (id : ℕ) : Output Str Value → Bool
  | .abort id' => decide (id' = id)
  | _ => false

/-- What happens next. -/
inductive Action where
  /-- A request of the dashboard settles. -/
  | settle (id : ℕ) (outcome : Value ⊕ Reason)
  /-- Its handlers run. -/
  | react (id : ℕ)
  /-- The event source delivers an event. -/
  | deliver (event : Coordinator.Event)
  /-- A request of the repository list settles, and its handlers run. -/
  | listed (id : ℕ) (outcome : List Value ⊕ Reason)
  | render
  | effects
  /-- A click on a range. -/
  | clickRange (value : Str)
  /-- A choice of a repository. -/
  | chooseRepository (value : Str)

/-- One step. -/
def step (js : Runtime) (s : State) : Action → Option State
  | .settle id outcome =>
    if mayReject (outcome.getRight?) (s.coordinator.log.any (aborts id)) then
      (Coordinator.settle s.coordinator id outcome).map (absorb s)
    else none
  | .react id => (Coordinator.react s.coordinator id).map (absorb s)
  | .deliver event => (Coordinator.deliver texts s.coordinator 0 event none).map (absorb s)
  | .listed id outcome =>
    (s.requests id).bind fun r =>
      match r.progress with
      | .pending => if mayReject outcome.getRight? (!r.alive) then some (onListed s id r outcome) else none
      | _ => none
  | .render => some (render s)
  | .effects => some (flush s)
  | .clickRange value => if value ∈ validRanges then some (onRangeChange s value) else none
  | .chooseRepository value =>
    if value ≠ s.selection.repository ∧ (value = [] ∨ value ∈ (options js s).map nodeId) then
      some (onRepositoryChange s value)
    else none

end Ghpulse.Web.App
