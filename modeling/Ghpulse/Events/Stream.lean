import Ghpulse.Library.PyStr
import Ghpulse.Library.Runs
import Mathlib.Data.List.Nodup
import Mathlib.Logic.Function.Basic

/-!
# Event streams

Worker threads call `broadcast_threadsafe`, which takes the set of subscribers and schedules `_put_all`
on the event loop. The loop runs the scheduled callbacks in order and, between them, the generators of
the streams, the tasks that each wait cycle creates and cancels, and the subscriptions. One `Action` is
what happens between two points where another thread or task can run.

A pending queue read that is cancelled leaves the queue as it is. The timer of a wait can fire at any
time, so a wait can return in any state of its two tasks.

Delivery is proved for one stream `j` at a time. A run records which puts are offered to the queue of the
stream and whether they find room (`offers`), and which broadcasts found the stream subscribed
(`addressed`). Three invariants tie these lists to the state: what a live stream has received
(`Receives`), that no call is offered twice (`Once`), and that what is addressed is offered or still to
come (`Delivers`).

Reference: `backend/events.py`; `backend/app.py` (`_cancel_tasks`, `_event_stream`).
-/

open Python

namespace Ghpulse.Events

/-! ## One stream

The generator of a stream in its own terms, before any other thread comes in. A move either keeps what the
stream has received, or takes it on: from the queue to the task that reads it, and from the task to the
output. The one way to lose a payload is to leave while the task holds it.
-/

/-- The payload of one call of `broadcast_threadsafe`. -/
structure Payload where
  call : ℕ
  text : Str
  deriving DecidableEq

/-- What a generator yields. -/
inductive Chunk where
  | connected
  | ping
  | event (p : Payload)
  /-- The result of `shutdown.wait()`. -/
  | woken
  deriving DecidableEq

/-- Where a generator is. `read` is the result of the task of `queue.get()`, and `woken` tells that the
task of `shutdown.wait()` is done. -/
inductive Pc where
  /-- At a `yield`. -/
  | yielded
  /-- At `await request.is_disconnected()`. -/
  | polling
  /-- At `await asyncio.wait(waiters)`. -/
  | waiting (read : Option Payload) (woken : Bool)
  /-- At `await _cancel_tasks(pending)`. -/
  | draining (read : Option Payload) (woken : Bool)
  /-- At `await _cancel_tasks(waiters)` in the `finally` block. -/
  | leaving
  | left
  deriving DecidableEq

/-- A generator with its queue. `watches` is `shutdown is not None`. -/
structure Stream where
  queue : List Payload
  pc : Pc
  watches : Bool
  output : List Chunk
  deriving DecidableEq

/-- A stream that has just subscribed and yielded its first comment. -/
def Stream.opened (watches : Bool) : Stream := ⟨[], .yielded, watches, [.connected]⟩

/-- What can happen to one stream on the loop. -/
inductive Move where
  /-- The consumer asks for the next chunk. -/
  | resume
  /-- `request.is_disconnected()` answers. -/
  | poll (gone : Bool)
  /-- The task of `queue.get()` takes a payload. -/
  | read
  /-- The task of `shutdown.wait()` ends. -/
  | wake
  /-- `asyncio.wait` returns: a task is done or the timer has fired. -/
  | wait
  /-- `_cancel_tasks(pending)` returns. -/
  | drained
  /-- The generator is closed or cancelled. -/
  | depart
  /-- The `finally` block ends. -/
  | unsubscribe
  /-- The `finally` block is cancelled. -/
  | abort
  deriving DecidableEq

/-- The generator and its tasks; `isSet` is `shutdown.is_set()`. -/
def Stream.move (isSet : Bool) (st : Stream) : Move → Option Stream
  | .resume => match st.pc with
    | .yielded => some { st with pc := .polling }
    | _ => none
  | .poll gone => match st.pc with
    | .polling =>
      if gone then some { st with pc := .leaving }
      else if st.watches && isSet then some { st with pc := .leaving }
      else some { st with pc := .waiting none false }
    | _ => none
  | .read => match st.pc, st.queue with
    | .waiting none woken, p :: rest => some { st with queue := rest, pc := .waiting (some p) woken }
    | _, _ => none
  | .wake => match st.pc with
    | .waiting read false =>
      if st.watches && isSet then some { st with pc := .waiting read true } else none
    | _ => none
  | .wait => match st.pc with
    | .waiting read woken => some { st with pc := .draining read woken }
    | _ => none
  | .drained => match st.pc with
    | .draining read woken =>
      if read.isNone && !woken then some { st with pc := .yielded, output := st.output ++ [.ping] }
      -- a payload that was read in the cycle that sees the shutdown is not yielded
      else if st.watches && isSet then some { st with pc := .leaving }
      else match read with
        | some p => some { st with pc := .yielded, output := st.output ++ [.event p] }
        | none => some { st with pc := .yielded, output := st.output ++ [.woken] }
    | _ => none
  | .depart => match st.pc with
    | .leaving | .left => none
    | _ => some { st with pc := .leaving }
  | .unsubscribe | .abort => match st.pc with
    | .leaving => some { st with pc := .left }
    | _ => none

/-- `maxsize` of a queue. -/
def maxsize : ℕ := 16

/-- `put_nowait`; nothing stands for `QueueFull`. -/
def Stream.putNowait (st : Stream) (p : Payload) : Option Stream :=
  if st.queue.length < maxsize then some { st with queue := st.queue ++ [p] } else none

/-- The queue after `put_nowait` with `QueueFull` caught. -/
def Stream.put (st : Stream) (p : Payload) : Stream := (st.putNowait p).getD st

/-- The stream has neither disconnected nor been shut down. -/
def Stream.Live (st : Stream) : Prop := st.pc ≠ .leaving ∧ st.pc ≠ .left

instance (st : Stream) : Decidable st.Live := inferInstanceAs (Decidable (_ ∧ _))

/-- The payload of a chunk. -/
def Chunk.payload? : Chunk → Option Payload
  | .event p => some p
  | _ => none

/-- The payloads that a stream has yielded. -/
def Stream.yields (st : Stream) : List Payload := st.output.filterMap Chunk.payload?

/-- The payload that a finished read holds. -/
def Stream.held (st : Stream) : List Payload :=
  match st.pc with
  | .waiting read _ | .draining read _ => read.toList
  | _ => []

/-- All that a stream has received, in order. -/
def Stream.received (st : Stream) : List Payload := st.yields ++ st.held ++ st.queue

/-! ### What a move does

A stream that goes on keeps what it has received, whatever its tasks do.
-/

/-- A stream that was just opened has received nothing. -/
theorem received_opened (watches : Bool) : (Stream.opened watches).received = [] := rfl

/-- A move of a stream that goes on keeps what it has received: a read moves the first payload of the
queue to the task, and the end of a wait cycle moves it from the task to the output. -/
theorem received_move {isSet : Bool} {st st' : Stream} {m : Move} (h : st.move isSet m = some st')
    (hlive : st'.Live) : st.Live ∧ st'.received = st.received := by
  obtain ⟨queue, pc, watches, output⟩ := st
  unfold Stream.Live at hlive ⊢
  unfold Stream.received Stream.yields Stream.held
  cases m with
  | resume =>
    cases pc with
    | yielded =>
      cases h
      exact ⟨by simp, rfl⟩
    | _ => cases h
  | poll gone =>
    cases pc with
    | polling =>
      simp only [Stream.move] at h
      split_ifs at h
      · cases h
        exact absurd rfl hlive.1
      · cases h
        exact absurd rfl hlive.1
      · cases h
        exact ⟨by simp, rfl⟩
    | _ => cases h
  | read =>
    cases pc with
    | waiting read woken =>
      cases read with
      | none =>
        cases queue with
        | nil => cases h
        | cons p rest =>
          cases h
          refine ⟨by simp, ?_⟩
          simp only [Option.toList_none, Option.toList_some, List.append_nil, List.append_assoc,
            List.singleton_append]
      | some p => cases h
    | _ => cases h
  | wake =>
    cases pc with
    | waiting read woken =>
      cases woken with
      | false =>
        simp only [Stream.move] at h
        split_ifs at h
        cases h
        exact ⟨by simp, rfl⟩
      | true => cases h
    | _ => cases h
  | wait =>
    cases pc with
    | waiting read woken =>
      cases h
      exact ⟨by simp, rfl⟩
    | _ => cases h
  | drained =>
    cases pc with
    | draining read woken =>
      refine ⟨by simp, ?_⟩
      simp only [Stream.move] at h
      split_ifs at h with hnone hset
      · cases h
        have hread : read = none := by
          rw [Bool.and_eq_true, Option.isNone_iff_eq_none] at hnone
          exact hnone.1
        simp [hread, Chunk.payload?]
      · cases h
        exact absurd rfl hlive.1
      · cases read with
        | none =>
          cases h
          simp [Chunk.payload?]
        | some p =>
          cases h
          simp [Chunk.payload?]
    | _ => cases h
  | depart =>
    have hleaving : st'.pc = .leaving := by
      cases pc with
      | leaving | left => cases h
      | _ =>
        cases h
        rfl
    exact absurd hleaving hlive.1
  | unsubscribe | abort =>
    cases pc with
    | leaving =>
      cases h
      exact absurd rfl hlive.2
    | _ => cases h

/-- A put is received exactly when fewer than `maxsize` payloads are in the queue. -/
theorem received_put (st : Stream) (p : Payload) :
    (st.put p).received = st.received ++ if st.queue.length < maxsize then [p] else [] := by
  unfold Stream.put Stream.putNowait
  split_ifs with hroom
  · rw [Option.getD_some, Stream.received, Stream.received, ← List.append_assoc]
    rfl
  · rw [Option.getD_none, List.append_nil]

/-- A stream that is live after a payload was live before it. -/
theorem live_put {st : Stream} {p : Payload} (h : (st.put p).Live) : st.Live := by
  unfold Stream.put Stream.putNowait at h
  split_ifs at h <;> exact h

/-! ## The loop and the threads

Between `list(_subscribers)` and the callback a stream can leave and another one can come; the callback
goes to the queues that were listed. A callback for a queue that is gone does no harm.
-/

/-- A call of `broadcast_threadsafe` that has not returned. -/
inductive Call where
  /-- The loop was captured and open; the payload is built. -/
  | entered (text : Str)
  /-- `targets` is built. -/
  | holding (text : Str) (targets : List ℕ)
  deriving DecidableEq

/-- A callback on the loop. -/
inductive Callback where
  /-- `_put_all`. -/
  | putAll (p : Payload) (targets : List ℕ)
  /-- `event.set`. -/
  | setShutdown
  deriving DecidableEq

/-- The process. Calls and streams are numbered in the order they begin; `looped` tells that
`_main_loop` and `_shutdown_event` are set. -/
structure State where
  looped : Bool
  closed : Bool
  shutdown : Bool
  calls : ℕ → Option Call
  nextCall : ℕ
  ready : List Callback
  streams : ℕ → Option Stream
  nextStream : ℕ
  subscribers : List ℕ

/-- The process after `set_loop`. -/
def State.initial : State := ⟨true, false, false, fun _ => none, 0, [], fun _ => none, 0, []⟩

/-- What a thread, the loop or the lifespan does next. -/
inductive Action where
  /-- A call begins, with the event and the text of its data. -/
  | broadcast (event data : Str)
  /-- `list(_subscribers)`, in any order. -/
  | snapshot (call : ℕ) (targets : List ℕ)
  /-- `call_soon_threadsafe(_put_all)`. -/
  | schedule (call : ℕ)
  /-- The loop runs the first callback. -/
  | callback
  /-- A generator starts. -/
  | subscribe
  | move (stream : ℕ) (m : Move)
  | signalShutdown
  | clearLoop
  | closeLoop
  deriving DecidableEq

/-- The text of a payload. -/
def frame (event data : Str) : Str :=
  lit "event: " ++ event ++ lit "\ndata: " ++ data ++ lit "\n\n"

/-- One target of `_put_all`. -/
def putTo (p : Payload) (streams : ℕ → Option Stream) (i : ℕ) : ℕ → Option Stream :=
  match streams i with
  | none => streams
  | some st =>
    match st.putNowait p with
    | some st' => Function.update streams i (some st')
    -- a full queue drops the payload for its own stream only
    | none => streams

/-- `_put_all`. -/
def putAll (p : Payload) (targets : List ℕ) (streams : ℕ → Option Stream) : ℕ → Option Stream :=
  targets.foldl (putTo p) streams

/-- `_subscribers` after a move: the `finally` block discards its queue. -/
def subscribersAfter (subscribers : List ℕ) (i : ℕ) : Move → List ℕ
  | .unsubscribe => subscribers.erase i
  | _ => subscribers

/-- One step of the process. -/
def step (s : State) : Action → Option State
  | .broadcast event data =>
    if s.looped && !s.closed then
      some { s with
        calls := Function.update s.calls s.nextCall (some (.entered (frame event data)))
        nextCall := s.nextCall + 1 }
    else some s
  | .snapshot call targets =>
    match s.calls call with
    | some (.entered text) =>
      if targets.Perm s.subscribers then
        some { s with calls := Function.update s.calls call (some (.holding text targets)) }
      else none
    | _ => none
  | .schedule call =>
    match s.calls call with
    | some (.holding text targets) =>
      -- a loop that was closed meanwhile raises, and the error is dropped
      if s.closed then some { s with calls := Function.update s.calls call none }
      else some { s with
        calls := Function.update s.calls call none
        ready := s.ready ++ [.putAll ⟨call, text⟩ targets] }
    | _ => none
  | .callback =>
    if s.closed then none
    else match s.ready with
      | [] => none
      | .putAll p targets :: rest =>
        some { s with ready := rest, streams := putAll p targets s.streams }
      | .setShutdown :: rest => some { s with ready := rest, shutdown := true }
  | .subscribe =>
    if s.closed then none
    else some { s with
      streams := Function.update s.streams s.nextStream (some (.opened s.looped))
      nextStream := s.nextStream + 1
      subscribers := s.subscribers ++ [s.nextStream] }
  | .move i m =>
    if s.closed then none
    else (s.streams i).bind fun st => (st.move s.shutdown m).map fun st' =>
      { s with
        streams := Function.update s.streams i (some st')
        subscribers := subscribersAfter s.subscribers i m }
  | .signalShutdown =>
    if s.looped && !s.closed then some { s with ready := s.ready ++ [.setShutdown] } else some s
  | .clearLoop => some { s with looped := false }
  | .closeLoop => some { s with closed := true }

/-- The steps of the process by their effects. -/
inductive Step (s : State) : Action → State → Prop where
  | entered (event data : Str) : Step s (.broadcast event data) { s with
      calls := Function.update s.calls s.nextCall (some (.entered (frame event data)))
      nextCall := s.nextCall + 1 }
  | ignored (event data : Str) : Step s (.broadcast event data) s
  | snapshot {call : ℕ} {text : Str} {targets : List ℕ} (hcall : s.calls call = some (.entered text))
      (hperm : targets.Perm s.subscribers) : Step s (.snapshot call targets)
      { s with calls := Function.update s.calls call (some (.holding text targets)) }
  | scheduled {call : ℕ} {text : Str} {targets : List ℕ}
      (hcall : s.calls call = some (.holding text targets)) (hopen : s.closed = false) :
      Step s (.schedule call) { s with
        calls := Function.update s.calls call none
        ready := s.ready ++ [.putAll ⟨call, text⟩ targets] }
  | dropped {call : ℕ} {text : Str} {targets : List ℕ}
      (hcall : s.calls call = some (.holding text targets)) (hclosed : s.closed = true) :
      Step s (.schedule call) { s with calls := Function.update s.calls call none }
  | put {p : Payload} {targets : List ℕ} {rest : List Callback} (hopen : s.closed = false)
      (hready : s.ready = .putAll p targets :: rest) :
      Step s .callback { s with ready := rest, streams := putAll p targets s.streams }
  | set {rest : List Callback} (hopen : s.closed = false) (hready : s.ready = .setShutdown :: rest) :
      Step s .callback { s with ready := rest, shutdown := true }
  | subscribed (hopen : s.closed = false) : Step s .subscribe { s with
      streams := Function.update s.streams s.nextStream (some (.opened s.looped))
      nextStream := s.nextStream + 1
      subscribers := s.subscribers ++ [s.nextStream] }
  | moved {i : ℕ} {m : Move} {st st' : Stream} (hopen : s.closed = false)
      (hst : s.streams i = some st) (hmove : st.move s.shutdown m = some st') :
      Step s (.move i m) { s with
        streams := Function.update s.streams i (some st')
        subscribers := subscribersAfter s.subscribers i m }
  | signalled : Step s .signalShutdown { s with ready := s.ready ++ [.setShutdown] }
  | silent : Step s .signalShutdown s
  | cleared : Step s .clearLoop { s with looped := false }
  | closed : Step s .closeLoop { s with closed := true }

/-- An action that is defined is one of the steps. -/
theorem Step.of_step {s s' : State} {a : Action} (h : step s a = some s') : Step s a s' := by
  cases a with
  | broadcast event data =>
    simp only [step] at h
    split_ifs at h <;> cases h
    · exact .entered event data
    · exact .ignored event data
  | snapshot call targets =>
    simp only [step] at h
    split at h
    · rename_i text hcall
      split_ifs at h with hperm
      cases h
      exact .snapshot hcall hperm
    · cases h
  | schedule call =>
    simp only [step] at h
    split at h
    · rename_i text targets hcall
      split_ifs at h with hclosed <;> cases h
      · exact .dropped hcall hclosed
      · exact .scheduled hcall (Bool.eq_false_iff.mpr hclosed)
    · cases h
  | callback =>
    simp only [step] at h
    split_ifs at h with hclosed
    have hopen := Bool.eq_false_iff.mpr hclosed
    split at h
    · cases h
    · rename_i p targets rest hready
      cases h
      exact .put hopen hready
    · rename_i rest hready
      cases h
      exact .set hopen hready
  | subscribe =>
    simp only [step] at h
    split_ifs at h with hclosed
    cases h
    exact .subscribed (Bool.eq_false_iff.mpr hclosed)
  | move i m =>
    simp only [step] at h
    split_ifs at h with hclosed
    obtain ⟨st, hst, h⟩ := Option.bind_eq_some_iff.mp h
    obtain ⟨st', hmove, rfl⟩ := Option.map_eq_some_iff.mp h
    exact .moved (Bool.eq_false_iff.mpr hclosed) hst hmove
  | signalShutdown =>
    simp only [step] at h
    split_ifs at h <;> cases h
    · exact .signalled
    · exact .silent
  | clearLoop =>
    cases h
    exact .cleared
  | closeLoop =>
    cases h
    exact .closed

/-! ### What a callback does

The targets are served one after the other, but each has a queue of its own.
-/

/-- A payload is put to one stream. -/
theorem putTo_apply (p : Payload) (streams : ℕ → Option Stream) (i j : ℕ) :
    putTo p streams i j = if j = i then (streams j).map fun st => st.put p else streams j := by
  unfold putTo Stream.put
  by_cases hj : j = i
  · subst hj
    rw [if_pos rfl]
    cases hst : streams j with
    | none => exact hst
    | some st =>
      dsimp only
      rw [Option.map_some]
      cases hput : st.putNowait p with
      | none => exact hst
      | some st' => exact Function.update_self _ _ _
  · rw [if_neg hj]
    cases streams i with
    | none => rfl
    | some st =>
      dsimp only
      cases st.putNowait p with
      | none => rfl
      | some st' => exact Function.update_of_ne hj _ _

/-- Every target gets its put, whatever the others do with theirs. -/
theorem putAll_apply {p : Payload} {targets : List ℕ} (hnodup : targets.Nodup)
    (streams : ℕ → Option Stream) (j : ℕ) :
    putAll p targets streams j =
      if j ∈ targets then (streams j).map fun st => st.put p else streams j := by
  induction targets generalizing streams with
  | nil => rfl
  | cons i targets ih =>
    obtain ⟨hi, hrest⟩ := List.nodup_cons.mp hnodup
    show putAll p targets (putTo p streams i) j = _
    rw [ih hrest, putTo_apply]
    by_cases hj : j = i
    · subst hj
      rw [if_neg hi, if_pos rfl, if_pos List.mem_cons_self]
    · simp only [List.mem_cons, hj, false_or, if_false]

/-! ## What reaches one stream

All of these are recorded along a run, so they are functions of the run and need no field of the state.
-/

/-- The put that a step makes into the queue of a stream, and whether there was room. -/
def offer (j : ℕ) (s : State) : Action → List (Payload × Bool)
  | .callback => match s.ready, s.streams j with
    | .putAll p targets :: _, some st =>
      if j ∈ targets then [(p, decide (st.queue.length < maxsize))] else []
    | _, _ => []
  | _ => []

/-- The puts that reach a stream in a run. -/
def offers (j : ℕ) (as : List Action) : List (Payload × Bool) :=
  Runs.record step (offer j) State.initial as

/-- The puts that found room. -/
def fitting (l : List (Payload × Bool)) : List Payload := (l.filter Prod.snd).map Prod.fst

/-- The broadcasts whose put reached the queue of a stream while fewer than `maxsize` payloads were
in it. -/
def accepted (j : ℕ) (as : List Action) : List Payload := fitting (offers j as)

/-- The broadcast whose call takes the set of subscribers with the stream in it. -/
def address (j : ℕ) (s : State) : Action → List Payload
  | .snapshot call _ => match s.calls call with
    | some (.entered text) => if j ∈ s.subscribers then [⟨call, text⟩] else []
    | _ => []
  | _ => []

/-- The broadcasts that found the stream subscribed. -/
def addressed (j : ℕ) (as : List Action) : List Payload :=
  Runs.record step (address j) State.initial as

/-- What fits into a queue is found part by part. -/
theorem fitting_append (l l' : List (Payload × Bool)) : fitting (l ++ l') = fitting l ++ fitting l' := by
  unfold fitting
  rw [List.filter_append, List.map_append]

/-! ## Invariants

Each is a step lemma about one action. `stream_cases` reduces an action of the process to what it is for
one stream: nothing, a move, a put, or its beginning.
-/

/-- The targets of a broadcast that is not yet delivered. -/
def Targets (s : State) (p : Payload) (targets : List ℕ) : Prop :=
  s.calls p.call = some (.holding p.text targets) ∨ .putAll p targets ∈ s.ready

/-- Streams are numbered in order, and subscribers and targets are distinct streams. -/
structure WellFormed (s : State) : Prop where
  fresh : ∀ i, s.nextStream ≤ i → s.streams i = none
  nodup : s.subscribers.Nodup
  subscribed : ∀ i ∈ s.subscribers, (s.streams i).isSome = true
  targets : ∀ p targets, Targets s p targets →
    targets.Nodup ∧ ∀ i ∈ targets, (s.streams i).isSome = true

/-- The initial state is well formed. -/
theorem WellFormed.initial : WellFormed State.initial where
  fresh _ _ := rfl
  nodup := List.nodup_nil
  subscribed _ h := absurd h List.not_mem_nil
  targets p targets h := by
    rcases h with h | h
    · cases h
    · cases h

/-- What a step is for one stream: nothing, a move, a put, or its beginning. -/
theorem stream_cases {s s' : State} {a : Action} (hs : WellFormed s) (h : step s a = some s') (j : ℕ) :
    (s'.streams j = s.streams j ∧ offer j s a = []) ∨
    (∃ m st st', s.streams j = some st ∧ st.move s.shutdown m = some st' ∧ s'.streams j = some st' ∧
      offer j s a = []) ∨
    (∃ p st, s.streams j = some st ∧ s'.streams j = some (st.put p) ∧
      offer j s a = [(p, decide (st.queue.length < maxsize))]) ∨
    (s.streams j = none ∧ s'.streams j = some (.opened s.looped) ∧ offer j s a = []) := by
  cases Step.of_step h with
  | entered | ignored | snapshot | scheduled | dropped | signalled | silent | cleared | closed =>
    exact Or.inl ⟨rfl, rfl⟩
  | set hopen hready => exact Or.inl ⟨rfl, by simp only [offer, hready]⟩
  | @put p targets rest hopen hready =>
    obtain ⟨hnodup, -⟩ := hs.targets p targets (Or.inr (hready ▸ List.mem_cons_self))
    have hput : putAll p targets s.streams j = _ := putAll_apply hnodup s.streams j
    by_cases hj : j ∈ targets
    · rw [if_pos hj] at hput
      cases hst : s.streams j with
      | none =>
        refine Or.inl ⟨?_, ?_⟩
        · exact hput.trans (by rw [hst, Option.map_none])
        · simp only [offer, hready, hst]
      | some st =>
        refine Or.inr (Or.inr (Or.inl ⟨p, st, rfl, ?_, ?_⟩))
        · exact hput.trans (by rw [hst, Option.map_some])
        · simp only [offer, hready, hst, if_pos hj]
    · rw [if_neg hj] at hput
      refine Or.inl ⟨hput, ?_⟩
      cases hst : s.streams j with
      | none => simp only [offer, hready, hst]
      | some st => simp only [offer, hready, hst, if_neg hj]
  | subscribed hopen =>
    by_cases hj : j = s.nextStream
    · subst hj
      exact Or.inr (Or.inr (Or.inr ⟨hs.fresh _ le_rfl, Function.update_self _ _ _, rfl⟩))
    · exact Or.inl ⟨Function.update_of_ne hj _ _, rfl⟩
  | @moved i m st st' hopen hst hmove =>
    by_cases hj : j = i
    · subst hj
      exact Or.inr (Or.inl ⟨m, st, st', hst, hmove, Function.update_self _ _ _, rfl⟩)
    · exact Or.inl ⟨Function.update_of_ne hj _ _, rfl⟩

/-- A stream that exists goes on existing. -/
theorem isSome_step {s s' : State} {a : Action} (hs : WellFormed s) (h : step s a = some s') {j : ℕ}
    (hj : (s.streams j).isSome = true) : (s'.streams j).isSome = true := by
  rcases stream_cases hs h j with ⟨hsame, -⟩ | ⟨m, st, st', -, -, hst', -⟩ | ⟨p, st, -, hst', -⟩ |
    ⟨-, hst', -⟩
  · rwa [hsame]
  · rw [hst']; rfl
  · rw [hst']; rfl
  · rw [hst']; rfl

/-- A value that an update put in or left. -/
theorem calls_update {calls : ℕ → Option Call} {i j : ℕ} {c : Option Call} {d : Call}
    (h : Function.update calls i c j = some d) : (j = i ∧ c = some d) ∨ calls j = some d := by
  rw [Function.update_apply] at h
  split_ifs at h with hj
  · exact Or.inl ⟨hj, h⟩
  · exact Or.inr h

/-- What a step does to the targets: a call takes the subscribers, and no other targets are new. -/
theorem targets_step {s s' : State} {a : Action} (h : step s a = some s') {p : Payload}
    {targets : List ℕ} (ht : Targets s' p targets) :
    Targets s p targets ∨ targets.Perm s.subscribers := by
  unfold Targets at ht ⊢
  cases Step.of_step h with
  | ignored | subscribed | moved | silent | cleared | closed => exact Or.inl ht
  | entered event data =>
    rcases ht with ht | ht
    · rcases calls_update ht with ⟨-, ht⟩ | ht
      · cases ht
      · exact Or.inl (Or.inl ht)
    · exact Or.inl (Or.inr ht)
  | snapshot hcall hperm =>
    rcases ht with ht | ht
    · rcases calls_update ht with ⟨-, ht⟩ | ht
      · cases ht
        exact Or.inr hperm
      · exact Or.inl (Or.inl ht)
    · exact Or.inl (Or.inr ht)
  | scheduled hcall hopen =>
    rcases ht with ht | ht
    · rcases calls_update ht with ⟨-, ht⟩ | ht
      · cases ht
      · exact Or.inl (Or.inl ht)
    · rcases List.mem_append.mp ht with ht | ht
      · exact Or.inl (Or.inr ht)
      · cases List.mem_singleton.mp ht
        exact Or.inl (Or.inl hcall)
  | dropped hcall hclosed =>
    rcases ht with ht | ht
    · rcases calls_update ht with ⟨-, ht⟩ | ht
      · cases ht
      · exact Or.inl (Or.inl ht)
    · exact Or.inl (Or.inr ht)
  | put hopen hready | set hopen hready =>
    rw [hready]
    exact Or.inl (ht.imp_right (List.mem_cons_of_mem _))
  | signalled =>
    rcases ht with ht | ht
    · exact Or.inl (Or.inl ht)
    · rcases List.mem_append.mp ht with ht | ht
      · exact Or.inl (Or.inr ht)
      · cases List.mem_singleton.mp ht

/-- Every step keeps the numbering, the subscribers and the targets well formed. -/
theorem WellFormed.step {s s' : State} {a : Action} (hs : WellFormed s)
    (h : Events.step s a = some s') : WellFormed s' := by
  have hfresh : ∀ i, s'.nextStream ≤ i → s'.streams i = none := by
    intro i hi
    cases Step.of_step h with
    | entered | ignored | snapshot | scheduled | dropped | set | signalled | silent | cleared |
        closed => exact hs.fresh i hi
    | @put p targets rest hopen hready =>
      obtain ⟨hnodup, -⟩ := hs.targets p targets (Or.inr (hready ▸ List.mem_cons_self))
      refine (putAll_apply hnodup s.streams i).trans ?_
      rw [hs.fresh i hi, Option.map_none, ite_self]
    | subscribed hopen =>
      have hlt : s.nextStream < i := hi
      exact (Function.update_of_ne (Nat.ne_of_gt hlt) _ _).trans (hs.fresh i hlt.le)
    | @moved j m st st' hopen hst hmove =>
      have hj : i ≠ j := by
        rintro rfl
        rw [hs.fresh i hi] at hst
        cases hst
      exact (Function.update_of_ne hj _ _).trans (hs.fresh i hi)
  have hsubscribers : s'.subscribers.Nodup ∧ ∀ i ∈ s'.subscribers, i ∈ s.subscribers ∨
      (s'.streams i).isSome = true := by
    cases Step.of_step h with
    | entered | ignored | snapshot | scheduled | dropped | put | set | signalled | silent | cleared |
        closed => exact ⟨hs.nodup, fun i hi => Or.inl hi⟩
    | subscribed hopen =>
      have hnew : s.nextStream ∉ s.subscribers := by
        intro hmem
        have hsome := hs.subscribed _ hmem
        rw [hs.fresh _ le_rfl] at hsome
        cases hsome
      refine ⟨List.nodup_append.mpr ⟨hs.nodup, List.nodup_singleton _, ?_⟩, fun i hi => ?_⟩
      · rintro i hi j hj rfl
        exact hnew (List.mem_singleton.mp hj ▸ hi)
      · rcases List.mem_append.mp hi with hi | hi
        · exact Or.inl hi
        · right
          rw [List.mem_singleton.mp hi]
          show (Function.update s.streams s.nextStream (some (.opened s.looped)) s.nextStream).isSome = true
          rw [Function.update_self]
          rfl
    | @moved i m st st' hopen hst hmove =>
      cases m with
      | unsubscribe => exact ⟨hs.nodup.erase i, fun j hj => Or.inl (List.mem_of_mem_erase hj)⟩
      | _ => exact ⟨hs.nodup, fun i hi => Or.inl hi⟩
  refine ⟨hfresh, hsubscribers.1, fun i hi => ?_, fun p targets ht => ?_⟩
  · rcases hsubscribers.2 i hi with hi | hi
    · exact isSome_step hs h (hs.subscribed i hi)
    · exact hi
  · rcases targets_step h ht with ht | hperm
    · obtain ⟨hnodup, hexist⟩ := hs.targets p targets ht
      exact ⟨hnodup, fun i hi => isSome_step hs h (hexist i hi)⟩
    · exact ⟨hperm.nodup_iff.mpr hs.nodup, fun i hi =>
        isSome_step hs h (hs.subscribed i (hperm.mem_iff.mp hi))⟩

/-- A live stream has received the puts that found room, in order. -/
def Receives (j : ℕ) (s : State) (l : List (Payload × Bool)) : Prop :=
  match s.streams j with
  | none => fitting l = []
  | some st => st.Live → st.received = fitting l

/-- A step offers a stream exactly what it receives. -/
theorem Receives.step {s s' : State} {a : Action} {j : ℕ} {l : List (Payload × Bool)}
    (hs : WellFormed s) (hl : Receives j s l) (h : Events.step s a = some s') :
    Receives j s' (l ++ offer j s a) := by
  unfold Receives at hl ⊢
  rcases stream_cases hs h j with ⟨hsame, hoffer⟩ | ⟨m, st, st', hst, hmove, hst', hoffer⟩ |
    ⟨p, st, hst, hst', hoffer⟩ | ⟨hst, hst', hoffer⟩
  · rwa [hsame, hoffer, List.append_nil]
  · rw [hst] at hl
    rw [hst', hoffer, List.append_nil]
    intro hlive
    obtain ⟨hlive', hreceived⟩ := received_move hmove hlive
    exact hreceived.trans (hl hlive')
  · rw [hst] at hl
    rw [hst', hoffer, fitting_append]
    intro hlive
    rw [received_put, hl (live_put hlive)]
    by_cases hroom : st.queue.length < maxsize <;> simp [fitting, hroom]
  · rw [hst] at hl
    rw [hst', hoffer, List.append_nil]
    intro _
    exact (received_opened _).trans hl.symm

/-! ### Each broadcast at most once

A call is in one place at a time: in its thread, on the loop, or delivered.
-/

/-- The calls whose callback is on the loop. -/
def pendingCalls (ready : List Callback) : List ℕ :=
  ready.filterMap fun c => match c with
    | .putAll p _ => some p.call
    | .setShutdown => none

/-- A call that has returned is on the loop or has been delivered, once. -/
structure Once (s : State) (l : List (Payload × Bool)) : Prop where
  nodup : ((l.map fun o => o.1.call) ++ pendingCalls s.ready).Nodup
  returned : ∀ c ∈ (l.map fun o => o.1.call) ++ pendingCalls s.ready,
    c < s.nextCall ∧ s.calls c = none
  begun : ∀ c, (s.calls c).isSome = true → c < s.nextCall

/-- A call that is not offered again is offered once. -/
theorem Once.of_sublist {s s' : State} {l l' : List (Payload × Bool)} (hl : Once s l)
    (hsub : ((l'.map fun o => o.1.call) ++ pendingCalls s'.ready).Sublist
      ((l.map fun o => o.1.call) ++ pendingCalls s.ready))
    (hnext : s.nextCall ≤ s'.nextCall) (hnone : ∀ c < s.nextCall, s.calls c = none → s'.calls c = none)
    (hbegun : ∀ c, (s'.calls c).isSome = true → c < s'.nextCall) : Once s' l' := by
  refine ⟨hl.nodup.sublist hsub, fun c hc => ?_, hbegun⟩
  obtain ⟨hlt, hcall⟩ := hl.returned c (hsub.mem hc)
  exact ⟨hlt.trans_le hnext, hnone c hlt hcall⟩

/-- A call that is there after an update was there before, or is the new one. -/
theorem isSome_update {calls : ℕ → Option Call} {i j : ℕ} {c : Option Call}
    (h : (Function.update calls i c j).isSome = true) :
    (j = i ∧ c.isSome = true) ∨ (calls j).isSome = true := by
  obtain ⟨d, hd⟩ := Option.isSome_iff_exists.mp h
  rcases calls_update hd with ⟨hj, hc⟩ | hd
  · exact Or.inl ⟨hj, hc ▸ rfl⟩
  · exact Or.inr (hd ▸ rfl)

/-- Only a callback offers something. -/
theorem offer_of_ne {j : ℕ} {s : State} {a : Action} (h : a ≠ .callback) : offer j s a = [] := by
  cases a with
  | callback => exact absurd rfl h
  | _ => rfl

/-- The put of a callback is offered once to a stream or not at all. -/
theorem offer_sublist {j : ℕ} {s : State} {p : Payload} {targets : List ℕ} {rest : List Callback}
    (hready : s.ready = .putAll p targets :: rest) :
    ((offer j s .callback).map fun o => o.1.call).Sublist [p.call] := by
  cases hst : s.streams j with
  | none =>
    simp only [offer, hready, hst]
    exact List.nil_sublist _
  | some st =>
    simp only [offer, hready, hst]
    split_ifs
    · exact List.Sublist.refl _
    · exact List.nil_sublist _

/-- No step offers a call twice. -/
theorem Once.step {s s' : State} {a : Action} {j : ℕ} {l : List (Payload × Bool)}
    (hl : Once s l) (h : Events.step s a = some s') : Once s' (l ++ offer j s a) := by
  have hoffer : a ≠ .callback → offer j s a = [] := offer_of_ne
  cases Step.of_step h with
  | ignored | subscribed | moved | silent | cleared | closed =>
    rw [hoffer (by simp), List.append_nil]
    exact hl.of_sublist (List.Sublist.refl _) le_rfl (fun _ _ hc => hc) hl.begun
  | entered event data =>
    rw [hoffer (by simp), List.append_nil]
    refine hl.of_sublist (List.Sublist.refl _) (Nat.le_succ _) (fun c hc hcall => ?_) fun c hc => ?_
    · exact (Function.update_of_ne (Nat.ne_of_lt hc) _ _).trans hcall
    · rcases isSome_update hc with ⟨rfl, -⟩ | hc
      · exact Nat.lt_succ_self _
      · exact (hl.begun c hc).trans (Nat.lt_succ_self _)
  | @snapshot call text targets hcall hperm =>
    rw [hoffer (by simp), List.append_nil]
    refine hl.of_sublist (List.Sublist.refl _) le_rfl (fun c hc hnone => ?_) fun c hc => ?_
    · have hne : c ≠ call := by
        rintro rfl
        rw [hnone] at hcall
        cases hcall
      exact (Function.update_of_ne hne _ _).trans hnone
    · rcases isSome_update hc with ⟨rfl, -⟩ | hc
      · exact hl.begun c (hcall ▸ rfl)
      · exact hl.begun c hc
  | @scheduled call text targets hcall hopen =>
    rw [hoffer (by simp), List.append_nil]
    have hpending : pendingCalls (s.ready ++ [.putAll ⟨call, text⟩ targets]) =
        pendingCalls s.ready ++ [call] := by
      rw [pendingCalls, List.filterMap_append]
      rfl
    have hnone : ∀ c, s.calls c = none → Function.update s.calls call none c = none := by
      intro c hc
      rw [Function.update_apply, hc, ite_self]
    have hnew : call ∉ (l.map fun o => o.1.call) ++ pendingCalls s.ready := by
      intro hmem
      have hreturned := (hl.returned call hmem).2
      rw [hcall] at hreturned
      cases hreturned
    refine ⟨?_, fun c hc => ?_, fun c hc => ?_⟩
    · show (_ ++ pendingCalls (s.ready ++ _)).Nodup
      rw [hpending, ← List.append_assoc]
      refine List.nodup_append.mpr ⟨hl.nodup, List.nodup_singleton _, ?_⟩
      rintro c hc d hd rfl
      exact hnew (List.mem_singleton.mp hd ▸ hc)
    · have hc : c ∈ _ ++ pendingCalls (s.ready ++ _) := hc
      rw [hpending, ← List.append_assoc] at hc
      rcases List.mem_append.mp hc with hc | hc
      · obtain ⟨hlt, hreturned⟩ := hl.returned c hc
        exact ⟨hlt, hnone c hreturned⟩
      · rw [List.mem_singleton.mp hc]
        exact ⟨hl.begun call (hcall ▸ rfl), Function.update_self _ _ _⟩
    · rcases isSome_update hc with ⟨-, hc⟩ | hc
      · cases hc
      · exact hl.begun c hc
  | @dropped call text targets hcall hclosed =>
    rw [hoffer (by simp), List.append_nil]
    refine hl.of_sublist (List.Sublist.refl _) le_rfl (fun c hc hnone => ?_) fun c hc => ?_
    · show Function.update s.calls call none c = none
      rw [Function.update_apply, hnone, ite_self]
    · rcases isSome_update hc with ⟨-, hc⟩ | hc
      · cases hc
      · exact hl.begun c hc
  | @put p targets rest hopen hready =>
    refine hl.of_sublist ?_ le_rfl (fun _ _ hc => hc) hl.begun
    rw [hready, List.map_append, List.append_assoc]
    exact ((offer_sublist hready).append (List.Sublist.refl _)).append_left _
  | set hopen hready =>
    refine hl.of_sublist ?_ le_rfl (fun _ _ hc => hc) hl.begun
    have hoffer : offer j s .callback = [] := by simp only [offer, hready]
    rw [hready, hoffer, List.append_nil]
    exact List.Sublist.refl _
  | signalled =>
    rw [hoffer (by simp), List.append_nil]
    refine hl.of_sublist ?_ le_rfl (fun _ _ hc => hc) hl.begun
    show (_ ++ pendingCalls (s.ready ++ _)).Sublist _
    rw [pendingCalls, List.filterMap_append]
    exact (List.append_nil _).symm ▸ List.Sublist.refl _

/-! ### Each broadcast reaches each subscriber

What is addressed to a stream waits for its callback, and the callback offers it. Only the end of the loop
comes in between.
-/

/-- A closed broadcaster stays closed. -/
theorem closed_step {s s' : State} {a : Action} (h : step s a = some s') (hclosed : s.closed = true) :
    s'.closed = true := by
  cases Step.of_step h <;> first | exact hclosed | rfl

/-- Targets wait for their callback, unless the loop is closed before it is scheduled. -/
theorem targets_wait {s s' : State} {a : Action} {j : ℕ} {l : List (Payload × Bool)} (hs : WellFormed s)
    (hl : Once s l) (h : step s a = some s') {p : Payload} {targets : List ℕ}
    (ht : Targets s p targets) (hj : j ∈ targets) :
    p ∈ (offer j s a).map Prod.fst ∨ Targets s' p targets ∨ s'.closed = true := by
  unfold Targets at ht ⊢
  cases Step.of_step h with
  | ignored | subscribed | moved | silent | cleared | closed => exact Or.inr (Or.inl ht)
  | signalled =>
    exact Or.inr (Or.inl (ht.imp_right fun hmem => List.mem_append_left _ hmem))
  | entered event data =>
    refine Or.inr (Or.inl (ht.imp_left fun hcall => ?_))
    have hlt := hl.begun p.call (hcall ▸ rfl)
    exact (Function.update_of_ne (Nat.ne_of_lt hlt) _ _).trans hcall
  | @snapshot call text targets' hentered hperm =>
    refine Or.inr (Or.inl (ht.imp_left fun hcall => ?_))
    have hne : p.call ≠ call := by
      rintro rfl
      rw [hcall] at hentered
      cases hentered
    exact (Function.update_of_ne hne _ _).trans hcall
  | @scheduled call text targets' hholding hopen =>
    right
    left
    rcases ht with hcall | hmem
    · by_cases hp : p.call = call
      · right
        rw [← hp, hcall] at hholding
        cases hholding
        exact hp ▸ List.mem_append_right _ List.mem_cons_self
      · exact Or.inl ((Function.update_of_ne hp _ _).trans hcall)
    · exact Or.inr (List.mem_append_left _ hmem)
  | dropped hholding hclosed => exact Or.inr (Or.inr hclosed)
  | @put q targets' rest hopen hready =>
    rcases ht with hcall | hmem
    · exact Or.inr (Or.inl (Or.inl hcall))
    · rw [hready] at hmem
      rcases List.mem_cons.mp hmem with heq | hmem
      · cases heq
        obtain ⟨-, hexist⟩ := hs.targets p targets (Or.inr (hready ▸ List.mem_cons_self))
        obtain ⟨st, hst⟩ := Option.isSome_iff_exists.mp (hexist j hj)
        left
        simp only [offer, hready, hst, if_pos hj]
        exact List.mem_cons_self
      · exact Or.inr (Or.inl (Or.inr hmem))
  | set hopen hready =>
    rw [hready] at ht
    refine Or.inr (Or.inl (ht.imp_right fun hmem => ?_))
    rcases List.mem_cons.mp hmem with heq | hmem
    · cases heq
    · exact hmem

/-- A broadcast that found the stream subscribed has been offered to it, or its put is still to come. -/
def Delivers (j : ℕ) (s : State) (l : List (Payload × Bool)) (k : List Payload) : Prop :=
  ∀ p ∈ k, p ∈ l.map Prod.fst ∨ (∃ targets, j ∈ targets ∧ Targets s p targets) ∨ s.closed = true

/-- Every step delivers to a stream what is addressed to it. -/
theorem Delivers.step {s s' : State} {a : Action} {j : ℕ} {l : List (Payload × Bool)}
    {k : List Payload} (hs : WellFormed s) (hl : Once s l) (hk : Delivers j s l k)
    (h : Events.step s a = some s') : Delivers j s' (l ++ offer j s a) (k ++ address j s a) := by
  intro p hp
  rw [List.map_append, List.mem_append]
  rcases List.mem_append.mp hp with hp | hp
  · rcases hk p hp with hoffered | ⟨targets, hj, ht⟩ | hclosed
    · exact Or.inl (Or.inl hoffered)
    · rcases targets_wait hs hl h ht hj with hoffered | ht | hclosed
      · exact Or.inl (Or.inr hoffered)
      · exact Or.inr (Or.inl ⟨targets, hj, ht⟩)
      · exact Or.inr (Or.inr hclosed)
    · exact Or.inr (Or.inr (closed_step h hclosed))
  · cases Step.of_step h with
    | @snapshot call text targets hcall hperm =>
      simp only [address, hcall] at hp
      split_ifs at hp with hj
      · cases List.mem_singleton.mp hp
        exact Or.inr (Or.inl ⟨targets, hperm.mem_iff.mpr hj, Or.inl (Function.update_self _ _ _)⟩)
      · cases hp
    | _ => cases hp

/-! ## Every run

The invariants together, carried over a run by induction.
-/

/-- All that the steps of a run preserve for one stream. -/
structure Invariant (j : ℕ) (s : State) (l : List (Payload × Bool)) (k : List Payload) : Prop where
  wellFormed : WellFormed s
  receives : Receives j s l
  once : Once s l
  delivers : Delivers j s l k

/-- The three hold of every run. -/
theorem Invariant.of_run {as : List Action} {s : State}
    (hrun : Runs.run step State.initial as = some s) (j : ℕ) :
    Invariant j s (offers j as) (addressed j as) := by
  have hinitial : Invariant j State.initial [] [] :=
    ⟨WellFormed.initial, rfl,
      ⟨List.nodup_nil, fun c hc => absurd hc List.not_mem_nil, fun c hc => by cases hc⟩,
      fun p hp => absurd hp List.not_mem_nil⟩
  have hstep : ∀ s a s' l k, Invariant j s l k → step s a = some s' →
      Invariant j s' (l ++ offer j s a) (k ++ address j s a) := fun s a s' l k hi h =>
    ⟨hi.wellFormed.step h, hi.receives.step hi.wellFormed h, hi.once.step h,
      hi.delivers.step hi.wellFormed hi.once h⟩
  exact Runs.record_preserves hstep hinitial hrun

/-- What fits occurs once if it was offered once. -/
theorem nodup_fitting {l : List (Payload × Bool)} (h : (l.map fun o => o.1.call).Nodup) :
    (fitting l).Nodup := by
  have hcalls : ((fitting l).map Payload.call).Nodup := by
    unfold fitting
    rw [List.map_map]
    exact h.sublist (List.filter_sublist.map _)
  exact hcalls.of_map

/-- In every run, what a live stream has yielded, what its finished read holds and what is in its queue
are, in order and each once, the broadcasts that found room in its queue. Every broadcast that found the
stream subscribed has been offered to its queue, or its callback is still to come; and a callback that is
to come can run, whatever became of the subscribers. -/
theorem stream_delivery {as : List Action} {s : State}
    (hrun : Runs.run step State.initial as = some s) (j : ℕ) :
    (∀ st, s.streams j = some st → st.Live → st.yields ++ st.held ++ st.queue = accepted j as) ∧
      (accepted j as).Nodup ∧
      (∀ p ∈ addressed j as, s.closed = false →
        p ∈ (offers j as).map Prod.fst ∨ ∃ targets, j ∈ targets ∧ Targets s p targets) ∧
      (s.closed = false → s.ready ≠ [] → (step s .callback).isSome = true) := by
  have hi := Invariant.of_run hrun j
  refine ⟨fun st hst hlive => ?_, ?_, fun p hp hopen => ?_, fun hopen hready => ?_⟩
  · have hreceives := hi.receives
    rw [Receives, hst] at hreceives
    exact hreceives hlive
  · exact nodup_fitting (List.nodup_append.mp hi.once.nodup).1
  · rcases hi.delivers p hp with hoffered | hwaiting | hclosed
    · exact Or.inl hoffered
    · exact Or.inr hwaiting
    · rw [hopen] at hclosed
      cases hclosed
  · cases hcallbacks : s.ready with
    | nil => exact absurd hcallbacks hready
    | cons c rest => cases c <;> simp [step, hopen, hcallbacks]

/-- Two streams; the timer of the first one fires while a broadcast is on its way, then the second one
leaves, and another broadcast is read. -/
def raceRun : List Action :=
  [.subscribe, .subscribe, .move 0 .resume, .move 0 (.poll false),
    .broadcast (lit "ingest_done") (lit "{}"), .snapshot 0 [1, 0], .schedule 0, .callback,
    .move 0 .wait, .move 1 .depart, .move 0 .drained, .move 0 .resume, .move 0 (.poll false),
    .move 0 .read, .move 1 .unsubscribe, .broadcast (lit "ingest_failed") (lit "{}"),
    .snapshot 1 [0], .schedule 1, .callback, .move 0 .wait]

/-- A run in which a stream is opened between two broadcasts. -/
theorem raceRun_delivery : ∃ s, Runs.run step State.initial raceRun = some s ∧
    (∀ st, s.streams 0 = some st → st.Live → st.yields ++ st.held ++ st.queue = accepted 0 raceRun) ∧
      (accepted 0 raceRun).Nodup ∧
      (∀ p ∈ addressed 0 raceRun, s.closed = false →
        p ∈ (offers 0 raceRun).map Prod.fst ∨ ∃ targets, 0 ∈ targets ∧ Targets s p targets) ∧
      (s.closed = false → s.ready ≠ [] → (step s .callback).isSome = true) := by
  have hsome : (Runs.run step State.initial raceRun).isSome = true := by decide +kernel
  obtain ⟨s, hs⟩ := Option.isSome_iff_exists.mp hsome
  exact ⟨s, hs, stream_delivery hs 0⟩

/-- In that run the first stream accepts both broadcasts. -/
example : (accepted 0 raceRun).map Payload.call = [0, 1] := by decide +kernel

end Ghpulse.Events
