import Ghpulse.Events.Stream
import Ghpulse.Library.AsciiJson
import Ghpulse.Library.EventStream
import Ghpulse.Library.JsonText

/-!
# What the browser makes of a stream

The text of a stream is read by an `EventSource`. In every run, the messages that it dispatches are the
broadcasts that the stream has yielded, with the event and the data of their calls.

Two things have to be shown. On the side of the server, that every payload on its way is the frame of the
call with its number (`Truthful`), and that a stream yields nothing but texts (`Tidy`): the result of the
wait for the shutdown is a boolean, and it would be yielded if the stream did not end first. On the side
of the browser, that a frame is read as one message (`Library.EventStream`). The condition is that events
and data stand in one line each; `json.dumps` escapes line breaks, so data that it writes does
(`unbroken_dumps`).

Reference: `backend/events.py` (`broadcast_threadsafe`); `backend/app.py` (`_event_stream`).
-/

open Python EventStream

namespace Ghpulse.Events

/-! ## Texts

What a generator yields is encoded as it is. The number of a broadcast is that of its call, so a payload
can be compared with the event and data of that call later.
-/

/-- The text of a chunk; a boolean has none. -/
def Chunk.text? : Chunk → Option Str
  | .connected => some (lit ": connected\n\n")
  | .ping => some (lit ": ping\n\n")
  | .event p => some p.text
  | .woken => none

/-- The body of the response so far. -/
def Stream.text (st : Stream) : Str := (st.output.filterMap Chunk.text?).flatten

/-- The event and the data of a broadcast. -/
abbrev Announcement := Str × Str

/-- The broadcasts that build a payload. -/
def announce (s : State) : Action → List Announcement
  | .broadcast event data => if s.looped && !s.closed then [(event, data)] else []
  | _ => []

/-- The broadcasts of a run, in the order of their calls. -/
def announced (as : List Action) : List Announcement := Runs.record step announce State.initial as

/-- An event and data that stand in one line each. -/
def OneLine (e : Announcement) : Prop := e.1 ≠ [] ∧ Unbroken e.1 ∧ Unbroken e.2

/-- Broadcasts have events and data that stand in one line each. -/
def Speakable (_ : State) : Action → Prop
  | .broadcast event data => OneLine (event, data)
  | _ => True

/-! ## Payloads

`Tidy` is a statement about one stream and what was announced so far, so it has a lemma for each move and
is used for all streams at once.
-/

/-- The payload is that of its call. -/
def Framed (b : List Announcement) (p : Payload) : Prop := ∃ e, b[p.call]? = some e ∧ p.text = frame e.1 e.2

/-- A payload that was announced stays so. -/
theorem Framed.append {b : List Announcement} {p : Payload} (h : Framed b p) (l : List Announcement) :
    Framed (b ++ l) p := by
  obtain ⟨e, he, htext⟩ := h
  obtain ⟨hlt, -⟩ := List.getElem?_eq_some_iff.mp he
  exact ⟨e, (List.getElem?_append_left hlt).trans he, htext⟩

/-- The text of a call. -/
def Call.text : Call → Str
  | .entered text | .holding text _ => text

/-- The task of `shutdown.wait()` is done. -/
def Pc.woken : Pc → Bool
  | .waiting _ woken | .draining _ woken => woken
  | _ => false

/-- The stream has yielded texts only, and what it has received is framed. -/
structure Tidy (b : List Announcement) (isSet : Bool) (st : Stream) : Prop where
  framed : ∀ p ∈ st.received, Framed b p
  output : .woken ∉ st.output
  woken : st.pc.woken = true → st.watches = true ∧ isSet = true

/-- A stream that was just opened is tidy. -/
theorem tidy_opened (b : List Announcement) (isSet watches : Bool) :
    Tidy b isSet (Stream.opened watches) where
  framed := fun p hp => by
    rw [received_opened] at hp
    cases hp
  output := by decide +revert
  woken := fun h => by cases h

/-- It stays tidy when an announced payload is put to it. -/
theorem Tidy.put {b : List Announcement} {isSet : Bool} {st : Stream} (h : Tidy b isSet st) {p : Payload}
    (hp : Framed b p) : Tidy b isSet (st.put p) := by
  have hsame : (st.put p).output = st.output ∧ (st.put p).pc = st.pc ∧ (st.put p).watches = st.watches := by
    unfold Stream.put Stream.putNowait
    split_ifs <;> exact ⟨rfl, rfl, rfl⟩
  refine ⟨fun q hq => ?_, ?_, ?_⟩
  · rw [received_put] at hq
    rcases List.mem_append.mp hq with hq | hq
    · exact h.framed q hq
    · split_ifs at hq
      · exact List.mem_singleton.mp hq ▸ hp
      · cases hq
  · rw [hsame.1]
    exact h.output
  · rw [hsame.2.1, hsame.2.2]
    exact h.woken

/-- It stays tidy while more is announced. -/
theorem Tidy.mono {b l : List Announcement} {isSet isSet' : Bool} {st : Stream} (h : Tidy b isSet st)
    (hset : isSet = true → isSet' = true) : Tidy (b ++ l) isSet' st where
  framed := fun p hp => (h.framed p hp).append l
  output := h.output
  woken := fun hwoken => (h.woken hwoken).imp_right hset

/-- A move that ends a stream drops what its task holds, and nothing else. -/
theorem ended_move {isSet : Bool} {st st' : Stream} {m : Move} (h : st.move isSet m = some st')
    (hended : ¬st'.Live) :
    st'.output = st.output ∧ st'.queue = st.queue ∧ st'.held = [] ∧ st'.pc.woken = false := by
  have hpc : st'.pc = .leaving ∨ st'.pc = .left := by
    unfold Stream.Live at hended
    tauto
  have hkept : st'.output = st.output ∧ st'.queue = st.queue := by
    obtain ⟨queue, pc, watches, output⟩ := st
    cases m with
    | read =>
      simp only [Stream.move] at h
      split at h
      · cases h
        rcases hpc with hpc | hpc <;> cases hpc
      · cases h
    | drained =>
      simp only [Stream.move] at h
      split at h
      · split_ifs at h
        · cases h
          rcases hpc with hpc | hpc <;> cases hpc
        · cases h
          exact ⟨rfl, rfl⟩
        · split at h <;> cases h <;> rcases hpc with hpc | hpc <;> cases hpc
      · cases h
    | resume | wait | unsubscribe | abort =>
      simp only [Stream.move] at h
      split at h
      · cases h
        exact ⟨rfl, rfl⟩
      · cases h
    | poll gone =>
      simp only [Stream.move] at h
      split at h
      · split_ifs at h <;> cases h <;> exact ⟨rfl, rfl⟩
      · cases h
    | wake =>
      simp only [Stream.move] at h
      split at h
      · split_ifs at h
        cases h
        exact ⟨rfl, rfl⟩
      · cases h
    | depart =>
      simp only [Stream.move] at h
      split at h
      · cases h
      · cases h
      · cases h
        exact ⟨rfl, rfl⟩
  unfold Stream.held
  rcases hpc with hpc | hpc <;> rw [hpc] <;> exact ⟨hkept.1, hkept.2, rfl, rfl⟩

/-- No move receives anything. -/
theorem mem_received_move {isSet : Bool} {st st' : Stream} {m : Move} (h : st.move isSet m = some st')
    {p : Payload} (hp : p ∈ st'.received) : p ∈ st.received := by
  by_cases hlive : st'.Live
  · rwa [(received_move h hlive).2] at hp
  · obtain ⟨houtput, hqueue, hheld, -⟩ := ended_move h hlive
    unfold Stream.received Stream.yields at hp ⊢
    rw [houtput, hqueue, hheld, List.append_nil] at hp
    rcases List.mem_append.mp hp with hp | hp
    · exact List.mem_append_left _ (List.mem_append_left _ hp)
    · exact List.mem_append_right _ hp

/-- A move within a wait cycle or around it yields nothing, and the wait for the shutdown ends only when it is
set. -/
theorem quiet_move {isSet : Bool} {st st' : Stream} {m : Move} (hm : m ≠ .drained)
    (h : st.move isSet m = some st') : st'.output = st.output ∧ st'.watches = st.watches ∧
      (st'.pc.woken = true → st.pc.woken = true ∨ (st.watches = true ∧ isSet = true)) := by
  obtain ⟨queue, pc, watches, output⟩ := st
  cases m with
  | drained => exact absurd rfl hm
  | wake =>
    simp only [Stream.move] at h
    split at h
    · split_ifs at h with hset
      cases h
      exact ⟨rfl, rfl, fun _ => Or.inr (Bool.and_eq_true_iff.mp hset)⟩
    · cases h
  | read | wait =>
    simp only [Stream.move] at h
    split at h
    · cases h
      exact ⟨rfl, rfl, Or.inl⟩
    · cases h
  | poll gone =>
    simp only [Stream.move] at h
    split at h
    · split_ifs at h <;> cases h <;> exact ⟨rfl, rfl, fun hwoken => (by cases hwoken)⟩
    · cases h
  | resume | unsubscribe | abort =>
    simp only [Stream.move] at h
    split at h
    · cases h
      exact ⟨rfl, rfl, fun hwoken => (by cases hwoken)⟩
    · cases h
  | depart =>
    simp only [Stream.move] at h
    split at h
    · cases h
    · cases h
    · cases h
      exact ⟨rfl, rfl, fun hwoken => (by cases hwoken)⟩

/-- The end of a wait cycle yields a ping or a payload: it could yield the result of the wait for the shutdown
only when that is set, and then the stream ends. -/
theorem Tidy.drained {b : List Announcement} {isSet : Bool} {st st' : Stream} (h : Tidy b isSet st)
    (hmove : st.move isSet .drained = some st') : .woken ∉ st'.output ∧ st'.pc.woken = false := by
  obtain ⟨queue, pc, watches, output⟩ := st
  cases pc with
  | draining read woken =>
    simp only [Stream.move] at hmove
    split_ifs at hmove with hnone hset
    · cases hmove
      exact ⟨by simpa using h.output, rfl⟩
    · cases hmove
      exact ⟨h.output, rfl⟩
    · cases read with
      | some p =>
        cases hmove
        exact ⟨by simpa using h.output, rfl⟩
      | none =>
        have hdone : woken = true := by simpa using hnone
        exact absurd (Bool.and_eq_true_iff.mpr (h.woken hdone)) hset
  | _ => cases hmove

/-- Whatever a stream does, it yields no boolean. -/
theorem Tidy.move {b : List Announcement} {isSet : Bool} {st st' : Stream} (h : Tidy b isSet st) {m : Move}
    (hmove : st.move isSet m = some st') : Tidy b isSet st' := by
  have hframed (p : Payload) (hp : p ∈ st'.received) : Framed b p :=
    h.framed p (mem_received_move hmove hp)
  by_cases hm : m = .drained
  · subst hm
    obtain ⟨houtput, hwoken⟩ := h.drained hmove
    exact ⟨hframed, houtput, fun hw => absurd (hwoken.symm.trans hw) Bool.false_ne_true⟩
  · obtain ⟨houtput, hwatches, hwoken⟩ := quiet_move hm hmove
    refine ⟨hframed, houtput ▸ h.output, fun hw => ?_⟩
    rw [hwatches]
    exact (hwoken hw).elim h.woken id

/-! ## The process

A payload passes through a call, a callback on the loop, a queue and a task before it is yielded. At each
of these places it is the frame of its call.
-/

/-- Every payload on its way is that of its call. -/
structure Truthful (s : State) (b : List Announcement) : Prop where
  wellFormed : WellFormed s
  count : s.nextCall = b.length
  oneLine : ∀ e ∈ b, OneLine e
  calls : ∀ c call, s.calls c = some call → Framed b ⟨c, call.text⟩
  ready : ∀ p targets, .putAll p targets ∈ s.ready → Framed b p
  streams : ∀ j st, s.streams j = some st → Tidy b s.shutdown st

/-- Before the first announcement there is no text. -/
theorem truthful_initial : Truthful State.initial [] where
  wellFormed := WellFormed.initial
  count := rfl
  oneLine := fun _ he => absurd he List.not_mem_nil
  calls := fun _ _ h => by cases h
  ready := fun _ _ h => absurd h List.not_mem_nil
  streams := fun _ _ h => by cases h

/-- What is put into a stream was scheduled. -/
theorem mem_ready_of_offer {j : ℕ} {s : State} {a : Action} {p : Payload} {room : Bool}
    (h : offer j s a = [(p, room)]) : ∃ targets, .putAll p targets ∈ s.ready := by
  unfold offer at h
  split at h
  · split at h
    · next q targets rest st hready hst =>
      split_ifs at h
      cases h
      exact ⟨targets, hready ▸ List.mem_cons_self⟩
    · cases h
  · cases h

/-- The streams after a step. -/
theorem Truthful.tidy_step {s s' : State} {b : List Announcement} (h : Truthful s b) {a : Action}
    (hstep : step s a = some s') (hset : s.shutdown = true → s'.shutdown = true) (l : List Announcement) :
    ∀ j st, s'.streams j = some st → Tidy (b ++ l) s'.shutdown st := by
  intro j st hst
  rcases stream_cases h.wellFormed hstep j with ⟨hsame, -⟩ | ⟨m, st₁, st₂, hst₁, hmove, hst₂, -⟩ |
    ⟨p, st₁, hst₁, hst₂, hoffer⟩ | ⟨-, hst₂, -⟩
  · exact (h.streams j st (hsame ▸ hst)).mono hset
  · rw [hst₂] at hst
    cases hst
    exact ((h.streams j st₁ hst₁).move hmove).mono hset
  · rw [hst₂] at hst
    cases hst
    obtain ⟨targets, hready⟩ := mem_ready_of_offer hoffer
    exact ((h.streams j st₁ hst₁).put (h.ready p targets hready)).mono hset
  · rw [hst₂] at hst
    cases hst
    exact tidy_opened _ _ _

/-- A shutdown is not taken back. -/
theorem shutdown_step {s s' : State} {a : Action} (h : step s a = some s') (hset : s.shutdown = true) :
    s'.shutdown = true := by
  cases Step.of_step h <;> first | exact hset | rfl

/-- A step that builds no payload. -/
theorem Truthful.quiet {s s' : State} {b : List Announcement} (h : Truthful s b) {a : Action}
    (hstep : step s a = some s') (hcount : s'.nextCall = s.nextCall)
    (hcalls : ∀ c call, s'.calls c = some call → Framed b ⟨c, call.text⟩)
    (hready : ∀ p targets, .putAll p targets ∈ s'.ready → Framed b p) : Truthful s' b where
  wellFormed := h.wellFormed.step hstep
  count := hcount.trans h.count
  oneLine := h.oneLine
  calls := hcalls
  ready := hready
  streams := by
    have htidy := h.tidy_step hstep (shutdown_step hstep) []
    rwa [List.append_nil] at htidy

/-- Every step keeps the texts true to the announcements. -/
theorem Truthful.step {s s' : State} {b : List Announcement} (h : Truthful s b) {a : Action}
    (hok : Speakable s a) (hstep : step s a = some s') : Truthful s' (b ++ announce s a) := by
  -- the actions other than a broadcast announce nothing
  have hquiet (ha : announce s a = []) (hcount : s'.nextCall = s.nextCall)
      (hcalls : ∀ c call, s'.calls c = some call → Framed b ⟨c, call.text⟩)
      (hready : ∀ p targets, .putAll p targets ∈ s'.ready → Framed b p) :
    Truthful s' (b ++ announce s a) := by
    rw [ha, List.append_nil]
    exact h.quiet hstep hcount hcalls hready
  cases a with
  -- a new payload, unless the loop is closed or not yet set
  | broadcast event data =>
    have hstep' := hstep
    simp only [Events.step] at hstep'
    split_ifs at hstep' with hopen
    · cases hstep'
      have hnew : Framed (b ++ [(event, data)]) ⟨s.nextCall, frame event data⟩ :=
        ⟨(event, data), by rw [h.count]; exact List.getElem?_concat_length, rfl⟩
      have hannounce : announce s (.broadcast event data) = [(event, data)] := if_pos hopen
      rw [hannounce]
      refine ⟨h.wellFormed.step hstep, ?_, ?_, ?_, ?_, h.tidy_step hstep (shutdown_step hstep) _⟩
      · rw [List.length_append, ← h.count]
        rfl
      · intro e he
        rcases List.mem_append.mp he with he | he
        · exact h.oneLine e he
        · exact List.mem_singleton.mp he ▸ hok
      · intro c call hc
        rcases calls_update hc with ⟨rfl, hcall⟩ | hc
        · cases hcall
          exact hnew
        · exact (h.calls c call hc).append _
      · exact fun p targets hp => (h.ready p targets hp).append _
    · cases hstep'
      exact hquiet (if_neg hopen) rfl h.calls h.ready
  | snapshot call targets =>
    cases Step.of_step hstep with
    | @snapshot _ text _ hcall hperm =>
      refine hquiet rfl rfl (fun c call' hc => ?_) h.ready
      rcases calls_update hc with ⟨rfl, hcall'⟩ | hc
      · cases hcall'
        exact h.calls c (.entered text) hcall
      · exact h.calls c call' hc
  | schedule call =>
    have hrest : ∀ c call', Function.update s.calls call none c = some call' → Framed b ⟨c, call'.text⟩ := by
      intro c call' hc
      rcases calls_update hc with ⟨-, hcall'⟩ | hc
      · cases hcall'
      · exact h.calls c call' hc
    cases Step.of_step hstep with
    | @scheduled _ text targets hcall hopen =>
      refine hquiet rfl rfl hrest fun p targets' hp => ?_
      rcases List.mem_append.mp hp with hp | hp
      · exact h.ready p targets' hp
      · cases List.mem_singleton.mp hp
        exact h.calls call _ hcall
    | dropped hcall hclosed => exact hquiet rfl rfl hrest h.ready
  | callback =>
    cases Step.of_step hstep with
    | put hopen hready =>
      exact hquiet rfl rfl h.calls fun p targets hp => h.ready p targets (hready ▸ List.mem_cons_of_mem _ hp)
    | set hopen hready =>
      exact hquiet rfl rfl h.calls fun p targets hp => h.ready p targets (hready ▸ List.mem_cons_of_mem _ hp)
  | signalShutdown =>
    cases Step.of_step hstep with
    | signalled =>
      refine hquiet rfl rfl h.calls fun p targets hp => ?_
      rcases List.mem_append.mp hp with hp | hp
      · exact h.ready p targets hp
      · cases List.mem_singleton.mp hp
    | silent => exact hquiet rfl rfl h.calls h.ready
  | subscribe | move | clearLoop | closeLoop =>
    cases Step.of_step hstep
    exact hquiet rfl rfl h.calls h.ready

/-- The payloads of every run. -/
theorem truthful_of_run {as : List Action} {s : State}
    (hok : Runs.Guarded step Speakable State.initial as)
    (hrun : Runs.run step State.initial as = some s) : Truthful s (announced as) := by
  have hrecord := Runs.record_preserves_of_guarded (g := announce)
    (P := fun s (_ : List Announcement) b => Truthful s b) (f := announce) (l := [])
    (fun _ _ _ _ _ h hok hstep => h.step hok hstep) truthful_initial hok hrun
  exact hrecord

/-! ## Reading

The reader is an `EventSource` that gets the text in pieces of any size.
-/

/-- A message says what a payload was built from. -/
def Speaks (b : List Announcement) (p : Payload) (m : Message) : Prop := b[p.call]? = some (m.type, m.data)

/-- A frame is two lines and an empty one. -/
theorem frame_eq (event data : Str) :
    frame event data =
      lit "event" ++ lit ": " ++ event ++ LF :: (lit "data" ++ lit ": " ++ data ++ LF :: [LF]) := by
  have hevent : lit "event: " = lit "event" ++ lit ": " := rfl
  have hdata : lit "\ndata: " = LF :: (lit "data" ++ lit ": ") := rfl
  have hend : lit "\n\n" = [LF, LF] := rfl
  rw [frame, hevent, hdata, hend]
  simp only [List.append_assoc, List.cons_append]

/-- What is read of chunks: comments do nothing, and a payload is one message. -/
theorem read_chunks {b : List Announcement} (hb : ∀ e ∈ b, OneLine e) {chunks : List Chunk}
    (hframed : ∀ p ∈ chunks.filterMap Chunk.payload?, Framed b p) {r : Reader} (hr : r.Idle) :
    ∃ messages,
      r.read (chunks.filterMap Chunk.text?).flatten = { r with messages := r.messages ++ messages } ∧
      List.Forall₂ (Speaks b) (chunks.filterMap Chunk.payload?) messages := by
  induction chunks generalizing r with
  | nil =>
    refine ⟨[], ?_, .nil⟩
    rw [List.append_nil]
    rfl
  | cons c chunks ih =>
    have hcomment (s : Str) (hs : Unbroken s) (hrest : ∀ p ∈ chunks.filterMap Chunk.payload?, Framed b p) :
        ∃ messages, r.read ([cp ':'] ++ s ++ [LF, LF] ++ (chunks.filterMap Chunk.text?).flatten) =
          { r with messages := r.messages ++ messages } ∧
          List.Forall₂ (Speaks b) (chunks.filterMap Chunk.payload?) messages := by
      rw [Reader.read_append, Reader.read_comment hr hs]
      exact ih hrest hr
    cases c with
    | connected => exact hcomment (lit " connected") (by decide) hframed
    | ping => exact hcomment (lit " ping") (by decide) hframed
    | woken => exact ih hframed hr
    | event p =>
      obtain ⟨e, he, htext⟩ := hframed p List.mem_cons_self
      obtain ⟨hne, hevent, hdata⟩ := hb e (List.mem_of_getElem? he)
      have hidle : ({ r with messages := r.messages ++ [⟨e.1, e.2, r.lastEventId⟩] } : Reader).Idle :=
        ⟨hr.line, hr.afterCr, hr.data, hr.eventType⟩
      obtain ⟨messages, hread, hmessages⟩ := ih (fun q hq => hframed q (List.mem_cons_of_mem _ hq)) hidle
      refine ⟨⟨e.1, e.2, r.lastEventId⟩ :: messages, ?_, .cons he hmessages⟩
      change r.read (p.text ++ (chunks.filterMap Chunk.text?).flatten) = _
      rw [htext, frame_eq, Reader.read_append, Reader.read_frame hr hne hevent hdata, hread,
        List.append_assoc]
      rfl

/-! ## The data of a broadcast

`ingest_done` and `ingest_failed` are sent with `json.dumps` of a dictionary.
-/

/-- `null` has no line break. -/
theorem plain_null : Json.Plain (lit "null") := Json.plain_of_all (by decide) (by decide)

/-- Nor has a truth value. -/
theorem plain_bool (b : Bool) : Json.Plain (if b then lit "true" else lit "false") := by
  cases b with
  | true => exact Json.plain_of_all (by decide) (by decide)
  | false => exact Json.plain_of_all (by decide) (by decide)

/-- How `json.dumps` writes leaves, with the texts of floats. -/
def dumpsStyle {ν : Type} (num : ν → Str) (hnum : ∀ x, Json.Plain (num x)) : Json.Style ν where
  null := lit "null"
  bool := fun b => if b then lit "true" else lit "false"
  num := num
  quote := fun s => AsciiJson.dumps (.str s)
  null_plain := plain_null
  bool_plain := plain_bool
  num_plain := hnum

/-- `json.dumps` writes no control character that is white space. -/
theorem not_mem_dumps {ν : Type} (num : ν → Str) (hnum : ∀ x, Json.Plain (num x)) (v : Json ν) {m : CodePoint}
    (hspace : isSpace m = true) (hcontrol : m.val < 0x20) (hmark : m ∉ lit "[]{},: ") :
    m ∉ v.render (dumpsStyle num hnum) := by
  intro hmem
  refine Json.forall_mem_render (P := fun c => c ≠ m) ?_ ?_ ?_ v m hmem rfl
  · rintro t ht c hc rfl
    rw [(ht.2 c hc).1] at hspace
    cases hspace
  · rintro c hc rfl
    exact hmark hc
  · rintro s c hc rfl
    exact absurd hcontrol (AsciiJson.le_of_mem_dumps_str hc).not_gt

/-- `json.dumps` writes one line. -/
theorem unbroken_dumps {ν : Type} (num : ν → Str) (hnum : ∀ x, Json.Plain (num x)) (v : Json ν) :
    Unbroken (v.render (dumpsStyle num hnum)) :=
  ⟨not_mem_dumps num hnum v (by decide) (by decide) (by decide),
    not_mem_dumps num hnum v (by decide) (by decide) (by decide)⟩

/-- In every run whose events and data stand in one line each, and for every stream: what it has yielded is
text, and however this text is cut into pieces, an `EventSource` dispatches one message for each payload that
was yielded, in order, with the event and the data of the call that built it; and nothing else before all of
it has arrived. -/
theorem stream_dispatches {as : List Action} {s : State} {j : ℕ} {st : Stream}
    (hok : Runs.Guarded step Speakable State.initial as)
    (hrun : Runs.run step State.initial as = some s) (hst : s.streams j = some st) :
    (∀ c ∈ st.output, c.text?.isSome = true) ∧
      ∃ messages, List.Forall₂ (Speaks (announced as)) st.yields messages ∧
        ∀ pieces : List Str, pieces.flatten <+: st.text →
          (pieces.foldl Reader.read .initial).messages <+: messages ∧
          (pieces.flatten = st.text → (pieces.foldl Reader.read .initial).messages = messages) := by
  have htruthful := truthful_of_run hok hrun
  have htidy := htruthful.streams j st hst
  have hyields : ∀ p ∈ st.yields, Framed (announced as) p := fun p hp =>
    htidy.framed p (List.mem_append_left _ (List.mem_append_left _ hp))
  obtain ⟨messages, hread, hspeaks⟩ := read_chunks htruthful.oneLine hyields Reader.idle_initial
  have hall : (Reader.initial.read st.text).messages = messages := congrArg Reader.messages hread
  refine ⟨fun c hc => ?_, messages, hspeaks, fun pieces hpieces => ⟨?_, fun hwhole => ?_⟩⟩
  · cases c with
    | woken => exact absurd hc htidy.output
    | _ => rfl
  · obtain ⟨rest, hrest⟩ := hpieces
    rw [Reader.read_flatten, ← hall, ← hrest, Reader.read_append]
    exact Reader.messages_read _ _
  · rw [Reader.read_flatten, hwhole, hall]

/-- The data of an ingest that ended. -/
def doneData : Str :=
  (Json.dict [(lit "run_id", .int 7), (lit "trigger", .str (lit "manual\n"))] : Json Unit).render
    (dumpsStyle (fun _ => lit "0.5") fun _ => Json.plain_of_all (by decide) (by decide))

/-- A stream is opened, and an ingest ends. -/
def doneRun : List Action := [
  .subscribe, .move 0 .resume, .move 0 (.poll false), .broadcast (lit "ingest_done") doneData,
  .snapshot 0 [0], .schedule 0, .callback, .move 0 .read, .move 0 .wait, .move 0 .drained]

/-- A run that commits is dispatched as one message, however its text is cut. -/
theorem doneRun_dispatches :
    ∃ s st m, Runs.run step State.initial doneRun = some s ∧ s.streams 0 = some st ∧
      (∀ pieces : List Str, pieces.flatten = st.text → (pieces.foldl Reader.read .initial).messages = [m]) ∧
      m.type = lit "ingest_done" ∧ m.data = doneData := by
  have hok : Runs.Guarded step Speakable State.initial doneRun := by
    have hdone : OneLine (lit "ingest_done", doneData) := ⟨by decide, by decide, unbroken_dumps _ _ _⟩
    exact ⟨trivial, fun _ _ => ⟨trivial, fun _ _ => ⟨trivial, fun _ _ => ⟨hdone, fun _ _ =>
      ⟨trivial, fun _ _ => ⟨trivial, fun _ _ => ⟨trivial, fun _ _ => ⟨trivial, fun _ _ => ⟨trivial, fun _ _ =>
        ⟨trivial, fun _ _ => trivial⟩⟩⟩⟩⟩⟩⟩⟩⟩⟩
  have hyields : (Runs.run step State.initial doneRun).bind (fun s => (s.streams 0).map Stream.yields) =
    some [⟨0, frame (lit "ingest_done") doneData⟩] := rfl
  have hannounced : (announced doneRun)[0]? = some (lit "ingest_done", doneData) := rfl
  obtain ⟨s, hrun, hyields⟩ := Option.bind_eq_some_iff.mp hyields
  obtain ⟨st, hst, hyields⟩ := Option.map_eq_some_iff.mp hyields
  obtain ⟨-, messages, hspeaks, hread⟩ := stream_dispatches hok hrun hst
  rw [hyields] at hspeaks
  cases hspeaks with
  | @cons _ m _ _ hm hnil =>
    cases hnil
    have hsaid : (m.type, m.data) = (lit "ingest_done", doneData) :=
      Option.some.inj (hm.symm.trans hannounced)
    exact ⟨s, st, m, hrun, hst, fun pieces hpieces => (hread pieces (hpieces ▸ List.prefix_rfl)).2 hpieces,
      congrArg Prod.fst hsaid, congrArg Prod.snd hsaid⟩

end Ghpulse.Events
