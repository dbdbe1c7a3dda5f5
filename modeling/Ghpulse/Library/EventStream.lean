import Ghpulse.Library.PyStr

/-!
# Event streams

How an `EventSource` reads a stream: it takes the decoded text character by character, ends a line at a line
feed, at a carriage return or at both, and dispatches a message at an empty line. Since the reader is a fold
over the characters, it does not matter in what pieces the text arrives.

The reconnection time, and a byte order mark before the first line, are left out.
-/

open Python

namespace EventStream

def LF : CodePoint := cp '\n'

def CR : CodePoint := cp '\r'

/-- A text within one line. -/
def Unbroken (s : Str) : Prop := LF ∉ s ∧ CR ∉ s

instance (s : Str) : Decidable (Unbroken s) := inferInstanceAs (Decidable (_ ∧ _))

/-- Two texts without a line break have none together. -/
theorem Unbroken.append {s t : Str} (hs : Unbroken s) (ht : Unbroken t) : Unbroken (s ++ t) :=
  ⟨fun h => (List.mem_append.mp h).elim hs.1 ht.1, fun h => (List.mem_append.mp h).elim hs.2 ht.2⟩

/-- A message that is dispatched. -/
structure Message where
  type : Str
  data : Str
  lastEventId : Str
  deriving DecidableEq

/-- The reader: the line so far, the buffers, and the messages that it has dispatched. -/
structure Reader where
  line : Str
  /-- The last character was a carriage return. -/
  afterCr : Bool
  data : Str
  eventType : Str
  lastEventId : Str
  messages : List Message
  deriving DecidableEq

namespace Reader

/-- A new connection. -/
def initial : Reader := ⟨[], false, [], [], [], []⟩

/-- An empty line: a message, unless there is no data. -/
def dispatch (r : Reader) : Reader :=
  if r.data = [] then { r with eventType := [] }
  else
    { r with
      data := []
      eventType := []
      messages := r.messages ++
        -- the line feed after the last line of the data is not part of it
        [⟨if r.eventType = [] then lit "message" else r.eventType, r.data.dropLast, r.lastEventId⟩] }

/-- A field with its value. -/
def field (r : Reader) (name value : Str) : Reader :=
  if name = lit "event" then { r with eventType := value }
  else if name = lit "data" then { r with data := r.data ++ value ++ [LF] }
  else if name = lit "id" then
    if value.any fun c => decide (c.val = 0) then r else { r with lastEventId := value }
  else r

/-- A value without the space that may stand before it. -/
def unspaced : Str → Str
  | [] => []
  | c :: value => if c = cp ' ' then value else c :: value

/-- A line that is complete. -/
def endLine (r : Reader) : Reader :=
  let line := r.line
  let r := { r with line := [] }
  if line = [] then r.dispatch
  else if line.head? = some (cp ':') then r
  else r.field (cut (cp ':') line).1 (unspaced (cut (cp ':') line).2)

/-- One character. -/
def feed (r : Reader) (c : CodePoint) : Reader :=
  if c = LF then if r.afterCr then { r with afterCr := false } else r.endLine
  else if c = CR then { r.endLine with afterCr := true }
  else { r with line := r.line ++ [c], afterCr := false }

/-- A piece of the text. -/
def read (r : Reader) (s : Str) : Reader := s.foldl feed r

/-- A text is read piece by piece. -/
theorem read_append (r : Reader) (s t : Str) : r.read (s ++ t) = (r.read s).read t := List.foldl_append

/-- The pieces in which a text arrives make no difference. -/
theorem read_flatten (r : Reader) (pieces : List Str) : pieces.foldl read r = r.read pieces.flatten := by
  induction pieces generalizing r with
  | nil => rfl
  | cons piece pieces ih => rw [List.foldl_cons, ih, List.flatten_cons, read_append]

/-! ## Messages stay

The reader only adds to what it has dispatched.
-/

/-- A dispatch keeps the messages. -/
theorem messages_dispatch (r : Reader) : r.messages <+: r.dispatch.messages := by
  unfold dispatch
  by_cases hdata : r.data = []
  · rw [if_pos hdata]
  · rw [if_neg hdata]
    exact List.prefix_append _ _

/-- So does a field. -/
theorem messages_field (r : Reader) (name value : Str) : (r.field name value).messages = r.messages := by
  unfold field
  split_ifs <;> rfl

/-- So does the end of a line. -/
theorem messages_endLine (r : Reader) : r.messages <+: r.endLine.messages := by
  unfold endLine
  dsimp only
  split_ifs
  · exact messages_dispatch { r with line := [] }
  · exact List.prefix_rfl
  · rw [messages_field]

/-- So does a character. -/
theorem messages_feed (r : Reader) (c : CodePoint) : r.messages <+: (r.feed c).messages := by
  unfold feed
  split_ifs
  · exact List.prefix_rfl
  · exact messages_endLine r
  · exact messages_endLine r
  · exact List.prefix_rfl

/-- What has been dispatched stays. -/
theorem messages_read (r : Reader) (s : Str) : r.messages <+: (r.read s).messages := by
  induction s generalizing r with
  | nil => exact List.prefix_rfl
  | cons c s ih => exact (messages_feed r c).trans (ih _)

/-! ## Lines

A text without a line break is collected, whatever state the reader is in.
-/

/-- Characters of a line are collected. -/
theorem read_unbroken {r : Reader} (hcr : r.afterCr = false) {s : Str} (h : Unbroken s) :
    r.read s = { r with line := r.line ++ s } := by
  induction s generalizing r with
  | nil =>
    rw [List.append_nil]
    rfl
  | cons c s ih =>
    have hlf : c ≠ LF := fun hc => h.1 (hc ▸ List.mem_cons_self)
    have hcr' : c ≠ CR := fun hc => h.2 (hc ▸ List.mem_cons_self)
    have hfeed : r.feed c = { r with line := r.line ++ [c] } := by
      unfold feed
      rw [if_neg hlf, if_neg hcr', hcr]
    have hrest : Unbroken s :=
      ⟨fun hc => h.1 (List.mem_cons_of_mem _ hc), fun hc => h.2 (List.mem_cons_of_mem _ hc)⟩
    change (r.feed c).read s = _
    rw [hfeed, ih (r := { r with line := r.line ++ [c] }) hcr hrest, List.append_assoc]
    rfl

/-- A line that ends with a line feed. -/
theorem read_line {r : Reader} (hcr : r.afterCr = false) {s : Str} (h : Unbroken s) (rest : Str) :
    r.read (s ++ LF :: rest) = ({ r with line := r.line ++ s }.endLine).read rest := by
  have hfeed : ({ r with line := r.line ++ s } : Reader).feed LF =
      { r with line := r.line ++ s }.endLine := by
    unfold feed
    rw [if_pos rfl, hcr]
    rfl
  rw [read_append, read_unbroken hcr h]
  change (({ r with line := r.line ++ s } : Reader).feed LF).read rest = _
  rw [hfeed]

/-! ## Frames

Read from an idle reader, a frame leaves an idle reader with one message more.
-/

/-- Nothing has begun. -/
structure Idle (r : Reader) : Prop where
  line : r.line = []
  afterCr : r.afterCr = false
  data : r.data = []
  eventType : r.eventType = []

/-- A reader starts idle. -/
theorem idle_initial : initial.Idle := ⟨rfl, rfl, rfl, rfl⟩

/-- A line that begins with a colon is a comment. -/
theorem read_comment {r : Reader} (h : r.Idle) {s : Str} (hs : Unbroken s) :
    r.read ([cp ':'] ++ s ++ [LF, LF]) = r := by
  obtain ⟨line, afterCr, data, eventType, lastEventId, messages⟩ := r
  obtain ⟨rfl, rfl, rfl, rfl⟩ := h
  have hcolon : Unbroken [cp ':'] := by decide
  rw [read_line rfl (hcolon.append hs)]
  rfl

/-- A line `name: value`. -/
theorem read_field {r : Reader} (hline : r.line = []) (hcr : r.afterCr = false) {name value : Str}
    (hne : name ≠ []) (hcolon : cp ':' ∉ name) (hname : Unbroken name) (hvalue : Unbroken value)
    (rest : Str) :
    r.read (name ++ lit ": " ++ value ++ LF :: rest) = (r.field name value).read rest := by
  have hunbroken : Unbroken (name ++ lit ": " ++ value) := (hname.append (by decide)).append hvalue
  have hcut : cut (cp ':') (name ++ lit ": " ++ value) = (name, cp ' ' :: value) := by
    rw [List.append_assoc]
    exact cut_append hcolon (cp ' ' :: value)
  have hhead : (name ++ lit ": " ++ value).head? ≠ some (cp ':') := by
    cases name with
    | nil => exact absurd rfl hne
    | cons c name => exact fun h => hcolon (Option.some.inj h ▸ List.mem_cons_self)
  have hempty : name ++ lit ": " ++ value ≠ [] := by simp [hne]
  rw [read_line hcr hunbroken]
  unfold endLine
  dsimp only
  rw [hline, List.nil_append, if_neg hempty, if_neg hhead, hcut]
  dsimp only [unspaced]
  rw [if_pos rfl, ← hline]

/-- A message with an event type and one line of data is dispatched as it was written. -/
theorem read_frame {r : Reader} (h : r.Idle) {event data : Str} (hne : event ≠ []) (hevent : Unbroken event)
    (hdata : Unbroken data) :
    r.read (lit "event" ++ lit ": " ++ event ++ LF :: (lit "data" ++ lit ": " ++ data ++ LF :: [LF])) =
      { r with messages := r.messages ++ [⟨event, data, r.lastEventId⟩] } := by
  obtain ⟨line, afterCr, buffer, eventType, lastEventId, messages⟩ := r
  obtain ⟨rfl, rfl, rfl, rfl⟩ := h
  rw [read_field rfl rfl (by decide) (by decide) (by decide) hevent,
    read_field rfl rfl (by decide) (by decide) (by decide) hdata]
  have hbuffer : data ++ [LF] ≠ [] := by simp
  have hdispatch : (⟨[], false, data ++ [LF], event, lastEventId, messages⟩ : Reader).dispatch =
      ⟨[], false, [], [], lastEventId, messages ++ [⟨event, data, lastEventId⟩]⟩ := by
    unfold dispatch
    rw [if_neg hbuffer, if_neg hne, List.dropLast_concat]
  exact hdispatch

end Reader

end EventStream
