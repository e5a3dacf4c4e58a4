import Backpressure.Buffer.Script
import Backpressure.Channel.Script
import Backpressure.Writer.Monitor

/-!
# Scripts on a writer

The operations that a scripted thread carries out on a writer, among them those on its channel, on
its buffer and on its sink. The surroundings are those of the buffer.
-/

namespace Backpressure.Writer

variable {α : Type}

/-- The surroundings of a writer. -/
abbrev surroundings (α : Type) : Surroundings (monitor α) where
  Env := Buffer.Outside
  offer o now position :=
    match position with
    | .buffer _ position => o.offer now position
    | _ => some (.nothing, o)
  due o position :=
    match position with
    | .buffer _ position => o.due position
    | _ => none

/-- One operation of a script. -/
inductive Operation (α : Type) where
  | write (item : α)
  | writeTimeout (item : α) (timeout : Duration)
  /-- Writes one item after the other. -/
  | writeAll (items : List α)
  | close
  | channel (operation : Channel.Operation α)
  | buffer (operation : Buffer.Operation α)
  /-- Shows the writer, spread out or on one line. -/
  | describe (pretty : Bool)
  /-- Takes the writer away from the other threads. -/
  | drop

/-- What an operation comes to. -/
inductive Answer (α : Type) where
  | channel (answer : Channel.Answer α)
  | buffer (answer : Buffer.Answer α)
  | flushed (flush : Flush)
  | text (text : String)

/-- What the channel replied. -/
def Reply.channel? : Reply α → Option (Channel.Reply α)
  | .channel reply => some reply
  | _ => none

/-- What the buffer replied. -/
def Reply.buffer? : Reply α → Option (Buffer.Reply α)
  | .buffer reply => some reply
  | _ => none

/-- A push as a write. -/
def asWrite : Channel.Request α → Request α
  | .push item => .write item
  | .pushTimeout item timeout => .writeTimeout item timeout
  | request => .channel request

/-- The next call of an operation on the channel, or its answer. -/
def callsOnChannel (ask : Channel.Request α → Request α) (operation : Channel.Operation α)
    (now : Instant) (replies : List (Reply α)) : Request α ⊕ Answer α :=
  match Channel.calls operation now (replies.filterMap Reply.channel?) with
  | .inl request => .inl (ask request)
  | .inr answer => .inr (.channel answer)

/-- The next call of an operation on the buffer, or its answer. -/
def callsOnBuffer (operation : Buffer.Operation α) (now : Instant) (replies : List (Reply α)) :
    Request α ⊕ Answer α :=
  match Buffer.calls operation now (replies.filterMap Reply.buffer?) with
  | .inl request => .inl (.buffer request)
  | .inr answer => .inr (.buffer answer)

/-- The next call of an operation on the writer, or its answer, after the replies so far, latest
first. -/
def calls (operation : Operation α) (now : Instant) (replies : List (Reply α)) :
    Request α ⊕ Answer α :=
  match operation with
  | .write item => callsOnChannel asWrite (.push item) now replies
  | .writeTimeout item timeout => callsOnChannel asWrite (.pushTimeout item timeout) now replies
  | .writeAll items => callsOnChannel asWrite (.pushAll items) now replies
  | .channel operation => callsOnChannel .channel operation now replies
  | .buffer operation => callsOnBuffer operation now replies
  | .close =>
    match replies with
    | .closed flush :: _ => .inr (.flushed flush)
    | _ => .inl .close
  | .describe pretty =>
    match replies with
    | .snapshot writer :: _ =>
      .inr (.text (if pretty then writer.shown.pretty else writer.shown.line))
    | _ => .inl .inspect
  | .drop => .inr (.buffer .done)

/-- The batches that a world's sink was called with so far, in order. -/
def batchesIn (w : World (monitor α) (surroundings α)) : List (List α) :=
  w.system.notes.filterMap Note.batch?

/-- How an operation on the sink goes on; none for one on the writer. -/
def turnOnSink? (operation : Operation α) (begun : Instant)
    (w : World (monitor α) (surroundings α)) :
    Option (Turn (Request α) Buffer.Outside (Answer α)) :=
  match operation with
  | .buffer operation =>
    let writer : Writer α := w.system.state
    let scene : Buffer.Scene α :=
      { now := w.system.now, begun, buffer := writer.buffer, batches := fun _ => batchesIn w
        outside := w.env }
    (Buffer.turnOnSink? operation scene).map (·.map .buffer .buffer)
  | _ => none

/-- How an operation goes on in a world, after the replies so far, latest first. -/
def plan (operation : Operation α) (begun : Instant) (w : World (monitor α) (surroundings α))
    (replies : List (Reply α)) : Turn (Request α) Buffer.Outside (Answer α) :=
  let outside : Buffer.Outside := w.env
  let put (custody : Custody) : Buffer.Outside := { outside with custody }
  match operation with
  | .drop => outside.custody.drop put .close (.buffer .done) replies
  | _ =>
    (turnOnSink? operation begun w).getD
      (outside.custody.use put .close (calls operation w.system.now) replies)

/-- Scripts on a writer. -/
abbrev stage (α : Type) : Stage where
  monitor := monitor α
  surroundings := surroundings α
  Operation := Operation α
  Answer := Answer α
  plan := plan

/-- A session around a new writer, with what its sink will do. -/
def session (writer : Writer α) (behaviours : List SinkBehaviour) : Session (stage α) :=
  .start (writer.system .midrange) (.begin .midrange writer.buffer.interval behaviours)

/-- The batches that the sink was called with so far, in order. -/
def batches (s : Session (stage α)) : List (List α) := batchesIn s.world

/-- Is the writer still where the threads find it? -/
def isKept (s : Session (stage α)) : Bool :=
  let outside : Buffer.Outside := s.world.env
  outside.custody.kept

end Backpressure.Writer
