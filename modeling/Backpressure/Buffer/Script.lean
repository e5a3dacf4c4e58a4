import Backpressure.Buffer.Monitor
import Backpressure.Simulation.Custody

/-!
# Scripts on a buffer

The operations that a scripted thread carries out on a buffer and its sink, and the surroundings of
a buffer: a scripted sink, the times at which the periodic trigger goes off, and where the threads
find the buffer.
-/

namespace Backpressure.Buffer

variable {α : Type}

/-- The outside of a buffer. -/
structure Outside where
  /-- What the sink does. -/
  sink : SinkScript
  /-- The time between ticks. -/
  interval : Duration
  /-- The moment of the next tick, if it is in range. -/
  nextTick : Deadline
  /-- Where the buffer stands, or the object that it belongs to. -/
  custody : Custody := {}

namespace Outside

/-- The moment of the tick after one that was noticed at a moment. Ticks come no closer together
than timers are late. -/
def tickAfter (now : Instant) (interval : Duration) : Deadline :=
  now.add? (.ofNanos (max interval.nanos World.lateness.nanos))

/-- The outside of a buffer that begins at a moment. -/
def begin (now : Instant) (interval : Duration) (behaviours : List SinkBehaviour) : Outside :=
  { sink := { behaviours, permits := 0 }, interval, nextTick := tickAfter now interval }

/-- What a thread's next step is given. A tick that nobody waited for is kept, but ticks do not
pile up: the next one follows a whole interval after the last was noticed. -/
def offer (o : Outside) (now : Instant) : Position α → Option (Input × Outside)
  | .deliver _ _ => o.sink.respond.map fun (outcome, sink) => (.outcome outcome, { o with sink })
  | .select =>
    if o.nextTick.reached now then
      some (.tick, { o with nextTick := tickAfter now o.interval })
    else some (.stop, o)
  | _ => some (.nothing, o)

/-- The moment of the next tick, for the thread that waits for it. -/
def due (o : Outside) : Position α → Deadline
  | .select => o.nextTick
  | _ => none

/-- The outside with more permits for the sink. -/
def release (o : Outside) (permits : Nat) : Outside := { o with sink := o.sink.release permits }

end Outside

/-- The surroundings of a buffer. -/
abbrev surroundings (α : Type) : Surroundings (monitor α) where
  Env := Outside
  offer o now position := o.offer now position
  due o position := o.due position

/-- One operation of a script. Deadlines are given in milliseconds from the start. -/
inductive Operation (α : Type) where
  | add (item : α)
  /-- Adds one item after the other. -/
  | addAll (items : List α)
  | flush
  | flushTimeout (timeout : Duration)
  | flushDeadline (millis : Int)
  | shutdown
  | length
  | isEmpty
  | limit
  | interval
  | stats
  /-- Shows the counts, spread out or on one line. -/
  | describeStats (pretty : Bool)
  /-- Shows the buffer, spread out or on one line. -/
  | describe (pretty : Bool)
  /-- Takes the buffer away from the other threads. -/
  | drop
  /-- Gives the sink so many permits. -/
  | release (permits : Nat)
  /-- Looks at the batches that the sink was called with. -/
  | batches
  /-- Waits for the sink to have been called so often. -/
  | waitCalls (count : Nat)
  /-- Waits for so many batches to have been delivered or to have failed. -/
  | waitCompleted (count : Nat)

/-- What an operation comes to. -/
inductive Answer (α : Type) where
  | done
  | flushed (flush : Flush)
  | flushedInTime (result : Except FlushTimeoutError Flush)
  | truth (value : Bool)
  | count (number : Nat)
  | duration (duration : Duration)
  | stats (buffer : Buffer α)
  | batches (batches : List (List α))
  | text (text : String)

/-- The text of something shown, spread out or on one line. -/
def textOf (pretty : Bool) (shown : Text.Shown) : Answer α :=
  .text (if pretty then shown.pretty else shown.line)

/-- What a flush without a deadline came to. Such a flush never gives up. -/
def untimed (result : Except FlushTimeoutError Flush) : Flush := result.toOption.getD .joined

/-- The answer of an operation that is a single call, from its reply. -/
def answerOf (operation : Operation α) (reply : Reply α) : Answer α :=
  match operation, reply with
  | _, .added => .done
  | .flushTimeout _, .flushed result | .flushDeadline _, .flushed result => .flushedInTime result
  | _, .flushed result => .flushed (untimed result)
  | .length, .snapshot buffer => .count buffer.length
  | .isEmpty, .snapshot buffer => .truth buffer.isEmpty
  | .limit, .snapshot buffer => .count buffer.limit
  | .interval, .snapshot buffer => .duration buffer.interval
  | .describeStats pretty, .snapshot buffer => textOf pretty buffer.shownStats
  | .describe pretty, .snapshot buffer => textOf pretty buffer.shown
  | _, .snapshot buffer => .stats buffer

/-- The call of an operation that is a single call. -/
def callOf (operation : Operation α) (now : Instant) : Request α :=
  match operation with
  | .add item => .add item
  | .flush => .flush
  | .flushTimeout timeout => .flushTimeout timeout
  | .flushDeadline millis => .flushDeadline (now.shift millis)
  | .shutdown => .shutdown
  | _ => .inspect

/-- The next call of an operation on the buffer, or its answer, after the replies so far, latest
first. -/
def calls (operation : Operation α) (now : Instant) (replies : List (Reply α)) :
    Request α ⊕ Answer α :=
  match operation with
  | .addAll items =>
    match items[replies.length]? with
    | some item => .inl (.add item)
    | none => .inr .done
  | _ =>
    match replies with
    | reply :: _ => .inr (answerOf operation reply)
    | [] => .inl (callOf operation now)

/-- What an operation on the sink can see. -/
structure Scene (α : Type) where
  /-- The present moment. -/
  now : Instant
  /-- When the operation began. -/
  begun : Instant
  /-- The buffer. -/
  buffer : Buffer α
  /-- The batches that the sink was called with so far, in order. -/
  batches : Unit → List (List α)
  /-- The outside. -/
  outside : Outside

/-- How long an operation waits for the sink. -/
def patience : Duration := .ofSeconds 3

/-- A wait for a count to come up to a number. -/
def Scene.await (scene : Scene α) (wanted count : Nat) :
    Turn (Request α) Outside (Answer α) :=
  .await (wanted ≤ count) (scene.begun.add? patience) scene.now (.count count) scene.outside

/-- How an operation on the sink goes on; none for one on the buffer. -/
def turnOnSink? (operation : Operation α) (scene : Scene α) :
    Option (Turn (Request α) Outside (Answer α)) :=
  match operation with
  | .release permits => some (.finish .done (scene.outside.release permits))
  | .batches => some (.finish (.batches (scene.batches ())) scene.outside)
  | .waitCalls count => some (scene.await count (scene.batches ()).length)
  | .waitCompleted count => some (scene.await count scene.buffer.tally.batches)
  | _ => none

/-- The batches that a world's sink was called with so far, in order. -/
def batchesIn (w : World (monitor α) (surroundings α)) : List (List α) :=
  w.system.notes.filterMap Note.batch?

/-- How an operation goes on in a world, after the replies so far, latest first. -/
def plan (operation : Operation α) (begun : Instant) (w : World (monitor α) (surroundings α))
    (replies : List (Reply α)) : Turn (Request α) Outside (Answer α) :=
  let outside : Outside := w.env
  let put (custody : Custody) : Outside := { outside with custody }
  let scene : Scene α :=
    { now := w.system.now, begun, buffer := w.system.state, batches := fun _ => batchesIn w, outside }
  match operation with
  | .drop => outside.custody.drop put .shutdown .done replies
  | _ =>
    (turnOnSink? operation scene).getD
      (outside.custody.use put .shutdown (calls operation w.system.now) replies)

/-- Scripts on a buffer. -/
abbrev stage (α : Type) : Stage where
  monitor := monitor α
  surroundings := surroundings α
  Operation := Operation α
  Answer := Answer α
  plan := plan

/-- A session around a new buffer, with what its sink will do. -/
def session (buffer : Buffer α) (behaviours : List SinkBehaviour) : Session (stage α) :=
  .start (buffer.system .midrange) (.begin .midrange buffer.interval behaviours)

/-- The batches that the sink was called with so far, in order. -/
def batches (s : Session (stage α)) : List (List α) := batchesIn s.world

/-- Is the buffer still where the threads find it? -/
def isKept (s : Session (stage α)) : Bool :=
  let outside : Outside := s.world.env
  outside.custody.kept

end Backpressure.Buffer
