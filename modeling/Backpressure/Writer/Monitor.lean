import Backpressure.Buffer.Monitor
import Backpressure.Channel.Monitor
import Backpressure.Writer.Basic

/-!
# Writers under many threads

The calls that threads make on a shared writer, its pump, and the periodic trigger of its buffer.
All of them are made of the steps of the channel and of the buffer; a close strings a close of the
channel, a wait for the pump and a shutdown of the buffer together under the lock on the pump.
-/

namespace Backpressure.Writer

variable {α : Type}

/-- What a caller can ask of a writer. -/
inductive Request (α : Type) where
  /-- Writes an item, however long it takes. -/
  | write (item : α)
  /-- Writes an item, and gives up after some time. -/
  | writeTimeout (item : α) (timeout : Duration)
  /-- Closes the writer once everything is delivered. -/
  | close
  /-- Uses the channel directly. -/
  | channel (request : Channel.Request α)
  /-- Uses the buffer directly. -/
  | buffer (request : Buffer.Request α)
  /-- Looks at the whole writer. -/
  | inspect

/-- What a call on the channel or on the buffer is for. -/
inductive Task where
  /-- It is made for its own sake. -/
  | own
  /-- It is a part of closing the writer. -/
  | close
  /-- It moves items from the channel to the buffer. -/
  | pump
  deriving DecidableEq, Repr

/-- Where a thread stands in its call. -/
inductive Position (α : Type) where
  /-- It is in a call on the channel. -/
  | channel (task : Task) (position : Channel.Position α)
  /-- It is in a call on the buffer, or in the periodic trigger. -/
  | buffer (task : Task) (position : Buffer.Position α)
  /-- It is about to take the lock on the pump. -/
  | lock
  /-- It holds the lock and waits for the end of the pump. -/
  | join
  /-- It holds the lock and is about to give it back, with the outcome of the last flush. -/
  | release (flush : Flush)
  /-- The pump has come to the end of the channel. -/
  | drained
  /-- It is about to look at the writer. -/
  | inspect

/-- What a call returns. -/
inductive Reply (α : Type) where
  | channel (reply : Channel.Reply α)
  | buffer (reply : Buffer.Reply α)
  | closed (flush : Flush)
  | snapshot (writer : Writer α)

/-- What threads sleep on. -/
inductive Condition where
  | channel (condition : Channel.Condition)
  | buffer (condition : Buffer.Condition)
  deriving DecidableEq, Repr

/-- What a step records. -/
inductive Note (α : Type) where
  | channel (note : Channel.Note α)
  | buffer (note : Buffer.Note α)
  /-- The pump ended. -/
  | drained
  deriving DecidableEq, Repr

namespace Note

/-- The log line of a note, if it has one. -/
def log? : Note α → Option LogLine
  | .channel note => note.log?
  | .buffer note => note.log?
  | .drained => some ⟨.debug, "flowgate::writer", "writer channel drained"⟩

/-- The batch that the sink was called with. -/
def batch? : Note α → Option (List α)
  | .buffer note => note.batch?
  | _ => none

end Note

/-- The place at which a call starts. -/
def start (request : Request α) (now : Instant) : Position α :=
  match request with
  | .write item => .channel .own (Channel.start (.push item) now)
  | .writeTimeout item timeout => .channel .own (Channel.start (.pushTimeout item timeout) now)
  | .close => .channel .close (Channel.start .close now)
  | .channel request => .channel .own (Channel.start request now)
  | .buffer request => .buffer .own (Buffer.start request now)
  | .inspect => .inspect

/-- A step of a thread that uses a writer. -/
abbrev Step (α : Type) := Move (Writer α) (Position α) (Reply α) Condition (Note α)

/-- How a thread goes on after a call on the channel. The pump takes an item along to the buffer,
and ends where there are no more. -/
def afterChannel (task : Task) (reply : Channel.Reply α) :
    Outcome (Position α) (Reply α) Condition :=
  match task, reply with
  | .own, reply => .reply (.channel reply)
  | .close, _ => .proceed .lock
  | .pump, .polled (.ok item) => .proceed (.buffer .pump (.append item))
  | .pump, _ => .proceed .drained

/-- How a thread goes on after a call on the buffer. The pump comes back for the next item. -/
def afterBuffer (task : Task) (reply : Buffer.Reply α) :
    Outcome (Position α) (Reply α) Condition :=
  match task, reply with
  | .own, reply => .reply (.buffer reply)
  | .close, .flushed (.ok flush) => .proceed (.release flush)
  | .close, _ => .proceed (.release .joined)
  | .pump, _ => .proceed (.channel .pump (.poll none))

/-- A step in a call on the channel. -/
def stepChannel (w : Writer α) (now : Instant) (task : Task) (position : Channel.Position α) :
    Step α :=
  (Channel.step w.channel now position).embed (fun channel => { w with channel })
    (.channel task) .channel .channel (afterChannel task)

/-- A step in a call on the buffer. -/
def stepBuffer (w : Writer α) (now : Instant) (task : Task) (position : Buffer.Position α)
    (input : Buffer.Input) : Option (Step α) :=
  (Buffer.step w.buffer now position input).map fun move =>
    move.embed (fun buffer => { w with buffer }) (.buffer task) .buffer .buffer (afterBuffer task)

/-- A close takes the lock on the pump where it is free. The first one to do so waits for the pump,
and any other goes straight on to the buffer. -/
def stepLock (w : Writer α) : Option (Step α) :=
  if w.locked then none
  else
    some (.proceed { w with locked := true, claimed := true }
      (if w.claimed then .buffer .close .stop else .join))

/-- One step of a call on a writer, of its pump, or of the periodic trigger of its buffer. -/
def step (w : Writer α) (now : Instant) (position : Position α) (input : Buffer.Input) :
    Option (Step α) :=
  match position with
  | .channel task position => some (stepChannel w now task position)
  | .buffer task position => stepBuffer w now task position input
  | .lock => stepLock w
  | .join => if w.pumpEnded then some (.proceed w (.buffer .close .stop)) else none
  | .release flush => some (.reply { w with locked := false } (.closed flush))
  | .drained =>
    some { state := { w with pumpEnded := true }, outcome := .exit, signals := [],
           notes := [.drained] }
  | .inspect => some (.reply w (.snapshot w))

/-- A writer that threads share. -/
abbrev monitor (α : Type) : Monitor where
  State := Writer α
  Request := Request α
  Position := Position α
  Reply := Reply α
  Condition := Condition
  Input := Buffer.Input
  Note := Note α
  decEqCondition := inferInstance
  start := start
  step := step

/-- A new writer with the threads of its own: the periodic trigger of the buffer, and the pump. -/
def system (w : Writer α) (now : Instant) : System (monitor α) :=
  .initial w now [.buffer .own .launch, .channel .pump (.poll none)]

end Backpressure.Writer
