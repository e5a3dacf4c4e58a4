import Backpressure.Buffer.Basic
import Backpressure.Buffer.Sink
import Backpressure.Log
import Backpressure.Monitor

/-!
# Buffers under many threads

The calls that threads make on a shared buffer, and the thread of its periodic trigger. Whoever
flushes first takes the pending items and delivers them without the lock, while later flushes wait
for that delivery and are content with it. An add that fills the buffer flushes it, and looks again
after a delivery that it only waited for.
-/

namespace Backpressure.Buffer

variable {α : Type}

/-- What a caller can ask of a buffer. -/
inductive Request (α : Type) where
  /-- Adds an item, and flushes if enough are pending. -/
  | add (item : α)
  /-- Flushes. -/
  | flush
  /-- Flushes, and waits for another delivery only for some time. -/
  | flushTimeout (timeout : Duration)
  /-- Flushes, and waits for another delivery only until a moment. -/
  | flushDeadline (deadline : Instant)
  /-- Ends the periodic trigger and flushes. -/
  | shutdown
  /-- Looks at the whole buffer. -/
  | inspect

/-- What a flush is for. -/
inductive Errand where
  /-- A caller asked for it, with a deadline or without. -/
  | flush (deadline : Deadline)
  /-- An add found the buffer full. -/
  | add
  /-- The buffer is being shut down. -/
  | shutdown
  /-- The periodic trigger went off. -/
  | tick
  deriving DecidableEq, Repr

/-- The deadline for waiting on another delivery. -/
def Errand.deadline : Errand → Deadline
  | .flush deadline => deadline
  | _ => none

/-- Where a thread stands in its call. -/
inductive Position (α : Type) where
  /-- It is about to add an item under the lock. -/
  | append (item : α)
  /-- It is about to begin a flush under the lock. -/
  | enter (errand : Errand)
  /-- It waits for the delivery that follows this round. -/
  | join (errand : Errand) (round : Nat)
  /-- It has taken a batch and is about to call the sink. -/
  | call (errand : Errand) (batch : List α)
  /-- Its call of the sink is under way. -/
  | deliver (errand : Errand) (batch : List α)
  /-- Its call of the sink has ended, which it is about to record under the lock. -/
  | record (errand : Errand) (size : Nat) (accepted : Bool)
  /-- It is about to look whether the buffer is still full. -/
  | recheck
  /-- It is about to take the lock on the periodic trigger. -/
  | stop
  /-- It holds that lock and waits for the end of the periodic trigger. -/
  | await
  /-- The thread of the periodic trigger is about to begin. -/
  | launch
  /-- The thread of the periodic trigger waits for a tick or for the end. -/
  | select
  /-- It is about to look at the buffer under the lock. -/
  | inspect
  deriving DecidableEq, Repr

/-- What a call returns. -/
inductive Reply (α : Type) where
  | added
  | flushed (result : Except FlushTimeoutError Flush)
  | snapshot (buffer : Buffer α)

/-- What threads sleep on: the end of a delivery. -/
inductive Condition where
  | flushed
  deriving DecidableEq, Repr

/-- What the surroundings supply to a step. -/
inductive Input where
  /-- Nothing. -/
  | nothing
  /-- The end of a sink's call. -/
  | outcome (outcome : SinkOutcome)
  /-- The periodic trigger goes off. -/
  | tick
  /-- The periodic trigger notices that it should stop. -/
  | stop
  deriving DecidableEq, Repr

/-- What a step records. -/
inductive Note (α : Type) where
  /-- An item was added. -/
  | added (item : α)
  /-- A flush took the pending items as a batch. -/
  | taken (errand : Errand) (batch : List α)
  /-- A flush called the sink with its batch. -/
  | called (errand : Errand) (batch : List α)
  /-- The sink's call with a batch ended. -/
  | returned (batch : List α) (outcome : SinkOutcome)
  /-- A delivery was recorded. -/
  | recorded (size : Nat) (accepted : Bool)
  /-- The periodic trigger began. -/
  | started (interval : Duration)
  /-- The periodic trigger ended. -/
  | stopped
  deriving DecidableEq, Repr

namespace Note

/-- What the log says of the end of a sink's call with a batch of some size. -/
def logOfOutcome (size : Nat) (outcome : SinkOutcome) : LogLine :=
  let batch := " batch of " ++ toString size ++ " items"
  match outcome with
  | .accepted => ⟨.debug, "flowgate::flush_buffer", "delivered" ++ batch⟩
  | .refused error =>
    ⟨.error, "flowgate::flush_buffer", "sink failed on" ++ batch ++ "; dropping it: " ++ error⟩
  | .crashed words =>
    ⟨.error, "flowgate::flush_buffer",
      "sink panicked on" ++ batch ++ "; dropping it: " ++ words.getD "unknown panic"⟩

/-- The log line of a note, if it has one. -/
def log? : Note α → Option LogLine
  | .returned batch outcome => some (logOfOutcome batch.length outcome)
  | .started interval =>
    some ⟨.debug, "flowgate::flush_buffer::ticker",
      "periodic flush started every " ++ interval.text⟩
  | .stopped => some ⟨.debug, "flowgate::flush_buffer::ticker", "periodic flush stopped"⟩
  | _ => none

/-- The batch that the sink was called with. -/
def batch? : Note α → Option (List α)
  | .called _ batch => some batch
  | _ => none

end Note

/-- The place at which a call starts. A timeout sets a deadline once, at the start. -/
def start (request : Request α) (now : Instant) : Position α :=
  match request with
  | .add item => .append item
  | .flush => .enter (.flush none)
  | .flushTimeout timeout => .enter (.flush (.after now timeout))
  | .flushDeadline deadline => .enter (.flush (some deadline))
  | .shutdown => .stop
  | .inspect => .inspect

/-- A step of a thread that uses a buffer. -/
abbrev Step (α : Type) := Move (Buffer α) (Position α) (Reply α) Condition (Note α)

/-- How a thread goes on once its flush has come to something. -/
def finish (errand : Errand) (flush : Flush) : Outcome (Position α) (Reply α) Condition :=
  match errand with
  | .flush _ | .shutdown => .reply (.flushed (.ok flush))
  | .add => if flush = .joined then .proceed .recheck else .reply .added
  | .tick => .proceed .select

/-- An add puts its item under the lock, and goes on to flush if enough items are pending. -/
def stepAppend (b : Buffer α) (item : α) : Step α :=
  let b' := b.append item
  { state := b'
    outcome := if b'.isDue then .proceed (.enter .add) else .reply .added
    signals := []
    notes := [.added item] }

/-- A flush waits for another delivery, unless its deadline has come. -/
def wait (b : Buffer α) (now : Instant) (errand : Errand) (round : Nat) : Step α :=
  if errand.deadline.reached now then .reply b (.flushed (.error {}))
  else
    { state := b, outcome := .sleep .flushed errand.deadline (.join errand round),
      signals := [], notes := [] }

/-- A flush begins: it waits for a delivery under way, or takes what is pending. -/
def stepEnter (b : Buffer α) (now : Instant) (errand : Errand) : Step α :=
  if b.flushing then wait b now errand b.round
  else if b.pending.isEmpty then
    { state := b, outcome := finish errand .empty, signals := [], notes := [] }
  else
    { state := b.take, outcome := .proceed (.call errand b.pending), signals := [],
      notes := [.taken errand b.pending] }

/-- A flush that waits looks whether the delivery is over. -/
def stepJoin (b : Buffer α) (now : Instant) (errand : Errand) (round : Nat) : Step α :=
  if b.round = round then wait b now errand round
  else { state := b, outcome := finish errand .joined, signals := [], notes := [] }

/-- The sink is called. -/
def stepCall (b : Buffer α) (errand : Errand) (batch : List α) : Step α :=
  { state := b, outcome := .proceed (.deliver errand batch), signals := [],
    notes := [.called errand batch] }

/-- The sink's call ends. -/
def stepDeliver (b : Buffer α) (errand : Errand) (batch : List α) (outcome : SinkOutcome) :
    Step α :=
  { state := b, outcome := .proceed (.record errand batch.length outcome.isAccepted),
    signals := [], notes := [.returned batch outcome] }

/-- The delivery is recorded, and everybody who waits for it is woken. -/
def stepRecord (b : Buffer α) (errand : Errand) (size : Nat) (accepted : Bool) : Step α :=
  { state := b.complete size accepted, outcome := finish errand (.ofDelivery size accepted),
    signals := [.all .flushed], notes := [.recorded size accepted] }

/-- An add that waited for another delivery looks whether the buffer has filled up since. -/
def stepRecheck (b : Buffer α) : Step α :=
  if b.isDue then .proceed b (.enter .add) else .reply b .added

/-- A shutdown takes the lock on the periodic trigger where it is free, and tells the trigger to
stop if nobody has. -/
def stepStop (b : Buffer α) : Option (Step α) :=
  match b.ticker with
  | .running => some (.proceed { b with ticker := .stopping } .await)
  | .stopped => some (.proceed b (.enter .shutdown))
  | .stopping | .ended => none

/-- A shutdown goes on to flush once the periodic trigger has ended. -/
def stepAwait (b : Buffer α) : Option (Step α) :=
  match b.ticker with
  | .ended => some (.proceed { b with ticker := .stopped } (.enter .shutdown))
  | _ => none

/-- The periodic trigger flushes at a tick, and ends where it has been told to. -/
def stepSelect (b : Buffer α) (input : Input) : Option (Step α) :=
  match input with
  | .tick => some (.proceed b (.enter .tick))
  | .stop =>
    if b.ticker = .stopping then
      some { state := { b with ticker := .ended }, outcome := .exit, signals := [],
             notes := [.stopped] }
    else none
  | _ => none

/-- One step of a call on a buffer, or of its periodic trigger. -/
def step (b : Buffer α) (now : Instant) (position : Position α) (input : Input) :
    Option (Step α) :=
  match position with
  | .append item => some (stepAppend b item)
  | .enter errand => some (stepEnter b now errand)
  | .join errand round => some (stepJoin b now errand round)
  | .call errand batch => some (stepCall b errand batch)
  | .deliver errand batch =>
    match input with
    | .outcome outcome => some (stepDeliver b errand batch outcome)
    | _ => none
  | .record errand size accepted => some (stepRecord b errand size accepted)
  | .recheck => some (stepRecheck b)
  | .stop => stepStop b
  | .await => stepAwait b
  | .launch =>
    some { state := b, outcome := .proceed .select, signals := [], notes := [.started b.interval] }
  | .select => stepSelect b input
  | .inspect => some (.reply b (.snapshot b))

/-- A buffer that threads share. Its periodic trigger is a thread that starts at `launch`. -/
abbrev monitor (α : Type) : Monitor where
  State := Buffer α
  Request := Request α
  Position := Position α
  Reply := Reply α
  Condition := Condition
  Input := Input
  Note := Note α
  decEqCondition := inferInstance
  start := start
  step := step

/-- A new buffer with the thread of its periodic trigger. -/
def system (b : Buffer α) (now : Instant) : System (monitor α) := .initial b now [.launch]

end Backpressure.Buffer
