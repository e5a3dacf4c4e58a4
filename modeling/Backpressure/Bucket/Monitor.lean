import Backpressure.Bucket.Basic
import Backpressure.Log
import Backpressure.Monitor

/-!
# Token buckets under many threads

The calls that threads make on a shared token bucket. Every step reads the clock first, and that
reading may begin a new window. A call that waits for a token sleeps until the window should end
or somebody else begins a new one, and then looks again; its deadline counts in real time.
-/

namespace Backpressure.Bucket

/-- What a caller can ask of a token bucket. -/
inductive Request where
  /-- Takes a token without waiting. -/
  | tryAcquire
  /-- Takes a token, however long it takes. -/
  | acquire
  /-- Takes a token, and gives up after some time. -/
  | acquireTimeout (timeout : Duration)
  /-- Takes a token, and gives up at a moment. -/
  | acquireDeadline (deadline : Instant)
  /-- Counts the tokens that could be taken now. -/
  | available
  /-- Looks at the whole bucket, without reading the clock. -/
  | inspect
  deriving DecidableEq, Repr

/-- Where a thread stands in its call. -/
inductive Position where
  | tryAcquire
  | available
  /-- It is about to look for a token for the first time. -/
  | acquire (deadline : Deadline)
  /-- It has waited in the window that began at a checkpoint, and is about to look again. -/
  | resume (deadline : Deadline) (checkpoint : Instant)
  | inspect
  deriving DecidableEq, Repr

/-- What a call returns. -/
inductive Reply where
  | acquired (taken : Bool)
  | available (tokens : Nat)
  | snapshot (bucket : Bucket)

/-- What threads sleep on: the beginning of a new window. -/
inductive Condition where
  | refilled
  deriving DecidableEq, Repr

/-- What a step records. -/
inductive Note where
  /-- A reading began a new window of so many tokens, when some were left of the old one. -/
  | refilled (reading : Instant) (threshold left : Nat)
  /-- A token was taken at a reading. -/
  | admitted (reading : Instant)
  /-- No token was there at a reading. -/
  | refused (reading : Instant)
  /-- A wait was given up. -/
  | gaveUp
  /-- A wait began. -/
  | waiting (untilRefill : Option Duration)
  deriving DecidableEq, Repr

namespace Note

/-- The log line of a note, if it has one. -/
def log? : Note → Option LogLine
  | .refilled _ threshold left =>
    some ⟨.trace, "flowgate::rate_limit",
      "token bucket refilled to " ++ toString threshold ++ " (" ++ toString left ++
        " left from previous window)"⟩
  | .gaveUp => some ⟨.debug, "flowgate::rate_limit", "gave up waiting for token bucket permit"⟩
  | .waiting untilRefill =>
    let time := match untilRefill with
      | some time => "Some(" ++ time.text ++ ")"
      | none => "None"
    some ⟨.trace, "flowgate::rate_limit", "waiting " ++ time ++ " for token bucket refill"⟩
  | .admitted _ | .refused _ => none

end Note

/-- The place at which a call starts. A timeout sets a deadline once, at the start. -/
def start (request : Request) (now : Instant) : Position :=
  match request with
  | .tryAcquire => .tryAcquire
  | .acquire => .acquire none
  | .acquireTimeout timeout => .acquire (.after now timeout)
  | .acquireDeadline deadline => .acquire (some deadline)
  | .available => .available
  | .inspect => .inspect

/-- A step of a thread that uses a token bucket. -/
abbrev Step := Move Bucket Position Reply Condition Note

/-- A step that begins with a reading of the clock: a new window wakes everybody who waits for
one, and then the step goes on with the bucket as it is now. -/
def atReading (b : Bucket) (reading : Instant)
    (rest : Bucket → Bucket × Outcome Position Reply Condition × List Note) : Step :=
  let (state, outcome, notes) := rest (b.refill reading)
  if b.isOver reading then
    { state, outcome, signals := [.all .refilled],
      notes := .refilled reading b.threshold b.tokens :: notes }
  else { state, outcome, signals := [], notes }

/-- An acquisition that does not wait. -/
def stepTryAcquire (b : Bucket) (reading : Instant) : Step :=
  atReading b reading fun b =>
    match b.take? with
    | some b' => (b', .reply (.acquired true), [.admitted reading])
    | none => (b, .reply (.acquired false), [.refused reading])

/-- An acquisition that may wait until a deadline, which counts only where no token is left. -/
def stepAcquire (b : Bucket) (now reading : Instant) (deadline : Deadline) : Step :=
  atReading b reading fun b =>
    match b.take? with
    | some b' => (b', .reply (.acquired true), [.admitted reading])
    | none =>
      if deadline.reached now then (b, .reply (.acquired false), [.gaveUp])
      else
        (b, .sleep .refilled (b.wakeAt reading now deadline) (.resume deadline b.checkpoint),
          [.waiting (b.untilRefill reading)])

/-- One step of a call on a token bucket, with a reading of the clock. -/
def step (b : Bucket) (now : Instant) (position : Position) (reading : Instant) : Step :=
  match position with
  | .tryAcquire => stepTryAcquire b reading
  | .available => atReading b reading fun b => (b, .reply (.available b.tokens), [])
  | .acquire deadline => stepAcquire b now reading deadline
  | .resume deadline _ => stepAcquire b now reading deadline
  | .inspect => .reply b (.snapshot b)

/-- A token bucket that threads share. The surroundings supply the readings of the clock. -/
abbrev monitor : Monitor where
  State := Bucket
  Request := Request
  Position := Position
  Reply := Reply
  Condition := Condition
  Input := Instant
  Note := Note
  decEqCondition := inferInstance
  start := start
  step b now position reading := some (step b now position reading)

end Backpressure.Bucket
