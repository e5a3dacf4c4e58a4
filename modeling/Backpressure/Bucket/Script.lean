import Backpressure.Bucket.Monitor
import Backpressure.Simulation.Session

/-!
# Scripts on a token bucket

The operations that a scripted thread carries out on a token bucket and its clock, and the clocks
that a bucket can read: one that shows real time, and one that is set by hand.
-/

namespace Backpressure.Bucket

/-- A clock. -/
inductive Clock where
  /-- It shows real time. -/
  | real
  /-- It shows this until it is set again. -/
  | manual (reading : Instant)

namespace Clock

/-- What the clock shows at a moment. -/
def read (clock : Clock) (now : Instant) : Instant :=
  match clock with
  | .real => now
  | .manual reading => reading

/-- A clock set by hand is set forward, where its range allows. -/
def advance (clock : Clock) (duration : Duration) : Clock :=
  match clock with
  | .real => .real
  | .manual reading => .manual ((reading.add? duration).getD reading)

/-- A clock set by hand is set back. -/
def rewind (clock : Clock) (duration : Duration) : Clock :=
  match clock with
  | .real => .real
  | .manual reading => .manual (reading.back duration)

end Clock

/-- The surroundings of a token bucket. -/
abbrev surroundings : Surroundings monitor where
  Env := Clock
  offer clock now _ := some (clock.read now, clock)
  due _ _ := none

/-- One operation of a script. Deadlines are given in milliseconds from the start. -/
inductive Operation where
  | tryAcquire
  /-- Tries a number of times. -/
  | tryAcquires (times : Nat)
  /-- Takes a number of tokens, one after the other. -/
  | acquire (times : Nat)
  | acquireTimeout (timeout : Duration)
  | acquireDeadline (millis : Int)
  | available
  | threshold
  | period
  /-- Shows the bucket on one line. -/
  | describe
  /-- Sets the clock forward. -/
  | advance (duration : Duration)
  /-- Sets the clock back. -/
  | rewind (duration : Duration)
  /-- Has so much real time passed? -/
  | elapsed (atLeast : Duration)

/-- What an operation comes to. -/
inductive Answer where
  | done
  | truth (value : Bool)
  | truths (values : List Bool)
  | count (number : Nat)
  | duration (duration : Duration)
  | text (text : String)

/-- Was a token taken? -/
def Reply.taken? : Reply → Option Bool
  | .acquired taken => some taken
  | _ => none

/-- The answer of an operation that is a single call, from its reply. -/
def answerOf (operation : Operation) (reply : Reply) : Answer :=
  match operation, reply with
  | _, .acquired taken => .truth taken
  | _, .available tokens => .count tokens
  | .threshold, .snapshot bucket => .count bucket.threshold
  | .period, .snapshot bucket => .duration bucket.period
  | _, .snapshot bucket => .text bucket.shown.line

/-- The call of an operation that is a single call. -/
def callOf (operation : Operation) (now : Instant) : Request :=
  match operation with
  | .tryAcquire => .tryAcquire
  | .acquireTimeout timeout => .acquireTimeout timeout
  | .acquireDeadline millis => .acquireDeadline (now.shift millis)
  | .available => .available
  | _ => .inspect

/-- The next call of an operation on the bucket, or its answer, after the replies so far, latest
first. -/
def calls (operation : Operation) (now : Instant) (replies : List Reply) : Request ⊕ Answer :=
  match operation with
  | .tryAcquires times =>
    if replies.length < times then .inl .tryAcquire
    else .inr (.truths (replies.filterMap Reply.taken?).reverse)
  | .acquire times => if replies.length < times then .inl .acquire else .inr .done
  | _ =>
    match replies with
    | reply :: _ => .inr (answerOf operation reply)
    | [] => .inl (callOf operation now)

/-- How an operation goes on in a world, after the replies so far, latest first. -/
def plan (operation : Operation) (_ : Instant) (w : World monitor surroundings)
    (replies : List Reply) : Turn Request Clock Answer :=
  let clock : Clock := w.env
  match operation with
  | .advance duration => .finish .done (clock.advance duration)
  | .rewind duration => .finish .done (clock.rewind duration)
  | .elapsed atLeast =>
    .finish (.truth (atLeast.nanos ≤ (w.system.now.since .midrange).nanos)) clock
  | _ => .ofCalls clock (calls operation w.system.now replies)

/-- Scripts on a token bucket. -/
abbrev stage : Stage where
  monitor := monitor
  surroundings := surroundings
  Operation := Operation
  Answer := Answer
  plan := plan

/-- A session around a token bucket that reads a clock. -/
def session (bucket : Bucket) (clock : Clock) : Session stage :=
  .start (.initial bucket .midrange []) clock

end Backpressure.Bucket
