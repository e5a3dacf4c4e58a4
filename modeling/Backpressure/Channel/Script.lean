import Backpressure.Channel.Monitor
import Backpressure.Simulation.Session

/-!
# Scripts on a channel

The operations that a scripted thread carries out on a channel: single calls, the loops that are
made of them, and the keeping of handles. Handles are numbered from zero in the order in which they
were made; the channel is the same through all of them, and outlives them.
-/

namespace Backpressure.Channel

variable {α : Type}

/-- One operation of a script. Deadlines are given in milliseconds from the start. -/
inductive Operation (α : Type) where
  | push (item : α)
  | pushTimeout (item : α) (timeout : Duration)
  | pushDeadline (item : α) (millis : Int)
  | tryPush (item : α)
  /-- Pushes one item after the other. -/
  | pushAll (items : List α)
  | poll
  | pollTimeout (timeout : Duration)
  | pollDeadline (millis : Int)
  | tryPoll
  /-- Takes what is there. -/
  | drain
  /-- Takes items until the channel ends, or so many at most. -/
  | iterate (most : Option Nat)
  | close
  | reportError (error : String)
  | pollError
  | hasError
  | errorCount
  | droppedErrors
  | length
  | isEmpty
  | isFull
  | isClosed
  | capacity
  /-- Shows the channel, spread out or on one line. -/
  | describe (pretty : Bool)
  /-- Makes another handle from one. -/
  | clone (handle : Nat)
  /-- Gives up a handle. -/
  | drop (handle : Nat)

/-- What an operation comes to. -/
inductive Answer (α : Type) where
  | pushed (result : Except (PushError α) Unit)
  | pushedInTime (result : Except (PushTimeoutError α) Unit)
  | triedPush (result : Except (TryPushError α) Unit)
  | pushedAll (results : List (Except (PushError α) Unit))
  | polled (result : Option α)
  | polledInTime (result : Except PollTimeoutError α)
  | triedPoll (result : Except TryPollError α)
  | drained (items : List α) (stop : TryPollError)
  | items (items : List α)
  | done
  | error (oldest : Option String)
  | truth (value : Bool)
  | count (number : Nat)
  | text (text : String)

/-- What a push without a deadline came to. -/
def Reply.push? : Reply α → Option (Except (PushError α) Unit)
  | .pushed result => some (result.mapError (·.untimed))
  | _ => none

/-- The item that a poll came to. -/
def Reply.item? : Reply α → Option α
  | .polled (.ok item) | .triedPoll (.ok item) => some item
  | _ => none

/-- The items of some replies, latest reply first, in the order in which they came. -/
def itemsOf (replies : List (Reply α)) : List α := (replies.filterMap Reply.item?).reverse

/-- The answer of an operation that is a single call, from its reply. -/
def answerOf (operation : Operation α) (reply : Reply α) : Answer α :=
  match operation, reply with
  | .push _, .pushed result => .pushed (result.mapError (·.untimed))
  | _, .pushed result => .pushedInTime result
  | _, .triedPush result => .triedPush result
  | .poll, .polled result => .polled result.toOption
  | _, .polled result => .polledInTime result
  | _, .triedPoll result => .triedPoll result
  | _, .error oldest => .error oldest
  | .hasError, .count number => .truth (0 < number)
  | _, .count number => .count number
  | .length, .snapshot channel => .count channel.length
  | .isEmpty, .snapshot channel => .truth channel.isEmpty
  | .isFull, .snapshot channel => .truth channel.isFull
  | .isClosed, .snapshot channel => .truth channel.closed
  | .capacity, .snapshot channel => .count channel.capacity
  | .describe pretty, .snapshot channel =>
    .text (if pretty then channel.shown.pretty else channel.shown.line)
  | _, .snapshot _ => .done
  | _, .done => .done

/-- The call of an operation that is a single call. -/
def callOf (operation : Operation α) (now : Instant) : Request α :=
  match operation with
  | .push item => .push item
  | .pushTimeout item timeout => .pushTimeout item timeout
  | .pushDeadline item millis => .pushDeadline item (now.shift millis)
  | .tryPush item => .tryPush item
  | .poll => .poll
  | .pollTimeout timeout => .pollTimeout timeout
  | .pollDeadline millis => .pollDeadline (now.shift millis)
  | .tryPoll => .tryPoll
  | .close => .close
  | .reportError error => .reportError error
  | .pollError => .pollError
  | .hasError | .errorCount => .errorCount
  | .droppedErrors => .droppedErrors
  | _ => .inspect

/-- The next call of an operation, or its answer, after the replies so far, latest first. -/
def calls (operation : Operation α) (now : Instant) (replies : List (Reply α)) :
    Request α ⊕ Answer α :=
  match operation with
  | .pushAll items =>
    match items[replies.length]? with
    | some item => .inl (.push item)
    | none => .inr (.pushedAll (replies.filterMap Reply.push?).reverse)
  | .drain =>
    match replies with
    | .triedPoll (.error stop) :: earlier => .inr (.drained (itemsOf earlier) stop)
    | _ => .inl .tryPoll
  | .iterate most =>
    match replies with
    | .polled (.error _) :: earlier => .inr (.items (itemsOf earlier))
    | _ => if most = some replies.length then .inr (.items (itemsOf replies)) else .inl .poll
  | _ =>
    match replies with
    | reply :: _ => .inr (answerOf operation reply)
    | [] => .inl (callOf operation now)

/-- Which of the handles made so far are alive. -/
abbrev Handles := List Bool

/-- The handles after one more was made from one; it is alive if that one is. -/
def Handles.clone (handles : Handles) (handle : Nat) : Handles :=
  handles ++ [handles[handle]?.getD false]

/-- The handles after one was given up. -/
def Handles.drop (handles : Handles) (handle : Nat) : Handles := handles.set handle false

/-- The outside of a channel knows its handles, and never holds a thread back. -/
abbrev surroundings (α : Type) : Surroundings (monitor α) where
  Env := Handles
  offer handles _ _ := some ((), handles)
  due _ _ := none

/-- How an operation goes on in a world, after the replies so far, latest first. -/
def plan (operation : Operation α) (_ : Instant) (w : World (monitor α) (surroundings α))
    (replies : List (Reply α)) : Turn (Request α) Handles (Answer α) :=
  let handles : Handles := w.env
  match operation with
  | .clone handle => .finish (.count handles.length) (Handles.clone handles handle)
  | .drop handle => .finish .done (Handles.drop handles handle)
  | _ => .ofCalls handles (calls operation w.system.now replies)

/-- Scripts on a channel. -/
abbrev stage (α : Type) : Stage where
  monitor := monitor α
  surroundings := surroundings α
  Operation := Operation α
  Answer := Answer α
  plan := plan

/-- A session around a channel, with its first handle. -/
def session (channel : Channel α) : Session (stage α) :=
  .start (.initial channel .midrange []) [true]

/-- Is any handle of the channel alive? -/
def isHeld (s : Session (stage α)) : Bool :=
  let handles : Handles := s.world.env
  handles.any id

end Backpressure.Channel
