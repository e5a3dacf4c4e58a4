import Backpressure.Channel.Basic
import Backpressure.Log
import Backpressure.Monitor

/-!
# Channels under many threads

The calls that threads make on a shared channel. Every call is a single step under the lock, save
that a push without room and a poll without items sleep and look again when they wake. Whoever
adds an item wakes one thread that waits for one, whoever takes an item wakes one that waits for
room, and a close wakes them all.
-/

namespace Backpressure.Channel

variable {α : Type}

/-- What a caller can ask of a channel. -/
inductive Request (α : Type) where
  /-- Adds an item, however long it takes. -/
  | push (item : α)
  /-- Adds an item, and gives up after some time. -/
  | pushTimeout (item : α) (timeout : Duration)
  /-- Adds an item, and gives up at a moment. -/
  | pushDeadline (item : α) (deadline : Instant)
  /-- Adds an item without waiting. -/
  | tryPush (item : α)
  /-- Takes the oldest item, however long it takes. -/
  | poll
  /-- Takes the oldest item, and gives up after some time. -/
  | pollTimeout (timeout : Duration)
  /-- Takes the oldest item, and gives up at a moment. -/
  | pollDeadline (deadline : Instant)
  /-- Takes the oldest item without waiting. -/
  | tryPoll
  /-- Closes the channel. -/
  | close
  /-- Reports an error beside the items. -/
  | reportError (error : String)
  /-- Reads the oldest unread error. -/
  | pollError
  /-- Counts the unread errors. -/
  | errorCount
  /-- Counts the errors that were discarded unread. -/
  | droppedErrors
  /-- Looks at the whole channel. -/
  | inspect

/-- What threads sleep on. -/
inductive Condition where
  /-- There may be room. -/
  | notFull
  /-- There may be an item. -/
  | notEmpty
  deriving DecidableEq, Repr

/-- Where a thread stands in its call: about to look at the channel under the lock. -/
inductive Position (α : Type) where
  | push (item : α) (deadline : Deadline)
  | tryPush (item : α)
  | poll (deadline : Deadline)
  | tryPoll
  | close
  | reportError (error : String)
  | pollError
  | errorCount
  | droppedErrors
  | inspect

/-- What a call returns. -/
inductive Reply (α : Type) where
  | pushed (result : Except (PushTimeoutError α) Unit)
  | triedPush (result : Except (TryPushError α) Unit)
  | polled (result : Except PollTimeoutError α)
  | triedPoll (result : Except TryPollError α)
  | done
  | error (oldest : Option String)
  | count (number : Nat)
  | snapshot (channel : Channel α)

/-- What a step records. -/
inductive Note (α : Type) where
  /-- An item was added. -/
  | accepted (item : α)
  /-- An item was taken. -/
  | removed (item : α)
  /-- The channel was closed with so many items in it. -/
  | closed (left : Nat)
  /-- An error was reported. -/
  | reported (error : String)
  /-- An error was read. -/
  | read (error : String)
  /-- The oldest of so many unread errors was discarded. -/
  | discarded (error : String) (unread : Nat)
  deriving BEq, DecidableEq, Repr

namespace Note

/-- The log line of a note, if it has one. -/
def log? : Note α → Option LogLine
  | .closed left =>
    some ⟨.debug, "flowgate::channel",
      "channel closed with " ++ toString left ++ " items left to drain"⟩
  | .discarded error unread =>
    some ⟨.warn, "flowgate::channel::sideband",
      "channel error sideband full (" ++ toString unread ++
        " unread); discarding oldest error: " ++ error⟩
  | _ => none

end Note

/-- The place at which a call starts. A timeout sets a deadline once, at the start. -/
def start (request : Request α) (now : Instant) : Position α :=
  match request with
  | .push item => .push item none
  | .pushTimeout item timeout => .push item (.after now timeout)
  | .pushDeadline item deadline => .push item (some deadline)
  | .tryPush item => .tryPush item
  | .poll => .poll none
  | .pollTimeout timeout => .poll (.after now timeout)
  | .pollDeadline deadline => .poll (some deadline)
  | .tryPoll => .tryPoll
  | .close => .close
  | .reportError error => .reportError error
  | .pollError => .pollError
  | .errorCount => .errorCount
  | .droppedErrors => .droppedErrors
  | .inspect => .inspect

/-- A step of a thread that uses a channel. -/
abbrev Step (α : Type) := Move (Channel α) (Position α) (Reply α) Condition (Note α)

/-- An item was added to the channel, which one thread that waits for items should know. -/
def pushed (c : Channel α) (item : α) (reply : Reply α) : Step α :=
  { state := c, outcome := .reply reply, signals := [.one .notEmpty], notes := [.accepted item] }

/-- An item was taken from the channel, which one thread that waits for room should know. -/
def polled (c : Channel α) (item : α) (reply : Reply α) : Step α :=
  { state := c, outcome := .reply reply, signals := [.one .notFull], notes := [.removed item] }

/-- A push that may wait until a deadline. The channel is looked at before the deadline, so that a
thread that wakes late still takes the room. -/
def stepPush (c : Channel α) (now : Instant) (item : α) (deadline : Deadline) : Step α :=
  match c.tryPush item with
  | .ok c' => pushed c' item (.pushed (.ok ()))
  | .error (.closed item) => .reply c (.pushed (.error (.closed item)))
  | .error (.full item) =>
    if deadline.reached now then .reply c (.pushed (.error (.timeout item)))
    else
      { state := c, outcome := .sleep .notFull deadline (.push item deadline),
        signals := [], notes := [] }

/-- A push that does not wait. -/
def stepTryPush (c : Channel α) (item : α) : Step α :=
  match c.tryPush item with
  | .ok c' => pushed c' item (.triedPush (.ok ()))
  | .error error => .reply c (.triedPush (.error error))

/-- A poll that may wait until a deadline, which counts only where there is no item. -/
def stepPoll (c : Channel α) (now : Instant) (deadline : Deadline) : Step α :=
  match c.tryPoll with
  | .ok (item, c') => polled c' item (.polled (.ok item))
  | .error .closed => .reply c (.polled (.error .closed))
  | .error .empty =>
    if deadline.reached now then .reply c (.polled (.error .timeout))
    else
      { state := c, outcome := .sleep .notEmpty deadline (.poll deadline),
        signals := [], notes := [] }

/-- A poll that does not wait. -/
def stepTryPoll (c : Channel α) : Step α :=
  match c.tryPoll with
  | .ok (item, c') => polled c' item (.triedPoll (.ok item))
  | .error error => .reply c (.triedPoll (.error error))

/-- A close. Only the first one does anything. -/
def stepClose (c : Channel α) : Step α :=
  if c.closed then .reply c .done
  else
    { state := c.close, outcome := .reply .done, signals := [.all .notEmpty, .all .notFull],
      notes := [.closed c.length] }

/-- A report of an error. -/
def stepReportError (c : Channel α) (error : String) : Step α :=
  { state := { c with errors := c.errors.report error }
    outcome := .reply .done
    signals := []
    notes := (c.errors.discarded?.map (.discarded · c.errors.capacity)).toList ++
      [.reported error] }

/-- A reading of the oldest error. -/
def stepPollError (c : Channel α) : Step α :=
  { state := { c with errors := c.errors.rest }
    outcome := .reply (.error c.errors.oldest?)
    signals := []
    notes := (c.errors.oldest?.map .read).toList }

/-- One step of a call on a channel. -/
def step (c : Channel α) (now : Instant) (position : Position α) : Step α :=
  match position with
  | .push item deadline => stepPush c now item deadline
  | .tryPush item => stepTryPush c item
  | .poll deadline => stepPoll c now deadline
  | .tryPoll => stepTryPoll c
  | .close => stepClose c
  | .reportError error => stepReportError c error
  | .pollError => stepPollError c
  | .errorCount => .reply c (.count c.errors.unread.length)
  | .droppedErrors => .reply c (.count c.errors.dropped)
  | .inspect => .reply c (.snapshot c)

/-- A channel that threads share. -/
abbrev monitor (α : Type) : Monitor where
  State := Channel α
  Request := Request α
  Position := Position α
  Reply := Reply α
  Condition := Condition
  Input := Unit
  Note := Note α
  decEqCondition := inferInstance
  start := start
  step c now position _ := some (step c now position)

end Backpressure.Channel
