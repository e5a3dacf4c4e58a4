/-!
# Errors of channel calls

A push that fails hands its item back, and a poll that fails says whether more can ever come. The
texts of errors never show the item, so items need no text of their own.
-/

namespace Backpressure

/-- A push into a closed channel, with the item handed back. -/
structure PushError (α : Type) where
  /-- The item that was not pushed. -/
  item : α
  deriving BEq, DecidableEq, Repr

namespace PushError

/-- The error in words. -/
def message {α : Type} (_ : PushError α) : String := "pushing into a closed channel"

/-- The error as a value, without its item. -/
def text {α : Type} (_ : PushError α) : String := "PushError(..)"

end PushError

/-- Why a push that does not wait failed, with the item handed back. -/
inductive TryPushError (α : Type) where
  /-- There is no room. -/
  | full (item : α)
  /-- The channel is closed. -/
  | closed (item : α)
  deriving BEq, DecidableEq, Repr

namespace TryPushError

variable {α : Type}

/-- The item that was not pushed. -/
def item : TryPushError α → α
  | .full item | .closed item => item

/-- The error in words. -/
def message : TryPushError α → String
  | .full _ => "pushing into a full channel"
  | .closed _ => "pushing into a closed channel"

/-- The error as a value, without its item. -/
def text : TryPushError α → String
  | .full _ => "Full(..)"
  | .closed _ => "Closed(..)"

end TryPushError

/-- Why a push with a deadline failed, with the item handed back. -/
inductive PushTimeoutError (α : Type) where
  /-- There was no room until the deadline. -/
  | timeout (item : α)
  /-- The channel is closed. -/
  | closed (item : α)
  deriving BEq, DecidableEq, Repr

namespace PushTimeoutError

variable {α : Type}

/-- The item that was not pushed. -/
def item : PushTimeoutError α → α
  | .timeout item | .closed item => item

/-- The error in words. -/
def message : PushTimeoutError α → String
  | .timeout _ => "timed out waiting for room in the channel"
  | .closed _ => "pushing into a closed channel"

/-- The error as a value, without its item. -/
def text : PushTimeoutError α → String
  | .timeout _ => "Timeout(..)"
  | .closed _ => "Closed(..)"

/-- The same failure of a push without a deadline. -/
def untimed (error : PushTimeoutError α) : PushError α := ⟨error.item⟩

end PushTimeoutError

/-- Why a poll that does not wait failed. -/
inductive TryPollError where
  /-- There is no item now. -/
  | empty
  /-- The channel is closed and has no items left. -/
  | closed
  deriving DecidableEq, Repr

namespace TryPollError

/-- The error in words. -/
def message : TryPollError → String
  | .empty => "polling an empty channel"
  | .closed => "polling a closed and drained channel"

/-- The error as a value. -/
def text : TryPollError → String
  | .empty => "Empty"
  | .closed => "Closed"

end TryPollError

/-- Why a poll with a deadline failed. -/
inductive PollTimeoutError where
  /-- There was no item until the deadline. -/
  | timeout
  /-- The channel is closed and has no items left. -/
  | closed
  deriving DecidableEq, Repr

namespace PollTimeoutError

/-- The error in words. -/
def message : PollTimeoutError → String
  | .timeout => "timed out waiting for an item"
  | .closed => "polling a closed and drained channel"

/-- The error as a value. -/
def text : PollTimeoutError → String
  | .timeout => "Timeout"
  | .closed => "Closed"

end PollTimeoutError

end Backpressure
