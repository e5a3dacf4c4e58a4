/-!
# Outcomes of a flush

What a flush tells its caller, and the one way in which a flush with a deadline can fail.
-/

namespace Backpressure

/-- What a flush came to, as its caller sees it. -/
inductive Flush where
  /-- The caller delivered a batch of this size. -/
  | delivered (size : Nat)
  /-- The caller handed a batch of this size to a sink that failed on it. -/
  | failed (size : Nat)
  /-- Nothing was pending. -/
  | empty
  /-- Another caller's delivery was under way and is now over. -/
  | joined
  deriving DecidableEq, Repr

namespace Flush

/-- The outcome as a value. -/
def text : Flush → String
  | .delivered size => "Delivered(" ++ toString size ++ ")"
  | .failed size => "Failed(" ++ toString size ++ ")"
  | .empty => "Empty"
  | .joined => "Joined"

/-- What the delivery of a batch comes to for the caller that made it. -/
def ofDelivery (size : Nat) (accepted : Bool) : Flush :=
  if accepted then .delivered size else .failed size

end Flush

/-- The deadline of a flush came while another caller's delivery was still under way. -/
structure FlushTimeoutError where
  deriving DecidableEq, Repr

namespace FlushTimeoutError

/-- The error in words. -/
def message (_ : FlushTimeoutError) : String :=
  "timed out waiting for in-flight flush to complete"

/-- The error as a value. -/
def text (_ : FlushTimeoutError) : String := "FlushTimeoutError"

end FlushTimeoutError

end Backpressure
