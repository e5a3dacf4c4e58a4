/-!
# Sinks

A sink is called with one batch at a time. A call is accepted, fails with an error, or breaks off
with or without last words. A scripted sink has its outcomes laid out in advance, and may hold a
call back until it is given a permit.
-/

namespace Backpressure

/-- How a call of a sink ends. -/
inductive SinkOutcome where
  /-- The batch was accepted. -/
  | accepted
  /-- The sink returned an error, which reads like this. -/
  | refused (error : String)
  /-- The sink broke off, with its last words where it left any. -/
  | crashed (words : Option String)
  deriving DecidableEq, Repr

/-- Was the batch accepted? -/
def SinkOutcome.isAccepted : SinkOutcome → Bool
  | .accepted => true
  | _ => false

/-- What a scripted sink does in one call. -/
structure SinkBehaviour where
  /-- Does it wait for a permit first? -/
  gated : Bool := false
  /-- How it ends the call. -/
  outcome : SinkOutcome := .accepted
  deriving DecidableEq, Repr, Inhabited

/-- A sink whose calls are laid out in advance. Calls beyond the script are accepted. -/
structure SinkScript where
  /-- What the calls still to come do, in order. -/
  behaviours : List SinkBehaviour
  /-- How many permits are there to be taken. -/
  permits : Nat

namespace SinkScript

/-- How the present call ends, and the script afterwards; none while the sink holds it back. -/
def respond (s : SinkScript) : Option (SinkOutcome × SinkScript) :=
  match s.behaviours with
  | [] => some (.accepted, s)
  | behaviour :: behaviours =>
    if behaviour.gated then
      match s.permits with
      | 0 => none
      | permits + 1 => some (behaviour.outcome, { behaviours, permits })
    else some (behaviour.outcome, { s with behaviours })

/-- The sink with more permits. -/
def release (s : SinkScript) (permits : Nat) : SinkScript :=
  { s with permits := s.permits + permits }

end SinkScript

end Backpressure
