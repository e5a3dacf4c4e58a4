/-!
# The error sideband

A sideband keeps the unread errors of a channel, oldest first, up to its capacity. A report always
succeeds: where there is no room, the oldest unread error is discarded and counted.
-/

namespace Backpressure

/-- A bounded queue of errors. -/
structure Sideband where
  /-- How many unread errors there is room for. -/
  capacity : Nat
  /-- The unread errors, oldest first. -/
  unread : List String
  /-- How many errors were discarded unread. -/
  dropped : Nat
  /-- There is room for one error. -/
  capacity_pos : 0 < capacity

namespace Sideband

/-- A sideband without errors. -/
def empty (capacity : Nat) (capacity_pos : 0 < capacity) : Sideband :=
  { capacity, unread := [], dropped := 0, capacity_pos }

/-- Is there no room for one more error? -/
def isFull (s : Sideband) : Bool := s.capacity ≤ s.unread.length

/-- The error that the next report discards. -/
def discarded? (s : Sideband) : Option String := if s.isFull then s.unread.head? else none

/-- A new error comes last, and the oldest one goes where there is no room. -/
def report (s : Sideband) (error : String) : Sideband :=
  if s.isFull then { s with unread := s.unread.tail ++ [error], dropped := s.dropped + 1 }
  else { s with unread := s.unread ++ [error] }

/-- The oldest unread error. -/
def oldest? (s : Sideband) : Option String := s.unread.head?

/-- The sideband once its oldest error has been read. -/
def rest (s : Sideband) : Sideband := { s with unread := s.unread.tail }

end Sideband

end Backpressure
