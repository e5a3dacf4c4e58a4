/-!
# Ranges of character numbers

A property of characters is a list of closed ranges of their numbers, ascending and apart, so that a
look-up stops at the first range that begins beyond the number.
-/

namespace Backpressure.Text

/-- Closed ranges of character numbers. -/
abbrev Ranges := List (Nat × Nat)

namespace Ranges

/-- Does a number lie in one of the ranges, if they ascend? -/
def contains : Ranges → Nat → Bool
  | [], _ => false
  | (first, last) :: rest, n =>
    if n < first then false else if n ≤ last then true else contains rest n

end Ranges

end Backpressure.Text
