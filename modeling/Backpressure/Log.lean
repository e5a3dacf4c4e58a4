/-!
# Log lines

What a program reports about itself: a level, the part that speaks, and a message.
-/

namespace Backpressure

/-- How much a log line matters. -/
inductive Level where
  | error
  | warn
  | info
  | debug
  | trace
  deriving DecidableEq, Repr

namespace Level

/-- Levels are ranked from the gravest, at zero. -/
def rank : Level → Nat
  | .error => 0
  | .warn => 1
  | .info => 2
  | .debug => 3
  | .trace => 4

/-- The level's name in a log. -/
def text : Level → String
  | .error => "ERROR"
  | .warn => "WARN"
  | .info => "INFO"
  | .debug => "DEBUG"
  | .trace => "TRACE"

/-- The level of a name, in small letters. -/
def ofName? (name : String) : Option Level :=
  if name = "error" then some .error
  else if name = "warn" then some .warn
  else if name = "info" then some .info
  else if name = "debug" then some .debug
  else if name = "trace" then some .trace
  else none

/-- Does a log that shows everything down to `least` show this level? -/
def shownAt (level least : Level) : Bool := level.rank ≤ least.rank

end Level

/-- One line of a log. -/
structure LogLine where
  /-- How much the line matters. -/
  level : Level
  /-- The part of the program that speaks. -/
  target : String
  /-- What it says. -/
  message : String
  deriving DecidableEq, Repr

end Backpressure
