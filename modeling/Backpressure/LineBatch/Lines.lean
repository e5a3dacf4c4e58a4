/-!
# Lines of the input

A line ends with a line feed or with the input; a carriage return right before the line feed is
dropped with it. A line that is not well-formed text cannot be read, and reading stops there.
-/

namespace Backpressure.LineBatch

/-- The input cut after each line feed. -/
def cut (done : List UInt8) : List UInt8 → List (List UInt8)
  | [] => if done.isEmpty then [] else [done.reverse]
  | byte :: rest =>
    if byte = 10 then (byte :: done).reverse :: cut [] rest else cut (byte :: done) rest

/-- A line without its line feed, and without a carriage return before that. -/
def trimEnd (line : List UInt8) : List UInt8 :=
  match line.reverse with
  | 10 :: 13 :: rest => rest.reverse
  | 10 :: rest => rest.reverse
  | _ => line

/-- The text of a line, if it is well formed. -/
def lineText? (line : List UInt8) : Option String := String.fromUTF8? ⟨(trimEnd line).toArray⟩

/-- What can be read of an input. -/
structure Reading where
  /-- The lines, up to the first that cannot be read. -/
  lines : List String
  /-- Is there a line that cannot be read? -/
  broken : Bool
  deriving DecidableEq, Repr

/-- Reads lines until one cannot be read. -/
def Reading.ofLines : List (List UInt8) → Reading
  | [] => { lines := [], broken := false }
  | line :: rest =>
    match lineText? line with
    | some text =>
      let reading := ofLines rest
      { reading with lines := text :: reading.lines }
    | none => { lines := [], broken := true }

/-- Reads an input. -/
def Reading.ofBytes (bytes : List UInt8) : Reading := .ofLines (cut [] bytes)

/-- Why a line cannot be read. -/
def unreadable : String := "stream did not contain valid UTF-8"

end Backpressure.LineBatch
