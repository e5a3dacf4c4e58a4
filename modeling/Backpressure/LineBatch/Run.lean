import Backpressure.LineBatch.Monitor
import Backpressure.Writer.Script

/-!
# Running the line batcher

A run takes the arguments and the whole input, and gives the status, what is printed, and the log.
-/

namespace Backpressure.LineBatch

/-- The surroundings of the batcher: real time on the clock, and those of its writer. -/
abbrev surroundings : Surroundings monitor where
  Env := Buffer.Outside
  offer o now position :=
    match position with
    | .writer _ position =>
      ((Writer.surroundings String).offer o now position).map fun (buffer, o) =>
        ({ reading := now, buffer }, o)
    | _ => some ({ reading := now, buffer := .nothing }, o)
  due o position :=
    match position with
    | .writer _ position => (Writer.surroundings String).due o position
    | _ => none

/-- The script of the main thread is a single call. -/
abbrev stage : Stage where
  monitor := monitor
  surroundings := surroundings
  Operation := Reading
  Answer := Nat
  plan input _ w replies :=
    match replies with
    | status :: _ => .finish status w.env
    | [] => .call input w.env

/-- What is printed for a batch: its lines, joined, as one line. -/
def render (join : String) (batch : List String) : String := join.intercalate batch ++ "\n"

/-- Everything that a journal says was printed. -/
def printed (join : String) (notes : List Note) : String :=
  String.join ((notes.filterMap Note.accepted?).map (render join))

/-- What a run comes to. -/
structure Result where
  /-- The status. -/
  status : Nat
  /-- What was printed. -/
  output : String
  /-- The log, at all levels. -/
  log : List LogLine
  deriving DecidableEq, Repr

/-- The error of a sink that prints where nobody reads any more. -/
def nobodyReads : SinkBehaviour := { outcome := .refused "Broken pipe (os error 32)" }

/-- What the sink does in its calls for some lines: it prints, if somebody reads. -/
def behaviours (isRead : Bool) (lines : List String) : List SinkBehaviour :=
  if isRead then [] else lines.map fun _ => nobodyReads

/-- The words for settings that are refused. -/
def refusalMessage : Refusal → String
  | .config error => "invalid options: " ++ error.message
  | .contract broken => broken.message

/-- The result of a run whose settings are refused. -/
def refused (refusal : Refusal) : Result :=
  { status := 2, output := "", log := [⟨.error, "linebatch", refusalMessage refusal⟩] }

/-- Runs a job on an input. -/
def Job.run (job : Job) (join : String) (input : Reading) (isRead : Bool) : Result :=
  let outside : Buffer.Outside :=
    .begin .midrange job.writer.buffer.interval (behaviours isRead input.lines)
  let session : Session stage := .start (system job .midrange) outside
  let (status, session) := session.perform input
  let notes := session.world.system.notes
  { status := status.getD 1, output := printed join notes, log := notes.filterMap Note.log? }

/-- Runs the batcher with some options on an input. -/
def runWith (options : Options) (bytes : List UInt8) (isRead : Bool) : Result :=
  match Job.ofOptions options .midrange with
  | .error refusal => refused refusal
  | .ok job => job.run options.join (.ofBytes bytes) isRead

/-- Runs the batcher; none where the arguments are not a proper use. -/
def run? (arguments : List String) (bytes : List UInt8) (isRead : Bool) : Option Result :=
  (Options.ofArguments? arguments).map fun options => runWith options bytes isRead

end Backpressure.LineBatch
