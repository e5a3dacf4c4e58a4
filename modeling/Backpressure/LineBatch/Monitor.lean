import Backpressure.Bucket.Monitor
import Backpressure.LineBatch.Lines
import Backpressure.LineBatch.Options
import Backpressure.Writer.Monitor

/-!
# The line batcher under way

The main thread reads lines, has each admitted by the rate limiter if there is one, and writes it
to a writer whose sink prints batches. When the input ends it closes the writer, sums up, and ends
with a status. Everything that it does is a step of the limiter, of the writer, or of its own.
-/

namespace Backpressure.LineBatch

/-- What the threads of the batcher share. -/
structure Job where
  /-- The rate limiter, if there is one. -/
  limiter : Option Bucket
  /-- The writer. -/
  writer : Writer String

namespace Job

/-- A job with these options, if they are in order; the limiter is looked at first. -/
def ofOptions (options : Options) (now : Instant) : Except Refusal Job := do
  let limiter ← options.rateConfig?.mapM (Bucket.ofConfig · now)
  return { limiter, writer := ← Writer.ofConfig options.writerConfig }

end Job

/-- What a call on the writer is for. -/
inductive Task where
  /-- It belongs to a thread of the writer. -/
  | own
  /-- It writes a line, and then the rest of the input is read. -/
  | write (rest : Reading)
  /-- It reports that a line could not be read. -/
  | report
  /-- It closes the writer. -/
  | close
  /-- It looks at the counts. -/
  | count
  /-- It reads the errors that were reported, after some failure or none. -/
  | errors (failed : Bool)
  deriving DecidableEq, Repr

/-- Where a thread stands. -/
inductive Position where
  /-- It is about to read a line. -/
  | read (input : Reading)
  /-- It waits for a line to be admitted. -/
  | permit (line : String) (rest : Reading) (position : Bucket.Position)
  /-- It is about to write a line. -/
  | write (line : String) (rest : Reading)
  /-- It is in a call on the writer. -/
  | writer (task : Task) (position : Writer.Position String)
  /-- It is about to sum up. -/
  | sumUp (tally : Tally)
  /-- It is about to tell of an error. -/
  | tell (error : String)

/-- What threads sleep on. -/
inductive Condition where
  | limiter (condition : Bucket.Condition)
  | writer (condition : Writer.Condition)
  deriving DecidableEq, Repr

/-- What the surroundings supply to a step. -/
structure Input where
  /-- A reading of the clock. -/
  reading : Instant
  /-- What the sink and the periodic trigger are up to. -/
  buffer : Buffer.Input

/-- What a step records. -/
inductive Note where
  | limiter (note : Bucket.Note)
  | writer (note : Writer.Note String)
  /-- A line was read and admitted. -/
  | read (line : String)
  /-- The counts at the end. -/
  | summary (tally : Tally)
  /-- An error that was reported. -/
  | failure (error : String)
  deriving DecidableEq, Repr

namespace Note

/-- The log line of a note, if it has one. -/
def log? : Note → Option LogLine
  | .limiter note => note.log?
  | .writer note => note.log?
  | .read line => some ⟨.debug, "linebatch", "read: " ++ line⟩
  | .summary tally =>
    some ⟨.info, "linebatch",
      "printed " ++ toString tally.deliveredItems ++ " lines in " ++
        toString tally.deliveredBatches ++ " batches; " ++ toString tally.failedItems ++
        " lines in " ++ toString tally.failedBatches ++ " batches failed"⟩
  | .failure error => some ⟨.error, "linebatch", "failed to read STDIN: " ++ error⟩

/-- The batch that the sink accepted. -/
def accepted? : Note → Option (List String)
  | .writer (.buffer (.returned batch .accepted)) => some batch
  | _ => none

end Note

/-- The place at which the main thread starts. -/
def start (input : Reading) (_ : Instant) : Position := .read input

/-- A step of a thread of the batcher. The main thread ends with a status. -/
abbrev Step := Move Job Position Nat Condition Note

/-- The place from which a call on the writer is made. -/
def ask (task : Task) (request : Writer.Request String) (now : Instant) : Position :=
  .writer task (Writer.start request now)

/-- How a thread goes on after a call on the writer. A line that is not taken ends the reading. -/
def afterWriter (now : Instant) (task : Task) (reply : Writer.Reply String) :
    Outcome Position Nat Condition :=
  match task, reply with
  | .own, _ => .exit
  | .write rest, .channel (.pushed (.ok ())) => .proceed (.read rest)
  | .write _, _ | .report, _ => .proceed (ask .close .close now)
  | .close, _ => .proceed (ask .count (.buffer .inspect) now)
  | .count, .buffer (.snapshot buffer) => .proceed (.sumUp buffer.tally)
  | .count, _ => .proceed (.sumUp {})
  | .errors _, .channel (.error (some error)) => .proceed (.tell error)
  | .errors failed, _ => .reply (if failed then 1 else 0)

/-- The main thread reads a line, or comes to the end of what can be read. -/
def stepRead (job : Job) (now : Instant) (input : Reading) : Step :=
  match input.lines with
  | line :: lines =>
    let rest := { input with lines }
    match job.limiter with
    | some _ => .proceed job (.permit line rest (Bucket.start .acquire now))
    | none => .proceed job (.write line rest)
  | [] =>
    if input.broken then .proceed job (ask .report (.channel (.reportError unreadable)) now)
    else .proceed job (ask .close .close now)

/-- The main thread waits for a line to be admitted. -/
def stepPermit (job : Job) (now : Instant) (line : String) (rest : Reading)
    (position : Bucket.Position) (reading : Instant) : Step :=
  match job.limiter with
  | some limiter =>
    (Bucket.step limiter now position reading).embed
      (fun limiter => { job with limiter := some limiter }) (.permit line rest) .limiter .limiter
      (fun _ => .proceed (.write line rest))
  | none => .proceed job (.write line rest)

/-- A step in a call on the writer. -/
def stepWriter (job : Job) (now : Instant) (task : Task) (position : Writer.Position String)
    (input : Buffer.Input) : Option Step :=
  (Writer.step job.writer now position input).map fun move =>
    move.embed (fun writer => { job with writer }) (.writer task) .writer .writer
      (afterWriter now task)

/-- One step of a thread of the batcher. -/
def step (job : Job) (now : Instant) (position : Position) (input : Input) : Option Step :=
  match position with
  | .read reading => some (stepRead job now reading)
  | .permit line rest position => some (stepPermit job now line rest position input.reading)
  | .write line rest =>
    some { state := job, outcome := .proceed (ask (.write rest) (.write line) now), signals := [],
           notes := [.read line] }
  | .writer task position => stepWriter job now task position input.buffer
  | .sumUp tally =>
    some { state := job, signals := [], notes := [.summary tally],
           outcome := .proceed (ask (.errors (0 < tally.failedBatches)) (.channel .pollError) now) }
  | .tell error =>
    some { state := job, outcome := .proceed (ask (.errors true) (.channel .pollError) now),
           signals := [], notes := [.failure error] }

/-- The batcher as a system of threads. Its one call reads an input and returns a status. -/
abbrev monitor : Monitor where
  State := Job
  Request := Reading
  Position := Position
  Reply := Nat
  Condition := Condition
  Input := Input
  Note := Note
  decEqCondition := inferInstance
  start := start
  step := step

/-- The batcher at its beginning, with the threads of its writer. -/
def system (job : Job) (now : Instant) : System monitor :=
  .initial job now
    [.writer .own (.buffer .own .launch), .writer .own (.channel .pump (.poll none))]

end Backpressure.LineBatch
