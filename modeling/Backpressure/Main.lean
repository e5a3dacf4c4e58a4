import Backpressure.LineBatch.Run

/-!
# The command line of the line batcher

Reads all of standard input, prints the batches, and writes the log to standard error down to the
level that an environment variable names.
-/

namespace Backpressure.LineBatch

/-- Everything that is left in a stream. -/
partial def readAll (stream : IO.FS.Stream) (done : ByteArray) : IO ByteArray := do
  let chunk ← stream.read 65536
  if chunk.isEmpty then return done else readAll stream (done ++ chunk)

/-- What is shown where the arguments are not a proper use. -/
def usage : String :=
  "usage: linebatch [--join STRING] [--max-size N] [--max-duration MS] [--channel-size N] " ++
    "[--rate N]"

end Backpressure.LineBatch

open Backpressure Backpressure.LineBatch in
/-- Batches the lines of standard input. -/
def main (arguments : List String) : IO UInt32 := do
  match Options.ofArguments? arguments with
  | none =>
    (← IO.getStderr).putStrLn usage
    return 2
  | some options =>
    let bytes ← readAll (← IO.getStdin) .empty
    let result := runWith options bytes.toList true
    let output ← IO.getStdout
    output.putStr result.output
    output.flush
    let least := ((← IO.getEnv "LINEBATCH_LOG").bind Level.ofName?).getD .error
    for line in result.log.filter (·.level.shownAt least) do
      (← IO.getStderr).putStrLn ("[" ++ line.level.text ++ " " ++ line.target ++ "] " ++ line.message)
    return result.status.toUInt32
