import Backpressure.Config.Basic

/-!
# Options of the line batcher

Options are given by name, each at most once, with the value in the next argument or after an
equals sign. Whatever else stands among the arguments is refused.
-/

namespace Backpressure.LineBatch

/-- What the batcher is told to do. -/
structure Options where
  /-- What is put between the lines of a batch. -/
  join : String := " "
  /-- How many lines make a batch. -/
  maxSize : Nat := 2000
  /-- How many milliseconds a batch is gathered for at most. -/
  maxDuration : Nat := 200
  /-- How many lines may wait for the batcher. -/
  channelSize : Option Nat := none
  /-- How many lines are read in a second at most. -/
  rate : Option Nat := none
  deriving DecidableEq, Repr

/-- The names of the options. -/
inductive OptionName where
  | join
  | maxSize
  | maxDuration
  | channelSize
  | rate
  deriving DecidableEq, Repr

namespace OptionName

/-- The option that an argument names. -/
def ofArgument? (argument : String) : Option OptionName :=
  if argument = "--join" then some .join
  else if argument = "--max-size" then some .maxSize
  else if argument = "--max-duration" then some .maxDuration
  else if argument = "--channel-size" then some .channelSize
  else if argument = "--rate" then some .rate
  else none

end OptionName

/-- Can an argument stand as the value of the option before it? It must not look like an option;
a single hyphen does not. -/
def isValue (argument : String) : Bool :=
  argument = "-" || argument.toList.head? != some '-'

/-- An argument cut at its first equals sign, if it has one. -/
def cutAtEquals? (argument : String) : Option (String × String) :=
  let name := argument.toList.takeWhile (· != '=')
  match argument.toList.dropWhile (· != '=') with
  | _ :: value => some (String.ofList name, String.ofList value)
  | [] => none

/-- An option with its value in the same argument. -/
def whole? (argument : String) : Option (OptionName × String) := do
  let (name, value) ← cutAtEquals? argument
  some (← OptionName.ofArgument? name, value)

/-- An option with its value in the next argument. -/
def split? (argument value : String) : Option (OptionName × String) := do
  let name ← OptionName.ofArgument? argument
  if isValue value then some (name, value) else none

/-- The options among some arguments, in order; none where anything else stands among them. Two
hyphens may end the arguments. -/
def pairs? : List String → Option (List (OptionName × String))
  | [] => some []
  | [argument] =>
    if argument = "--" then some [] else (whole? argument).map ([·])
  | argument :: value :: rest =>
    match whole? argument with
    | some pair => (pairs? (value :: rest)).map (pair :: ·)
    | none => (split? argument value).bind fun pair => (pairs? rest).map (pair :: ·)

/-- A natural number of 64 bits in decimal digits, perhaps after a plus sign. -/
def number? (text : String) : Option Nat :=
  let digits := match text.toList with
    | '+' :: digits => digits
    | digits => digits
  if digits.isEmpty || !digits.all (fun c => '0' ≤ c && c ≤ '9') then none
  else
    let value := digits.foldl (fun n c => n * 10 + (c.toNat - '0'.toNat)) 0
    if value < 18446744073709551616 then some value else none

namespace Options

/-- The options with one of them set, where its value can be read. -/
def set? (options : Options) (pair : OptionName × String) : Option Options :=
  match pair with
  | (.join, value) => some { options with join := value }
  | (.maxSize, value) => (number? value).map fun n => { options with maxSize := n }
  | (.maxDuration, value) => (number? value).map fun n => { options with maxDuration := n }
  | (.channelSize, value) => (number? value).map fun n => { options with channelSize := some n }
  | (.rate, value) => (number? value).map fun n => { options with rate := some n }

/-- Reads the options from some arguments; none where they are not a proper use. -/
def ofArguments? (arguments : List String) : Option Options := do
  let pairs ← pairs? arguments
  if (pairs.map (·.1)).Nodup then pairs.foldlM set? {} else none

/-- The settings of the rate limiter, if there is to be one. -/
def rateConfig? (options : Options) : Option RateConfig :=
  options.rate.map fun threshold => { threshold, period := .ofSeconds 1 }

/-- The settings of the writer. Unless it is told otherwise, twice as many lines may wait as make a
batch, up to the largest number of 64 bits. -/
def writerConfig (options : Options) : WriterConfig where
  channel :=
    { capacity := options.channelSize.getD (min (options.maxSize * 2) 18446744073709551615) }
  buffer := { limit := options.maxSize, interval := .ofMillis options.maxDuration }

end Options

end Backpressure.LineBatch
