import Backpressure.Config.Basic
import Backpressure.Text.Quoted
import Backpressure.Value

/-!
# Reading settings from values

Settings are read from an object or from a list. In an object each known field overwrites its
default and unknown fields are passed over; in a list the fields stand in their order and those
beyond its end keep their defaults. The first fault found decides the error.
-/

namespace Backpressure

/-- What a reader was looking for. -/
inductive Wanted where
  /-- A number of things. -/
  | size
  /-- A natural number of 64 bits. -/
  | word64
  /-- A natural number of 32 bits. -/
  | word32
  /-- A record of this name. -/
  | record (name : String)
  deriving DecidableEq, Repr

/-- The wanted thing in words. -/
def Wanted.text : Wanted → String
  | .size => "usize"
  | .word64 => "u64"
  | .word32 => "u32"
  | .record name => "struct " ++ name

/-- The numbers below this bound are in range. No number is a record. -/
def Wanted.bound : Wanted → Nat
  | .size | .word64 => 18446744073709551616
  | .word32 => 4294967296
  | .record _ => 0

/-- Why settings could not be read. -/
inductive DecodeError where
  /-- A value of another kind than the wanted one. -/
  | wrongKind (found : Value) (wanted : Wanted)
  /-- An integer out of range. -/
  | outOfRange (found : Int) (wanted : Wanted)
  /-- A field that must be there is not. -/
  | missingField (name : String)
  /-- A field that must not be there is. -/
  | unknownField (name : String) (known : List String)
  /-- A duration whose seconds leave their 64 bits. -/
  | durationOverflow
  /-- A list that ends before the record is complete. -/
  | tooShort (length : Nat) (wanted : Wanted)
  /-- A list that goes on after the record is complete. -/
  | tooLong (length : Nat)
  deriving Repr

/-- What kind of value this is, in words; scalars are named. -/
def Value.described : Value → String
  | .null => "null"
  | .flag value => "boolean `" ++ (if value then "true" else "false") ++ "`"
  | .int value => "integer `" ++ toString value ++ "`"
  | .decimal value => "floating point `" ++ value.text ++ "`"
  | .text value => "string " ++ Text.quoted value
  | .list _ => "sequence"
  | .object _ => "map"

/-- The error in words. -/
def DecodeError.message : DecodeError → String
  | .wrongKind found wanted => "invalid type: " ++ found.described ++ ", expected " ++ wanted.text
  | .outOfRange found wanted =>
    "invalid value: " ++ (Value.int found).described ++ ", expected " ++ wanted.text
  | .missingField name => "missing field `" ++ name ++ "`"
  | .unknownField name known =>
    "unknown field `" ++ name ++ "`, expected " ++ " or ".intercalate (known.map ("`" ++ · ++ "`"))
  | .durationOverflow => "overflow deserializing Duration"
  | .tooShort length wanted =>
    "invalid length " ++ toString length ++ ", expected " ++ wanted.text
  | .tooLong length =>
    "invalid length " ++ toString length ++ ", expected fewer elements in array"

namespace Value

/-- A natural number within the bound of what is wanted. -/
def toNumber (wanted : Wanted) : Value → Except DecodeError Nat
  | .int value =>
    if 0 ≤ value ∧ value < wanted.bound then .ok value.toNat else .error (.outOfRange value wanted)
  | other => .error (.wrongKind other wanted)

/-- A list of which a record takes so many elements must not be longer than that. -/
def checkLength (elements : List Value) (count : Nat) : Except DecodeError Unit :=
  if count < elements.length then .error (.tooLong elements.length) else .ok ()

/-- A record whose fields all have defaults. From an object, `put` overwrites the field of a name
with a value, and leaves alone what it does not know; a list gives values to the first of the
names in their order. -/
def toRecord {Record : Type} (name : String) (default : Record) (names : List String)
    (put : Record → String → Value → Except DecodeError Record) :
    Value → Except DecodeError Record
  | .object fields => fields.foldlM (fun record field => put record field.1 field.2) default
  | .list elements => do
    let record ← (names.zip elements).foldlM (fun record field => put record field.1 field.2) default
    checkLength elements names.length
    return record
  | other => .error (.wrongKind other (.record name))

end Value

namespace Duration

/-- A duration of seconds and nanoseconds, which may carry. -/
def ofParts (seconds nanos : Nat) : Except DecodeError Duration :=
  match ofParts? seconds nanos with
  | some duration => .ok duration
  | none => .error .durationOverflow

/-- The seconds and nanoseconds that the fields of an object name, where no others are. -/
def readParts :
    List (String × Value) → Option Nat × Option Nat → Except DecodeError (Option Nat × Option Nat)
  | [], parts => .ok parts
  | (name, value) :: rest, (seconds, nanos) =>
    if name = "secs" then do
      readParts rest (some (← value.toNumber .word64), nanos)
    else if name = "nanos" then do
      readParts rest (seconds, some (← value.toNumber .word32))
    else .error (.unknownField name ["secs", "nanos"])

/-- Reads a duration from an object with seconds and nanoseconds, or from a list of the two. -/
def ofValue : Value → Except DecodeError Duration
  | .object fields => do
    match ← readParts fields (none, none) with
    | (none, _) => .error (.missingField "secs")
    | (some _, none) => .error (.missingField "nanos")
    | (some seconds, some nanos) => ofParts seconds nanos
  | .list [] => .error (.tooShort 0 (.record "Duration"))
  | .list [first] => do
    let _ ← first.toNumber .word64
    .error (.tooShort 1 (.record "Duration"))
  | .list (first :: second :: rest) => do
    let duration ← ofParts (← first.toNumber .word64) (← second.toNumber .word32)
    Value.checkLength (first :: second :: rest) 2
    return duration
  | other => .error (.wrongKind other (.record "Duration"))

end Duration

namespace ChannelConfig

/-- Overwrites the field of a name. -/
def put (config : ChannelConfig) (name : String) (value : Value) :
    Except DecodeError ChannelConfig :=
  if name = "capacity" then return { config with capacity := ← value.toNumber .size }
  else if name = "error_capacity" then
    return { config with errorCapacity := ← value.toNumber .size }
  else .ok config

/-- Reads the settings of a channel. -/
def ofValue : Value → Except DecodeError ChannelConfig :=
  Value.toRecord "ChannelConfig" {} ["capacity", "error_capacity"] put

end ChannelConfig

namespace BufferConfig

/-- Overwrites the field of a name. -/
def put (config : BufferConfig) (name : String) (value : Value) :
    Except DecodeError BufferConfig :=
  if name = "limit" then return { config with limit := ← value.toNumber .size }
  else if name = "interval" then return { config with interval := ← Duration.ofValue value }
  else .ok config

/-- Reads the settings of a buffer. -/
def ofValue : Value → Except DecodeError BufferConfig :=
  Value.toRecord "BufferConfig" {} ["limit", "interval"] put

end BufferConfig

namespace RateConfig

/-- Overwrites the field of a name. -/
def put (config : RateConfig) (name : String) (value : Value) : Except DecodeError RateConfig :=
  if name = "threshold" then return { config with threshold := ← value.toNumber .word64 }
  else if name = "period" then return { config with period := ← Duration.ofValue value }
  else .ok config

/-- Reads the settings of a token bucket. -/
def ofValue : Value → Except DecodeError RateConfig :=
  Value.toRecord "RateLimiterConfig" {} ["threshold", "period"] put

end RateConfig

namespace WriterConfig

/-- Overwrites the field of a name. -/
def put (config : WriterConfig) (name : String) (value : Value) :
    Except DecodeError WriterConfig :=
  if name = "channel" then return { config with channel := ← ChannelConfig.ofValue value }
  else if name = "buffer" then return { config with buffer := ← BufferConfig.ofValue value }
  else .ok config

/-- Reads the settings of a writer. -/
def ofValue : Value → Except DecodeError WriterConfig :=
  Value.toRecord "WriterConfig" {} ["channel", "buffer"] put

end WriterConfig

end Backpressure
