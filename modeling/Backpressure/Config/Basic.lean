import Backpressure.Text.Record
import Backpressure.Time.Text

/-!
# Settings

The settings of channels, buffers, token buckets and writers, with the defaults that stand in for
what is left out. A setting of zero would block forever or spin, so a check refuses it; of several
zeros the check names the first in the order of the fields.
-/

namespace Backpressure

/-- What is wrong with a setting. -/
inductive ConfigError where
  /-- A channel without room for one item. -/
  | zeroCapacity
  /-- An error sideband without room for one error. -/
  | zeroErrorCapacity
  /-- A buffer that would flush at every item. -/
  | zeroLimit
  /-- Periodic flushes with no time between them. -/
  | zeroInterval
  /-- A token bucket that never admits anything. -/
  | zeroThreshold
  /-- A token bucket whose window has no length. -/
  | zeroPeriod
  deriving DecidableEq, Repr

namespace ConfigError

/-- The error in words. -/
def message : ConfigError → String
  | .zeroCapacity => "channel capacity must be greater than zero"
  | .zeroErrorCapacity => "channel error capacity must be greater than zero"
  | .zeroLimit => "buffer limit must be greater than zero"
  | .zeroInterval => "buffer flush interval must be greater than zero"
  | .zeroThreshold => "rate limiter threshold must be greater than zero"
  | .zeroPeriod => "rate limiter period must be greater than zero"

end ConfigError

/-- The settings of a channel. -/
structure ChannelConfig where
  /-- How many items may wait in the channel. -/
  capacity : Nat := 1000
  /-- How many unread errors its sideband keeps. -/
  errorCapacity : Nat := 1024
  deriving DecidableEq, Repr

namespace ChannelConfig

instance : Inhabited ChannelConfig := ⟨{}⟩

/-- Refuses settings of zero. -/
def validate (config : ChannelConfig) : Except ConfigError Unit :=
  if config.capacity = 0 then .error .zeroCapacity
  else if config.errorCapacity = 0 then .error .zeroErrorCapacity
  else .ok ()

/-- The settings as a record of their fields. -/
def shown (config : ChannelConfig) : Text.Shown :=
  .record "ChannelConfig"
    [("capacity", .number config.capacity), ("error_capacity", .number config.errorCapacity)]

end ChannelConfig

/-- The settings of a buffer. -/
structure BufferConfig where
  /-- How many pending items set off a flush. -/
  limit : Nat := 100
  /-- The time between periodic flushes. -/
  interval : Duration := .ofSeconds 5
  deriving DecidableEq, Repr

namespace BufferConfig

instance : Inhabited BufferConfig := ⟨{}⟩

/-- Refuses settings of zero. -/
def validate (config : BufferConfig) : Except ConfigError Unit :=
  if config.limit = 0 then .error .zeroLimit
  else if config.interval.isZero then .error .zeroInterval
  else .ok ()

/-- The settings as a record of their fields. -/
def shown (config : BufferConfig) : Text.Shown :=
  .record "BufferConfig"
    [("limit", .number config.limit), ("interval", .plain config.interval.text)]

end BufferConfig

/-- The settings of a token bucket. -/
structure RateConfig where
  /-- How many permits there are in a window. -/
  threshold : Nat := 4
  /-- The length of a window. -/
  period : Duration := .ofSeconds 3
  deriving DecidableEq, Repr

namespace RateConfig

instance : Inhabited RateConfig := ⟨{}⟩

/-- Refuses settings of zero. -/
def validate (config : RateConfig) : Except ConfigError Unit :=
  if config.threshold = 0 then .error .zeroThreshold
  else if config.period.isZero then .error .zeroPeriod
  else .ok ()

/-- The settings as a record of their fields. -/
def shown (config : RateConfig) : Text.Shown :=
  .record "RateLimiterConfig"
    [("threshold", .number config.threshold), ("period", .plain config.period.text)]

end RateConfig

/-- The settings of a writer: those of its channel and of its buffer. -/
structure WriterConfig where
  /-- The settings of the channel that writes go into. -/
  channel : ChannelConfig := {}
  /-- The settings of the buffer that gathers batches. -/
  buffer : BufferConfig := {}
  deriving DecidableEq, Repr

namespace WriterConfig

instance : Inhabited WriterConfig := ⟨{}⟩

/-- Refuses settings of zero, in the channel before the buffer. -/
def validate (config : WriterConfig) : Except ConfigError Unit := do
  config.channel.validate
  config.buffer.validate

/-- The settings as a record of their fields. -/
def shown (config : WriterConfig) : Text.Shown :=
  .record "WriterConfig" [("channel", config.channel.shown), ("buffer", config.buffer.shown)]

end WriterConfig

/-- A promise that the maker of a primitive has broken. It is no error to be handled, and ends the
program that makes it. -/
inductive BrokenContract where
  /-- A channel was to be made without room for one item. -/
  | channelCapacity
  /-- A sideband was to be made without room for one error. -/
  | sidebandCapacity
  /-- A buffer was to be made that would flush at every item. -/
  | bufferLimit
  /-- A buffer was to be made that would flush without pause. -/
  | bufferInterval
  /-- A token bucket was to be made that never admits anything. -/
  | bucketThreshold
  /-- A token bucket was to be made with a window of no length. -/
  | bucketPeriod
  deriving DecidableEq, Repr

namespace BrokenContract

/-- The last words of the program. -/
def message : BrokenContract → String
  | .channelCapacity => "Channel::new bad capacity"
  | .sidebandCapacity => "Sideband::new bad capacity"
  | .bufferLimit => "AutoFlushBuffer::new bad limit"
  | .bufferInterval => "AutoFlushBuffer::new bad interval"
  | .bucketThreshold => "TokenBucket::new bad threshold"
  | .bucketPeriod => "TokenBucket::new bad period"

end BrokenContract

/-- Why a primitive could not be made: its settings were refused, or its maker broke a promise. -/
inductive Refusal where
  | config (error : ConfigError)
  | contract (broken : BrokenContract)
  deriving DecidableEq, Repr

end Backpressure
