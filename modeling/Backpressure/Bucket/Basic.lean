import Backpressure.Config.Basic

/-!
# Token buckets

A token bucket admits at most a threshold of operations in each window of time. The window is
fixed: it begins at a checkpoint, and the first reading of the clock at least a period later begins
the next one, with all tokens back and none carried over.
-/

namespace Backpressure

/-- A bucket of tokens for the present window. -/
structure Bucket where
  /-- How many tokens a window begins with. -/
  threshold : Nat
  /-- The length of a window. -/
  period : Duration
  /-- The tokens that are left. -/
  tokens : Nat
  /-- The clock reading at which the window began. -/
  checkpoint : Instant
  /-- A window admits something. -/
  threshold_pos : 0 < threshold
  /-- A window has some length. -/
  period_pos : 0 < period.nanos

namespace Bucket

/-- A full bucket whose first window begins at a reading of the clock. A zero breaks the contract,
in the threshold first. -/
def create (threshold : Nat) (period : Duration) (reading : Instant) :
    Except BrokenContract Bucket :=
  if h : 0 < threshold then
    if h' : 0 < period.nanos then
      .ok { threshold, period, tokens := threshold, checkpoint := reading, threshold_pos := h,
            period_pos := h' }
    else .error .bucketPeriod
  else .error .bucketThreshold

/-- A full bucket with these settings, once they are checked. -/
def ofConfig (config : RateConfig) (reading : Instant) : Except Refusal Bucket := do
  config.validate.mapError .config
  (create config.threshold config.period reading).mapError .contract

/-- Does a reading of the clock begin a new window? -/
def isOver (b : Bucket) (reading : Instant) : Bool :=
  b.period.nanos ≤ (reading.since b.checkpoint).nanos

/-- The bucket at a reading of the clock, which may begin a new window. -/
def refill (b : Bucket) (reading : Instant) : Bucket :=
  if b.isOver reading then { b with tokens := b.threshold, checkpoint := reading } else b

/-- The bucket with one token less, if there is one. -/
def take? (b : Bucket) : Option Bucket :=
  if 0 < b.tokens then some { b with tokens := b.tokens - 1 } else none

/-- The first reading that begins a new window, if there is such a reading. -/
def windowEnd? (b : Bucket) : Option Instant := b.checkpoint.add? b.period

/-- The time from a reading to the end of the window, if the window ends. -/
def untilRefill (b : Bucket) (reading : Instant) : Option Duration :=
  b.windowEnd?.map (·.since reading)

/-- The moment at which a wait that begins now should look again: when the window ends, as far as
the clock goes along with time, or when the deadline comes. -/
def wakeAt (b : Bucket) (reading now : Instant) (deadline : Deadline) : Deadline :=
  Deadline.earlier ((b.untilRefill reading).bind now.add?) deadline

/-- The bucket as a record of its fields. The moment of the checkpoint is not shown. -/
def shown (b : Bucket) : Text.Shown :=
  .record "TokenBucket"
    [("threshold", .number b.threshold), ("period", .plain b.period.text),
      ("window", .record "Window"
        [("tokens", .number b.tokens), ("checkpoint", .plain "Instant(..)")])]

end Bucket

end Backpressure
