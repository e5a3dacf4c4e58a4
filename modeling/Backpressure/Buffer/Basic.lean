import Backpressure.Buffer.Flush
import Backpressure.Config.Basic

/-!
# Batching buffers

A buffer gathers items until its limit is reached or its interval has passed, and then hands all
of them over as one batch. At most one batch is on its way at any time; completed deliveries are
counted as rounds.
-/

namespace Backpressure

/-- How far the periodic trigger of a buffer is in its life. One thread at most may be ending it,
and holds the lock on it while it waits for the end. -/
inductive Ticker where
  /-- It runs and nobody has told it to stop. -/
  | running
  /-- It has been told to stop, and a thread waits for its end. -/
  | stopping
  /-- It has ended, and the thread that waits has not noticed. -/
  | ended
  /-- It has ended, and nobody waits. -/
  | stopped
  deriving DecidableEq, Repr

/-- Counts of completed deliveries. -/
structure Tally where
  /-- Batches that the sink accepted. -/
  deliveredBatches : Nat := 0
  /-- Items in batches that the sink accepted. -/
  deliveredItems : Nat := 0
  /-- Batches on which the sink failed. -/
  failedBatches : Nat := 0
  /-- Items in batches on which the sink failed. -/
  failedItems : Nat := 0
  deriving DecidableEq, Repr

/-- How many deliveries are complete. -/
def Tally.batches (t : Tally) : Nat := t.deliveredBatches + t.failedBatches

/-- The counts after one more delivery. -/
def Tally.add (t : Tally) (size : Nat) (accepted : Bool) : Tally :=
  if accepted then
    { t with
      deliveredBatches := t.deliveredBatches + 1, deliveredItems := t.deliveredItems + size }
  else
    { t with failedBatches := t.failedBatches + 1, failedItems := t.failedItems + size }

/-- A buffer that gathers items into batches. -/
structure Buffer (α : Type) where
  /-- How many pending items set off a flush. -/
  limit : Nat
  /-- The time between periodic flushes. -/
  interval : Duration
  /-- The items for the next batch, oldest first. -/
  pending : List α
  /-- Is a batch on its way to the sink? -/
  flushing : Bool
  /-- How many deliveries have been completed. -/
  round : Nat
  /-- What became of the completed deliveries. -/
  tally : Tally
  /-- The periodic trigger. -/
  ticker : Ticker
  /-- The limit leaves room for one item. -/
  limit_pos : 0 < limit
  /-- There is time between periodic flushes. -/
  interval_pos : 0 < interval.nanos

namespace Buffer

variable {α : Type}

/-- A buffer without items that has delivered nothing yet. -/
def empty (limit : Nat) (interval : Duration) (limit_pos : 0 < limit)
    (interval_pos : 0 < interval.nanos) : Buffer α :=
  { limit, interval, pending := [], flushing := false, round := 0, tally := {}, ticker := .running,
    limit_pos, interval_pos }

/-- A buffer with this limit and interval. A zero breaks the contract, in the limit first. -/
def create (limit : Nat) (interval : Duration) : Except BrokenContract (Buffer α) :=
  if h : 0 < limit then
    if h' : 0 < interval.nanos then .ok (empty limit interval h h') else .error .bufferInterval
  else .error .bufferLimit

/-- A buffer with these settings, once they are checked. -/
def ofConfig (config : BufferConfig) : Except Refusal (Buffer α) := do
  config.validate.mapError .config
  (create config.limit config.interval).mapError .contract

/-- How many items are pending. -/
def length (b : Buffer α) : Nat := b.pending.length

/-- Is nothing pending? -/
def isEmpty (b : Buffer α) : Bool := b.pending.isEmpty

/-- Are enough items pending for a batch? -/
def isDue (b : Buffer α) : Bool := b.limit ≤ b.pending.length

/-- The buffer with one more pending item. -/
def append (b : Buffer α) (item : α) : Buffer α := { b with pending := b.pending ++ [item] }

/-- The buffer whose pending items are now on their way. -/
def take (b : Buffer α) : Buffer α := { b with pending := [], flushing := true }

/-- The buffer once a delivery is complete. -/
def complete (b : Buffer α) (size : Nat) (accepted : Bool) : Buffer α :=
  { b with flushing := false, round := b.round + 1, tally := b.tally.add size accepted }

/-- The pending items and the counts as a record. -/
def shownStats (b : Buffer α) : Text.Shown :=
  .record "Stats"
    [("pending", .number b.length), ("delivered_batches", .number b.tally.deliveredBatches),
      ("delivered_items", .number b.tally.deliveredItems),
      ("failed_batches", .number b.tally.failedBatches),
      ("failed_items", .number b.tally.failedItems)]

/-- The buffer as a record of its fields. -/
def shown (b : Buffer α) : Text.Shown :=
  .record "AutoFlushBuffer"
    [("limit", .number b.limit), ("interval", .plain b.interval.text), ("stats", b.shownStats)]

end Buffer

end Backpressure
