import Backpressure.Bucket.Script
import Backpressure.Buffer.Script
import Backpressure.Channel.Script
import Backpressure.Writer.Script

/-!
# Loads

A load puts many threads to work on one primitive at once and reports what can be said of the
outcome on every schedule. Items are numbered so that each tells which producer it came from and
which of the producer's items it is.
-/

namespace Backpressure.Load

/-- How many items a producer can number. -/
def producerSpan : Nat := 1000000

/-- The items of a producer, in the order in which it produces them. -/
def produce (producer count : Nat) : List Nat :=
  (List.range count).map (producer * producerSpan + ·)

/-- Is each number greater than the one before it? -/
def isIncreasing : List Nat → Bool
  | a :: b :: rest => decide (a < b) && isIncreasing (b :: rest)
  | _ => true

/-- Does each of some producers find its items in the order in which it produced them? -/
def isOrdered (producers : Nat) (items : List Nat) : Bool :=
  (List.range producers).all fun producer =>
    isIncreasing (items.filter fun item => item / producerSpan == producer)

/-- The sum of some numbers. -/
def total (numbers : List Nat) : Nat := numbers.foldl Nat.add 0

/-- Numbers in increasing order. -/
def sorted (items : List Nat) : List Nat := items.mergeSort

/-- The names of a group of workers. -/
def names (group : String) (count : Nat) : List String :=
  (List.range count).map fun i => group ++ " " ++ toString i

/-- A group of workers with scripts of their own appears. -/
def enlistAll {S : Stage} (s : Session S) (group : String) (count : Nat)
    (script : Nat → List S.Operation) : Session S :=
  (List.range count).foldl (fun s i => s.enlist (group ++ " " ++ toString i) (script i)) s

/-- The answers of a group of workers once they have finished. -/
def joinAll {S : Stage} (s : Session S) (group : String) (count : Nat) :
    List (List S.Answer) × Session S :=
  let (answers, s) := s.join (names group count)
  (answers.map (·.getD []), s)

/-- What came of a load on a channel. -/
structure ChannelReport where
  /-- Is the channel closed? -/
  closed : Bool
  /-- How many items are left in it? -/
  length : Nat
  /-- Did every consumer find the items of each producer in order? -/
  ordered : Bool
  /-- All items that the consumers took, in increasing order. -/
  received : List Nat

/-- Producers push items into a channel while consumers take them until it is closed. -/
def onChannel (channel : Channel Nat) (producers count consumers : Nat) : ChannelReport :=
  let s := Channel.session channel
  let s := enlistAll s "consumer" consumers fun _ => [.iterate none]
  let s := enlistAll s "producer" producers fun i => [.pushAll (produce i count)]
  let (_, s) := joinAll s "producer" producers
  let (_, s) := s.perform .close
  let (answers, s) := joinAll s "consumer" consumers
  let itemsOf (answer : Channel.Answer Nat) : List Nat :=
    match answer with
    | .items items => items
    | _ => []
  let taken : List (List Nat) := answers.map fun (answers : List (Channel.Answer Nat)) =>
    answers.flatMap itemsOf
  let channel : Channel Nat := s.state
  { closed := channel.closed
    length := channel.length
    ordered := taken.all (isOrdered producers)
    received := sorted taken.flatten }

/-- What came of a load on a buffer. -/
structure BufferReport where
  /-- Was every call of the sink counted? -/
  batchesMatch : Bool
  /-- On how many batches did the sink fail? -/
  failedBatches : Nat
  /-- All items that the sink was called with, in increasing order. -/
  items : List Nat
  /-- Was every batch worth a call? -/
  noEmptyBatch : Bool
  /-- Did the sink see the items of each producer in order? -/
  ordered : Bool
  /-- How many items are still pending? -/
  pending : Nat
  /-- How many items were counted as delivered or failed? -/
  settledItems : Nat

/-- Threads add items to a buffer while others flush it five times each, and then it is shut
down. -/
def onBuffer (buffer : Buffer Nat) (threads count flushers : Nat)
    (behaviours : List SinkBehaviour) : BufferReport :=
  let s := Buffer.session buffer behaviours
  let s := enlistAll s "adder" threads fun i => [.addAll (produce i count)]
  let s := enlistAll s "flusher" flushers fun _ => List.replicate 5 .flush
  let (_, s) := joinAll s "adder" threads
  let (_, s) := joinAll s "flusher" flushers
  let (_, s) := s.perform .shutdown
  let batches : List (List Nat) := Buffer.batches s
  let buffer : Buffer Nat := s.state
  { batchesMatch := buffer.tally.batches == batches.length
    failedBatches := buffer.tally.failedBatches
    items := sorted batches.flatten
    noEmptyBatch := batches.all (!·.isEmpty)
    ordered := isOrdered threads batches.flatten
    pending := buffer.length
    settledItems := buffer.tally.deliveredItems + buffer.tally.failedItems }

/-- What came of a load on a token bucket. -/
structure BucketReport where
  /-- How many operations were admitted in each window. -/
  admitted : List Nat
  /-- How many tokens there are at the end. -/
  available : Nat

/-- In each of some windows, threads try to take tokens a number of times, and then the clock goes
on by a period. -/
def onBucket (bucket : Bucket) (threads count windows : Nat) : BucketReport :=
  let taken (answer : Bucket.Answer) : Nat :=
    match answer with
    | .truths values => values.count true
    | _ => 0
  let window (progress : List Nat × Session Bucket.stage) (_ : Nat) :
      List Nat × Session Bucket.stage :=
    let s := enlistAll progress.2 "taker" threads fun _ => [.tryAcquires count]
    let (answers, s) := joinAll s "taker" threads
    let admitted := answers.map fun (answers : List Bucket.Answer) => total (answers.map taken)
    (progress.1 ++ [total admitted], (s.perform (.advance bucket.period)).2)
  let (admitted, s) :=
    (List.range windows).foldl window ([], Bucket.session bucket (.manual bucket.checkpoint))
  match s.perform .available with
  | (some (.count available), _) => { admitted, available }
  | _ => { admitted, available := 0 }

/-- What came of a load on a writer. -/
structure WriterReport where
  /-- The sizes of the batches that the sink was called with, in order. -/
  batchSizes : List Nat
  /-- How many items the sink accepted. -/
  deliveredItems : Nat
  /-- All items that the sink was called with, in increasing order. -/
  items : List Nat
  /-- Did the sink see the items of each producer in order? -/
  ordered : Bool
  /-- How many items the sink had accepted when each of the closing threads was done. -/
  seenAfterClose : List Nat

/-- Producers write items to a writer, and then threads close it all at once. -/
def onWriter (writer : Writer Nat) (producers count closers : Nat) : WriterReport :=
  let s := Writer.session writer []
  let s := enlistAll s "producer" producers fun i => [.writeAll (produce i count)]
  let (_, s) := joinAll s "producer" producers
  let s := enlistAll s "closer" closers fun _ => [.close, .buffer .stats]
  let (answers, s) := joinAll s "closer" closers
  let seen (answer : Writer.Answer Nat) : Option Nat :=
    match answer with
    | .buffer (.stats buffer) => some buffer.tally.deliveredItems
    | _ => none
  let batches : List (List Nat) := Writer.batches s
  let writer : Writer Nat := s.state
  { batchSizes := batches.map (·.length)
    deliveredItems := writer.buffer.tally.deliveredItems
    items := sorted batches.flatten
    ordered := isOrdered producers batches.flatten
    seenAfterClose := answers.flatMap fun (answers : List (Writer.Answer Nat)) =>
      answers.filterMap seen }

end Backpressure.Load
