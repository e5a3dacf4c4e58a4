import Backpressure.Channel.Error
import Backpressure.Channel.Sideband
import Backpressure.Config.Basic

/-!
# Bounded channels

A channel is a first-in first-out queue of bounded length that can be closed, with a sideband for
errors. Closing refuses new items for good; the items in the queue can still be taken.
-/

namespace Backpressure

/-- A bounded queue that can be closed. -/
structure Channel (α : Type) where
  /-- How many items may wait in the queue. -/
  capacity : Nat
  /-- The waiting items, oldest first. -/
  queue : List α
  /-- Has the channel been closed? -/
  closed : Bool
  /-- The errors reported beside the items. -/
  errors : Sideband
  /-- There is room for one item. -/
  capacity_pos : 0 < capacity

namespace Channel

variable {α : Type}

/-- An open channel without items and errors. -/
def empty (capacity errorCapacity : Nat) (capacity_pos : 0 < capacity)
    (errorCapacity_pos : 0 < errorCapacity) : Channel α :=
  { capacity, queue := [], closed := false, errors := .empty errorCapacity errorCapacity_pos,
    capacity_pos }

/-- A channel with these settings. A setting of zero breaks the contract. -/
def build (config : ChannelConfig) : Except BrokenContract (Channel α) :=
  if h : 0 < config.capacity then
    if h' : 0 < config.errorCapacity then .ok (empty config.capacity config.errorCapacity h h')
    else .error .sidebandCapacity
  else .error .channelCapacity

/-- A channel of some capacity, with the usual room for errors. -/
def create (capacity : Nat) : Except BrokenContract (Channel α) := build { capacity }

/-- A channel with these settings, once they are checked. -/
def ofConfig (config : ChannelConfig) : Except Refusal (Channel α) := do
  config.validate.mapError .config
  (build config).mapError .contract

/-- How many items wait. -/
def length (c : Channel α) : Nat := c.queue.length

/-- Are there no items? -/
def isEmpty (c : Channel α) : Bool := c.queue.isEmpty

/-- Is there no room? -/
def isFull (c : Channel α) : Bool := c.capacity ≤ c.queue.length

/-- The channel with one more item, if it is open and has room. -/
def tryPush (c : Channel α) (item : α) : Except (TryPushError α) (Channel α) :=
  if c.closed then .error (.closed item)
  else if c.isFull then .error (.full item)
  else .ok { c with queue := c.queue ++ [item] }

/-- The oldest item, and the channel without it, if there is an item. -/
def tryPoll (c : Channel α) : Except TryPollError (α × Channel α) :=
  match c.queue with
  | item :: queue => .ok (item, { c with queue })
  | [] => .error (if c.closed then .closed else .empty)

/-- An item is added exactly to an open channel with room, at the end of the queue. -/
theorem tryPush_eq_ok_iff {c c' : Channel α} {item : α} :
    c.tryPush item = .ok c' ↔
      c.closed = false ∧ c.queue.length < c.capacity ∧ c' = { c with queue := c.queue ++ [item] } := by
  unfold tryPush
  by_cases hclosed : c.closed = true
  · simp [hclosed]
  · by_cases hfull : c.capacity ≤ c.queue.length
    · simp [hclosed, isFull, hfull, Nat.not_lt.2 hfull]
    · simp only [isFull, hclosed, hfull, decide_false, Bool.false_eq_true, if_false,
        Except.ok.injEq]
      exact ⟨fun h => ⟨by simp, Nat.lt_of_not_le hfull, h.symm⟩, fun h => h.2.2.symm⟩

/-- An item is taken from the front of the queue, whether the channel is closed or not. -/
theorem tryPoll_eq_ok_iff {c c' : Channel α} {item : α} :
    c.tryPoll = .ok (item, c') ↔
      c.queue = item :: c'.queue ∧ c' = { c with queue := c'.queue } := by
  unfold tryPoll
  split
  · rename_i first rest heq
    simp only [Except.ok.injEq, Prod.mk.injEq, heq, List.cons.injEq]
    constructor
    · rintro ⟨rfl, rfl⟩
      simp
    · rintro ⟨⟨rfl, rfl⟩, h⟩
      exact ⟨rfl, h.symm⟩
  · simp_all

/-- The closed channel. -/
def close (c : Channel α) : Channel α := { c with closed := true }

/-- The channel as a record of its fields. -/
def shown (c : Channel α) : Text.Shown :=
  .record "Channel"
    [("len", .number c.length), ("capacity", .number c.capacity),
      ("errors", .number c.errors.unread.length), ("closed", .flag c.closed)]

end Channel

end Backpressure
