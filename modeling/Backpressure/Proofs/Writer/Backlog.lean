import Backpressure.Proofs.Buffer.Conservation
import Backpressure.Proofs.Buffer.Filling
import Backpressure.Proofs.Writer.Delivery
import Backpressure.Proofs.Writer.Draining

/-!
# How far a writer can fall behind

The pump is the only thread that adds to the buffer of a writer. An add that fills the buffer does
not return before there is room again, so that the pump takes no further item from the channel
while the buffer is full. The items on their way keep to the capacity of the channel and the limit
of the buffer, and at most one batch is with the sink.
-/

namespace Backpressure

/-! ### A buffer to which one thread adds -/

namespace Buffer

variable {α : Type}

/-- What is pending where one thread adds: the buffer is full only while that thread owes it a
flush, and so no batch is larger than the limit. -/
structure Backlog (adder limit : Nat) (m : Layout (monitor α)) : Prop where
  /-- The limit stays what it was. -/
  limited : m.state.limit = limit
  /-- Only an add that owes a flush fills the buffer up. -/
  pending : m.state.pending.length <
    limit + ((m.place adder).any Position.owesFlush).toNat
  /-- No batch is larger than the limit. -/
  taken : ∀ load ∈ told taken? m.notes, load.2.length ≤ limit

namespace Backlog

variable {adder limit : Nat} {m m' : Layout (monitor α)}

theorem length_pending_le (h : Backlog adder limit m) : m.state.pending.length ≤ limit := by
  have hpending := h.pending
  have hone := Bool.toNat_le ((m.place adder).any Position.owesFlush)
  omega

/-- A thread that does not owe a flush leaves room. -/
theorem length_pending_lt (h : Backlog adder limit m)
    (hfree : (m.place adder).any Position.owesFlush = false) : m.state.pending.length < limit := by
  have hpending := h.pending
  rwa [hfree, Bool.toNat_false, Nat.add_zero] at hpending

/-- Nobody owes a flush at the beginning of a call. -/
theorem owesFlush_of_begins {place? : Option (Position α)} (h : (monitor α).Begins place?) :
    place?.any Position.owesFlush = false := by
  rcases h with rfl | ⟨request, now, rfl⟩
  · rfl
  · cases request <;> rfl

/-- A turn of the buffer in which nobody but the one thread owes a flush keeps the bounds. -/
theorem turn (h : Backlog adder limit m) (hturn : m.Turn m')
    (hbefore : ∀ {thread position}, m.place thread = some position →
      position.owesFlush = true → thread = adder)
    (hafter : ∀ {thread position}, m'.place thread = some position →
      position.owesFlush = true → thread = adder) : Backlog adder limit m' := by
  cases hturn with
  | @begins thread place? free begins =>
    refine ⟨h.limited, ?_, h.taken⟩
    have hsame : (Function.update m.place thread place? adder).any Position.owesFlush =
        (m.place adder).any Position.owesFlush := by
      by_cases ht : adder = thread
      · subst ht
        rw [Function.update_self, free, owesFlush_of_begins begins]
        rfl
      · rw [Function.update_of_ne ht]
    rw [hsame]
    exact h.pending
  | @moves thread position now input move place? here moves after =>
    -- Whatever the call does next, it owes a flush only where its step leaves it in the add.
    have howes : place?.any Position.owesFlush =
        (Phase.ofOutcome (M := monitor α) move.outcome).place?.any Position.owesFlush := by
      rcases after with rfl | ⟨hover, hbegins⟩
      · rfl
      · rw [hover, owesFlush_of_begins hbegins]
        rfl
    have hcount : ((Function.update m.place thread place? adder).any Position.owesFlush).toNat +
          position.owesFlush.toNat =
        ((m.place adder).any Position.owesFlush).toNat +
          ((Phase.ofOutcome (M := monitor α) move.outcome).place?.any
            Position.owesFlush).toNat := by
      by_cases ht : adder = thread
      · subst ht
        rw [Function.update_self, here, Option.any_some, howes, Nat.add_comm]
      · have hnot : position.owesFlush = false := by
          by_contra howing
          exact ht (hbefore here (Bool.of_not_eq_false howing)).symm
        have hnot' : place?.any Position.owesFlush = false := by
          by_contra howing
          obtain ⟨p, rfl, hp⟩ := (Option.any_eq_true _ _).1 (Bool.of_not_eq_false howing)
          exact ht (hafter (Function.update_self _ _ _) hp).symm
        rw [Function.update_of_ne ht, hnot, ← howes, hnot']
    have hlimit : move.state.limit = limit := (limit_of_moves moves).trans h.limited
    refine ⟨hlimit, ?_, ?_⟩
    · have hpending := h.pending
      rw [← h.limited] at hpending
      have hlater := owed_of_moves hpending moves hcount
      rwa [hlimit] at hlater
    · rw [told_record]
      intro load hmem
      rcases List.mem_append.1 hmem with hold | hnew
      · exact h.taken load hold
      · rcases taken_of_moves thread moves with hnone | hone
        · rw [hnone] at hnew
          contradiction
        · rw [hone, List.mem_singleton] at hnew
          rw [hnew]
          exact h.length_pending_le

end Backlog

end Buffer

/-! ### The buffer of a writer -/

namespace Writer

variable {α : Type} {w : Writer α} {now : Instant} {s : System (monitor α)}
  {l : Layout (monitor α)} {purposes : Buffer.Purpose → Prop}

/-- In the buffer of a writer, nobody but the pump owes a flush. -/
theorem Posts.role_of_owesFlush (h : Posts purposes l) (hpurposes : ¬ purposes .add) {thread : Nat}
    {p : Buffer.Position α} (hplace : ((bufferPart α).layout l).place thread = some p)
    (howes : p.owesFlush = true) :
    ∃ position, l.place thread = some position ∧ position.role = .pump := by
  obtain ⟨position, hposition, hinside⟩ := Option.bind_eq_some_iff.1 hplace
  have hadd := (Buffer.purpose_of_owesFlush howes).1
  cases position with
  | buffer task p' =>
    cases hinside
    obtain rfl := eq_pump_of_add (h.suits hposition) hpurposes hadd
    exact ⟨_, hposition, rfl⟩
  | _ => contradiction

/-- The buffer of a writer keeps to its bounds. -/
theorem backlog_of_reachable (hpending : w.buffer.pending = []) (hpurposes : ¬ purposes .add)
    (h : (system w now).layout.Reachable (Client purposes) l) :
    Buffer.Backlog 1 w.buffer.limit ((bufferPart α).layout l) := by
  induction h with
  | start =>
    refine ⟨rfl, ?_, ?_⟩
    · have hnone : ((bufferPart α).layout (system w now).layout).state.pending = [] := hpending
      rw [hnone]
      exact Nat.lt_of_lt_of_le w.buffer.limit_pos (Nat.le_add_right _ _)
    · intro load hmem
      contradiction
  | step hreachable hstep ih =>
    have hposts := Posts.of_reachable hreachable
    have hposts' := Posts.of_reachable (hreachable.step hstep)
    refine ih.turn ((bufferPart α).turn_of_step hstep) ?_ ?_
    · intro thread p hplace howes
      obtain ⟨_, hposition, hpump⟩ := hposts.role_of_owesFlush hpurposes hplace howes
      exact hposts.pump hposition hpump
    · intro thread p hplace howes
      obtain ⟨_, hposition, hpump⟩ := hposts'.role_of_owesFlush hpurposes hplace howes
      exact hposts'.pump hposition hpump

/-! ### What is on its way -/

/-- The batch that a note says was taken, with the thread that took it. -/
def taken? (noted : Nat × Note α) : Option (Nat × List α) :=
  noted.2.ofBuffer?.bind fun note => Buffer.taken? (noted.1, note)

/-- The items that have been taken into a batch, in order. -/
def batched (s : System (monitor α)) : List α := ((told taken? s.view.notes).map (·.2)).flatten

/-- The items whose call of the sink has returned, in order. -/
def settled (s : System (monitor α)) : List α := ((sinkReturns s).map (·.2)).flatten

/-- The accepted items that have not been taken into a batch, in order: those that are pending in
the buffer, the one in the pump's hand, and those in the channel. -/
def untaken (s : System (monitor α)) : List α :=
  s.state.buffer.pending ++ hand (placeIn s.threads) ++ s.state.channel.queue

/-- Where the pump has an item in its hand, it does not owe a flush. -/
theorem length_hand_le (place : Nat → Option (Position α)) :
    (hand place).length ≤ 1 ∧
      (hand place ≠ [] →
        ((place 1).bind Position.inBuffer?).any Buffer.Position.owesFlush = false) := by
  unfold hand
  cases hplace : place 1 with
  | none => exact ⟨Nat.zero_le _, fun hsome => absurd rfl hsome⟩
  | some position =>
    rw [Option.bind_some, Option.bind_some]
    constructor
    · cases position.inHand? <;> simp
    · intro hsome
      cases position with
      | buffer task p =>
        cases howes : p.owesFlush with
        | false => simpa [Position.inBuffer?] using howes
        | true =>
          have hnone : (Position.buffer task p).inHand? = none := by
            cases task <;> simp [Position.inHand?, (Buffer.purpose_of_owesFlush howes).2]
          rw [hnone] at hsome
          exact absurd rfl hsome
      | _ => rfl

/-- What has been added to the buffer and what is in the pump's hand leave no more room than the
limit has. -/
theorem length_pending_hand_le {limit : Nat}
    (h : Buffer.Backlog 1 limit ((bufferPart α).layout l)) :
    l.state.buffer.pending.length + (hand l.place).length ≤ limit := by
  have hpending : l.state.buffer.pending.length ≤ limit := h.length_pending_le
  obtain ⟨hone, hfree⟩ := length_hand_le l.place
  by_cases hempty : hand l.place = []
  · rw [hempty]
    exact hpending
  · have hroom : l.state.buffer.pending.length < limit := h.length_pending_lt (hfree hempty)
    omega

theorem batched_eq (s : System (monitor α)) :
    batched s =
      ((told Buffer.taken? ((bufferPart α).layout s.layout).notes).map (·.2)).flatten := by
  rw [(bufferPart α).told_notes Buffer.taken? s.layout]
  rfl

/-- Of the batches that were taken, all but the last one are settled, if not that one too. -/
theorem taken_eq_sinkReturns (h : Buffer.Ledger ((bufferPart α).layout s.layout)) :
    ∃ rest, told Buffer.taken? ((bufferPart α).layout s.layout).notes = sinkReturns s ++ rest ∧
      rest.length ≤ 1 := by
  obtain ⟨hcalls, hreturns, hcomplete⟩ := h.flight.prefixes h.batches
  rw [← sinkReturns_eq] at hreturns
  obtain ⟨rest, hrest⟩ := hreturns.trans hcalls
  refine ⟨rest, hrest.symm, ?_⟩
  have hlength := congrArg List.length hrest
  have hbatches := congrArg List.length h.batches
  have hone := h.flight.length_outstanding
  have hfewer := hcomplete.length_le
  rw [sinkReturns_eq] at hlength
  simp only [List.length_append, List.length_map] at hlength hbatches
  split at hone <;> omega

/-- The items that were taken into a batch and are not settled keep to the limit. -/
theorem batched_eq_append {adder limit : Nat}
    (h : Buffer.Ledger ((bufferPart α).layout s.layout))
    (hbacklog : Buffer.Backlog adder limit ((bufferPart α).layout s.layout)) :
    ∃ rest, batched s = settled s ++ rest ∧ rest.length ≤ limit := by
  obtain ⟨rest, htaken, hone⟩ := taken_eq_sinkReturns h
  refine ⟨(rest.map (·.2)).flatten, ?_, ?_⟩
  · rw [batched_eq, htaken, List.map_append, List.flatten_append, settled]
  · match rest, hone with
    | [], _ => exact Nat.zero_le _
    | [load], _ =>
      have hmem : load ∈ told Buffer.taken? ((bufferPart α).layout s.layout).notes := by
        rw [htaken]
        exact List.mem_append_right _ (List.mem_singleton_self load)
      have hload := hbacklog.taken load hmem
      rwa [List.map_singleton, List.flatten_singleton]

/-- What has been accepted was taken into a batch, or is on its way there, in order. -/
theorem accepted_eq_append {capacity : Nat} (hdrain : Drain s.layout)
    (hledger : Buffer.Ledger ((bufferPart α).layout s.layout))
    (hconserved : Channel.Conserved capacity ((channelPart α).layout s.layout)) :
    accepted s = batched s ++ untaken s := by
  calc accepted s
      = told Channel.taken? ((channelPart α).layout s.layout).notes ++ s.state.channel.queue := by
        rw [accepted_eq, hconserved.conserved]
        rfl
    _ = told Buffer.added? ((bufferPart α).layout s.layout).notes ++
          hand (placeIn s.threads) ++ s.state.channel.queue := by
        rw [hdrain.moved, System.place_layout]
    _ = batched s ++ s.state.buffer.pending ++ hand (placeIn s.threads) ++
          s.state.channel.queue := by
        rw [batched_eq, ← hledger.items]
        rfl
    _ = batched s ++ untaken s := by
        simp only [untaken, List.append_assoc]

/-- A writer never falls far behind. Its clients may do anything but take items from its channel or
add to its buffer. Then the accepted items that are not in a batch yet, which are those in the
channel, in the pump's hand and pending in the buffer, are no more than the capacity of the channel
and the limit of the buffer together. Every batch that the sink is called with has an item and no
more than the limit. And the accepted items whose call of the sink has not returned are, in order,
the last ones, and at most one limit more. -/
theorem never_far_behind {config : WriterConfig} (hvalid : config.validate = .ok ()) :
    ∃ w : Writer α, ofConfig config = .ok w ∧
      ∀ now s, (system w now).ReachableBy (Client (· ≠ .add)) s →
        accepted s = batched s ++ untaken s ∧
        (untaken s).length ≤ config.channel.capacity + config.buffer.limit ∧
        (∀ load ∈ sinkCalls s, 0 < load.2.length ∧ load.2.length ≤ config.buffer.limit) ∧
        settled s <+: accepted s ∧
        (accepted s).length ≤
          (settled s).length + (config.channel.capacity + 2 * config.buffer.limit) := by
  obtain ⟨hcapacity, herrors, hlimit, hinterval, hmade⟩ := ofConfig_eq_ok (α := α) hvalid
  refine ⟨_, hmade, ?_⟩
  intro now s h
  have hconserved := conserved h.layout rfl
  have hledger := ledger h.layout rfl rfl
  have hdrain := Drain.of_reachable rfl (by simp) h.layout
  have hbacklog := backlog_of_reachable rfl (by simp) h.layout
  have haccepted := accepted_eq_append hdrain hledger hconserved
  have huntaken : (untaken s).length ≤ config.channel.capacity + config.buffer.limit := by
    have hgathered : s.state.buffer.pending.length + (hand s.layout.place).length ≤
        config.buffer.limit := length_pending_hand_le hbacklog
    have hqueue : s.state.channel.queue.length ≤ config.channel.capacity :=
      Nat.le_trans hconserved.bounded (Nat.le_of_eq hconserved.capacity)
    rw [System.place_layout] at hgathered
    simp only [untaken, List.length_append]
    omega
  obtain ⟨rest, hbatched, hrest⟩ := batched_eq_append hledger hbacklog
  have hlast : rest.length ≤ config.buffer.limit := hrest
  refine ⟨haccepted, huntaken, ?_, ?_, ?_⟩
  · intro load hmem
    have hcalls := (hledger.flight.prefixes hledger.batches).1
    rw [sinkCalls_eq] at hmem
    have hload := hcalls.mem hmem
    exact ⟨List.length_pos_iff.2 (hledger.nonempty load hload), hbacklog.taken load hload⟩
  · rw [haccepted, hbatched, List.append_assoc]
    exact List.prefix_append _ _
  · rw [haccepted, hbatched, List.length_append, List.length_append]
    omega

/-- Settings of a writer with room for one item and batches of two. -/
def twoInBatch : WriterConfig := { channel := { capacity := 1 }, buffer := { limit := 2 } }

/-- Two other threads flush the buffer, each in time to spare the pump a delivery, while a third
one writes. -/
def flushedByOthers : List (Event (monitor Nat)) :=
  [.arrive, .arrive, .arrive, .call 2 (.write 1), .step 2 .nothing 0, .step 1 .nothing 0,
    .step 1 .nothing 0, .call 3 (.buffer .flush), .step 3 .nothing 0, .step 3 .nothing 0,
    .call 2 (.write 2), .step 2 .nothing 0, .step 1 .nothing 0, .step 1 .nothing 0,
    .call 2 (.write 3), .step 2 .nothing 0, .step 1 .nothing 0, .step 1 .nothing 0,
    .step 1 .nothing 0, .step 3 (.outcome .accepted) 0, .step 3 .nothing 0,
    .call 4 (.buffer .flush), .step 4 .nothing 0, .step 4 .nothing 0, .step 1 .nothing 0,
    .step 1 .nothing 0, .call 2 (.write 4), .step 2 .nothing 0, .step 1 .nothing 0,
    .step 1 .nothing 0, .call 2 (.write 5), .step 2 .nothing 0, .step 1 .nothing 0,
    .step 1 .nothing 0, .step 1 .nothing 0, .call 2 (.write 6), .step 2 .nothing 0]

theorem never_far_behind_flushedByOthers :
    ∃ w s, ofConfig twoInBatch = .ok w ∧ (system w .midrange).run flushedByOthers = some s ∧
      sinkCalls s = [(3, [1]), (4, [2, 3])] ∧ settled s = [1] ∧
      s.state.buffer.pending = [4, 5] ∧ s.state.channel.queue = [6] ∧
      (accepted s).length = (settled s).length + (1 + 2 * 2) ∧
      (untaken s).length ≤ 1 + 2 ∧ (accepted s).length ≤ (settled s).length + (1 + 2 * 2) := by
  obtain ⟨w, hmade, hall⟩ := never_far_behind (α := Nat)
    (show twoInBatch.validate = .ok () from rfl)
  have hruns : ((ofConfig twoInBatch).toOption.bind fun w =>
      ((system w .midrange).run flushedByOthers).map fun s =>
        decide (sinkCalls s = [(3, [1]), (4, [2, 3])] ∧ settled s = [1] ∧
          s.state.buffer.pending = [4, 5] ∧ s.state.channel.queue = [6] ∧
          (accepted s).length = (settled s).length + (1 + 2 * 2))) = some true := by
    decide +kernel
  rw [hmade] at hruns
  simp only [Except.toOption, Option.bind_some, Option.map_eq_some_iff,
    decide_eq_true_eq] at hruns
  obtain ⟨s, hrun, hcalls, hsettled, hpending, hqueue, htight⟩ := hruns
  have hallowed : ∀ event ∈ flushedByOthers, Client (· ≠ .add) event := by
    simp [flushedByOthers, Client, Buffer.Request.purpose]
  obtain ⟨_, huntaken, _, _, hbehind⟩ := hall .midrange s (.run .start hallowed hrun)
  exact ⟨w, s, hmade, hrun, hcalls, hsettled, hpending, hqueue, htight, huntaken, hbehind⟩

end Writer

end Backpressure
