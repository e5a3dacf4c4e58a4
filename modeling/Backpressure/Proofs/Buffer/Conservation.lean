import Backpressure.Proofs.Buffer.Ledger
import Backpressure.Proofs.History

/-!
# A buffer loses nothing

Whatever was added has been delivered, is on its way to the sink, or is pending, in the order in
which it was added, and the sink sees every batch once, as it was taken.
-/

namespace Backpressure.Buffer

variable {α : Type}

/-- The items that have been added, in the order in which the adds held the lock. -/
def additions (s : System (monitor α)) : List α := told added? s.view.notes

/-- The batches that have been taken, in order, each with the thread that took it. -/
def taken (s : System (monitor α)) : List (Nat × List α) := told taken? s.view.notes

/-- The batches that the sink has been called with, in order, each with the thread that called. -/
def sinkCalls (s : System (monitor α)) : List (Nat × List α) := told called? s.view.notes

/-- The deliveries that the sink has returned from, in order. -/
def sinkReturns (s : System (monitor α)) : List (Delivery α) := told returned? s.view.notes

/-- The deliveries that are complete, in order. -/
def deliveries (s : System (monitor α)) : List (Delivery α) := completed s.view.notes

/-- The batches that are on their way, each with the thread that carries it. -/
def inFlight (s : System (monitor α)) : List (Nat × List α) := outstanding s.view.notes

/-- The batch that a thread at this place holds. -/
def Position.batch? : Position α → Option (List α)
  | .call _ batch | .deliver _ batch => some batch
  | _ => none

/-- What a call has added, and what it has still to add, is what it was asked to add. -/
def rule (α : Type) : CallRule (monitor α) where
  stands call? position := ∀ call, call? = some call →
    call.notes.filterMap Note.added? ++ position.offered?.toList =
      (Request.offered? call.request).toList
  comes call _ :=
    call.notes.filterMap Note.added? = (Request.offered? call.request).toList
  start := by
    rintro thread request now _ ⟨⟩
    exact congrArg Option.toList (offered?_start request now)
  step := by
    intro call? position state now input move hstands moves
    obtain ⟨hadds, hnone⟩ := (effect_of_moves moves).adds
    have hcomes : ∀ call, call? = some call →
        (call.record move.notes).notes.filterMap Note.added? =
          (Request.offered? call.request).toList := by
      intro call hcall
      rw [Call.record, List.filterMap_append, hadds]
      exact hstands call hcall
    constructor
    · intro place hplace call hcall
      obtain ⟨before, hbefore, rfl⟩ := Option.map_eq_some_iff.1 hcall
      rw [hnone place hplace, Option.toList_none, List.append_nil]
      exact hcomes before hbefore
    · intro call reply hcall _
      exact hcomes call hcall

/-- Every call on a buffer adds what it was asked to add, once. -/
theorem rule_holds {b : Buffer α} {now : Instant} {s : System (monitor α)}
    (h : (system b now).Reachable s) : (rule α).Holds s := by
  refine CallRule.holds h ?_
  intro position _ call hcall
  contradiction

/-- The ledger of a new buffer is kept whatever threads do with it. -/
theorem ledger {limit : Nat} {interval : Duration} {limit_pos : 0 < limit}
    {interval_pos : 0 < interval.nanos} {now : Instant} {s : System (monitor α)}
    (h : (system (.empty limit interval limit_pos interval_pos) now).Reachable s) :
    Ledger s.layout := by
  refine Ledger.of_reachable h.reachableBy.layout rfl rfl ?_ rfl
  intro thread position hplace
  rw [System.place_layout] at hplace
  rw [List.mem_singleton.1 (placeIn_initial hplace)]
  rfl

/-- What the sink has seen of the batches: it has been called with them in the order in which they
were taken, and a delivery is complete only once the sink has returned from it. -/
theorem Flight.prefixes {l : Layout (monitor α)} (h : Flight l)
    (hbatches :
      told taken? l.notes = (completed l.notes).map Delivery.load ++ outstanding l.notes) :
    told called? l.notes <+: told taken? l.notes ∧
      (told returned? l.notes).map Delivery.load <+: told called? l.notes ∧
      completed l.notes <+: told returned? l.notes := by
  rw [hbatches]
  cases h with
  | resting _ _ _ called returned =>
    rw [called, returned]
    exact ⟨List.prefix_append _ _, List.prefix_rfl, List.prefix_rfl⟩
  | @busy thread position batch _ _ _ carried underway =>
    rw [carried]
    cases position with
    | call =>
      obtain ⟨_, called, returned⟩ := underway
      rw [called, returned]
      exact ⟨List.prefix_append _ _, List.prefix_rfl, List.prefix_rfl⟩
    | deliver =>
      obtain ⟨_, called, returned⟩ := underway
      rw [called, returned]
      exact ⟨List.prefix_rfl, List.prefix_append _ _, List.prefix_rfl⟩
    | record =>
      obtain ⟨_, called, returned⟩ := underway
      rw [called, returned, List.map_append]
      exact ⟨List.prefix_rfl, List.prefix_rfl, List.prefix_append _ _⟩
    | _ => exact absurd underway id

/-- As many batches are on their way as the buffer says, one or none. -/
theorem Flight.length_outstanding {l : Layout (monitor α)} (h : Flight l) :
    (outstanding l.notes).length = if l.state.flushing then 1 else 0 := by
  cases h with
  | resting resting _ settled _ _ => simp [resting, settled]
  | busy flushing _ _ carried _ => simp [flushing, carried]

/-- A batch that a thread holds is the outstanding one. -/
theorem Flight.outstanding_of_batch? {l : Layout (monitor α)} (h : Flight l) {thread : Nat}
    {position : Position α} {batch : List α} (here : l.place thread = some position)
    (hbatch : position.batch? = some batch) : outstanding l.notes = [(thread, batch)] := by
  have hcarries : position.carries = true := by
    cases position <;> first | rfl | contradiction
  obtain ⟨carried, _, hcarried, hunderway, _⟩ := h.of_carries here hcarries
  cases position with
  | call | deliver =>
    obtain ⟨rfl, _⟩ := hunderway
    cases hbatch
    exact hcarried
  | _ => contradiction

/-- Whatever threads and the sink do: the batches of the complete deliveries, the batch on its way
and the pending items are together what has been added, in order. One batch at most is on its way.
No batch is empty, and the sink is called with every batch as it was taken, in order and once; the
batch that a thread holds does not change until its delivery is complete. A call adds what it was
asked to add, once. -/
theorem nothing_lost {limit : Nat} {interval : Duration} {limit_pos : 0 < limit}
    {interval_pos : 0 < interval.nanos} {now : Instant} {s : System (monitor α)}
    (h : (system (.empty limit interval limit_pos interval_pos) now).Reachable s) :
    ((deliveries s).map (·.batch)).flatten ++ ((inFlight s).map (·.2)).flatten ++ s.state.pending =
        additions s ∧
      (inFlight s).length = (if s.state.flushing then 1 else 0) ∧
      taken s = (deliveries s).map Delivery.load ++ inFlight s ∧
      (∀ load ∈ taken s, load.2 ≠ []) ∧
      sinkCalls s <+: taken s ∧
      (sinkReturns s).map Delivery.load <+: sinkCalls s ∧
      deliveries s <+: sinkReturns s ∧
      (∀ thread position batch, placeIn s.threads thread = some position →
        position.batch? = some batch → inFlight s = [(thread, batch)]) ∧
      ∀ call reply, (call, reply) ∈ s.returns →
        call.notes.filterMap Note.added? = call.request.offered?.toList := by
  have hledger := ledger h
  have hbatches : taken s = (deliveries s).map Delivery.load ++ inFlight s := hledger.batches
  obtain ⟨hcalls, hreturns, hcomplete⟩ := hledger.flight.prefixes hledger.batches
  refine ⟨?_, hledger.flight.length_outstanding, hbatches, hledger.nonempty, hcalls, hreturns,
    hcomplete, ?_, ?_⟩
  · have hitems : ((taken s).map (·.2)).flatten ++ s.state.pending = additions s := hledger.items
    rw [← hitems, hbatches, List.map_append, List.flatten_append, List.map_map]
    rfl
  · intro thread position batch hplace hbatch
    rw [← System.place_layout] at hplace
    exact hledger.flight.outstanding_of_batch? hplace hbatch
  · intro call reply hreturned
    exact (rule_holds h).comes hreturned

/-- The sink breaks off on a first batch; while a second one is on its way, an item is added. -/
def addDuringDelivery : List (Event (monitor Nat)) :=
  [.arrive, .arrive, .call 1 (.add 1), .step 1 .nothing 0, .call 1 (.add 2), .step 1 .nothing 0,
    .step 1 .nothing 0, .step 1 .nothing 0, .step 1 (.outcome (.crashed none)) 0,
    .step 1 .nothing 0, .call 1 (.add 3), .step 1 .nothing 0, .call 1 (.add 4),
    .step 1 .nothing 0, .step 1 .nothing 0, .step 1 .nothing 0, .call 2 (.add 5),
    .step 2 .nothing 0]

theorem nothing_lost_addDuringDelivery :
    ∃ s, (system (.empty 2 ⟨1, by decide⟩ (by decide) (by decide)) .midrange).run
        addDuringDelivery = some s ∧
      deliveries s = [⟨1, [1, 2], false⟩] ∧ inFlight s = [(1, [3, 4])] ∧ s.state.pending = [5] ∧
      ((deliveries s).map (·.batch)).flatten ++ ((inFlight s).map (·.2)).flatten ++
        s.state.pending = additions s := by
  have hruns : ((system (.empty 2 ⟨1, by decide⟩ (by decide) (by decide)) .midrange).run
      addDuringDelivery).map (fun s => (deliveries s, inFlight s, s.state.pending)) =
      some ([⟨1, [1, 2], false⟩], [(1, [3, 4])], [5]) := by
    decide +kernel
  obtain ⟨s, hrun, hshown⟩ := Option.map_eq_some_iff.1 hruns
  simp only [Prod.mk.injEq] at hshown
  obtain ⟨hdeliveries, hflight, hpending⟩ := hshown
  exact ⟨s, hrun, hdeliveries, hflight, hpending, (nothing_lost (.run .start hrun)).1⟩

end Backpressure.Buffer
