import Backpressure.Proofs.Buffer.Conservation
import Backpressure.Proofs.Course

/-!
# A buffer makes progress

What has been added, taken and delivered is a history that only grows. A round ends with each
delivery that is recorded, so that the rounds of a buffer number its complete deliveries.
-/

namespace Backpressure.Buffer

variable {α : Type}

/-- The items that have been taken into batches, in order. -/
def batched (s : System (monitor α)) : List α := ((taken s).map (·.2)).flatten

/-- The items of the batches that the sink has returned from, in order. -/
def settled (s : System (monitor α)) : List α := ((sinkReturns s).map (·.batch)).flatten

/-! ### Histories grow -/

theorem flatten_isPrefix {lists lists' : List (List α)} (h : lists <+: lists') :
    lists.flatten <+: lists'.flatten := by
  obtain ⟨new, rfl⟩ := h
  rw [List.flatten_append]
  exact List.prefix_append _ _

theorem completed_isPrefix {notes notes' : List (Nat × Note α)} (h : notes <:+ notes') :
    completed notes <+: completed notes' := by
  obtain ⟨new, rfl⟩ := h
  induction new with
  | nil => exact List.prefix_rfl
  | cons noted rest ih =>
    obtain ⟨thread, note⟩ := noted
    cases note with
    | recorded => exact ih.trans (List.prefix_append _ _)
    | _ => exact ih

section Growth

variable {s s' : System (monitor α)} (h : s.Reachable s')
include h

theorem additions_isPrefix : additions s <+: additions s' := told_isPrefix _ h.notes_isSuffix

theorem taken_isPrefix : taken s <+: taken s' := told_isPrefix _ h.notes_isSuffix

theorem sinkReturns_isPrefix : sinkReturns s <+: sinkReturns s' :=
  told_isPrefix _ h.notes_isSuffix

theorem deliveries_isPrefix : deliveries s <+: deliveries s' :=
  completed_isPrefix h.notes_isSuffix

theorem batched_isPrefix : batched s <+: batched s' :=
  flatten_isPrefix ((taken_isPrefix h).map _)

theorem settled_isPrefix : settled s <+: settled s' :=
  flatten_isPrefix ((sinkReturns_isPrefix h).map _)

end Growth

/-! ### Rounds -/

/-- The rounds of a buffer number its complete deliveries. -/
theorem round_of_step {l l' : Layout (monitor α)} {allowed : Event (monitor α) → Prop}
    (h : l.state.round = (completed l.notes).length) (hledger : Ledger l)
    (hstep : l.Step allowed l') : l'.state.round = (completed l'.notes).length := by
  cases hstep with
  | call => exact h
  | @move thread wakee input position now move asked here moves =>
    cases effect_of_moves moves with
    | add | take | call | deliver => exact h
    | @record errand size accepted =>
      obtain ⟨batch, _, carried, _⟩ := hledger.flight.of_carries here rfl
      have hcompleted : completed ((thread, Note.recorded size accepted) :: l.notes) =
          completed l.notes ++ [⟨thread, batch, accepted⟩] := by
        simp [completed, carried]
      change l.state.round + 1 =
        (completed ((thread, Note.recorded size accepted) :: l.notes)).length
      rw [hcompleted, List.length_append, h]
      rfl
    | aside noOffer free samePending sameFlushing sameRound sameTally sameLimit stays quiet =>
      rw [sameRound, h, completed_append (isAside_of_mem_record quiet)]

/-- The limit of a buffer is fixed. -/
theorem limit_of_moves {b : Buffer α} {now : Instant} {position : Position α} {input : Input}
    {move : Step α} (moves : (monitor α).step b now position input = some move) :
    move.state.limit = b.limit := by
  cases effect_of_moves moves with
  | add | take | call | deliver | record => rfl
  | aside noOffer free samePending sameFlushing sameRound sameTally sameLimit => exact sameLimit

section New

variable {limit : Nat} {interval : Duration} {limit_pos : 0 < limit}
  {interval_pos : 0 < interval.nanos} {now : Instant} {s : System (monitor α)}
  (h : (system (.empty limit interval limit_pos interval_pos) now).Reachable s)
include h

theorem limit_eq : s.state.limit = limit := by
  refine h.reachableBy.layout.invariant (P := fun l : Layout (monitor α) => l.state.limit = limit) rfl ?_
  intro l l' hlimit hstep
  cases hstep with
  | call => exact hlimit
  | move asked here moves => exact (limit_of_moves moves).trans hlimit

theorem round_eq : s.state.round = (deliveries s).length := by
  have hboth : Ledger s.layout ∧ s.layout.state.round = (completed s.layout.notes).length := by
    refine h.reachableBy.layout.invariant
      (P := fun l : Layout (monitor α) =>
        Ledger l ∧ l.state.round = (completed l.notes).length) ⟨ledger .start, rfl⟩ ?_
    rintro l l' ⟨hledger, hround⟩ hstep
    exact ⟨hledger.step hstep, round_of_step hround hledger hstep⟩
  exact hboth.2

/-- What has not been taken is pending. -/
theorem batched_append_pending : batched s ++ s.state.pending = additions s := (ledger h).items

/-- What has been taken has been delivered or is on its way. -/
theorem taken_eq : taken s = (deliveries s).map Delivery.load ++ inFlight s := (ledger h).batches

/-- A delivery is complete only once the sink has returned from it. -/
theorem deliveries_isPrefix_sinkReturns : deliveries s <+: sinkReturns s :=
  ((ledger h).flight.prefixes (ledger h).batches).2.2

end New

end Backpressure.Buffer
