import Mathlib.Data.List.Basic
import Backpressure.Proofs.Writer.Batching

/-!
# A writer whose sink accepts everything

Where the sink accepts every batch that it is called with, no delivery has failed, and the batches
that it has accepted are those from whose delivery it has returned. The pump and the periodic
trigger neither close the channel nor touch its errors, so that both are left to the clients.
-/

namespace Backpressure

/-! ### Failed deliveries -/

namespace Buffer

variable {α : Type} {b : Buffer α} {now : Instant} {position : Position α} {input : Input}
  {move : Step α} {l l' : Layout (monitor α)} {allowed : Event (monitor α) → Prop}

/-- The sink accepts its batch, if this is the end of its call. -/
def Input.Accepts (input : Input) : Prop :=
  ∀ outcome, input = .outcome outcome → outcome = .accepted

/-- A step that tells of the end of a sink's call was given that end. -/
theorem input_of_returned {batch : List α} {outcome : SinkOutcome}
    (moves : (monitor α).step b now position input = some move)
    (hmem : Note.returned batch outcome ∈ move.notes) : input = .outcome outcome := by
  cases effect_of_moves moves with
  | @deliver errand batch' ended =>
    cases input with
    | outcome given =>
      have hgiven := congrArg Move.notes (Option.some.inj moves)
      rw [← hgiven] at hmem
      cases List.mem_singleton.1 hmem
      rfl
    | _ => contradiction
  | add | take | call | record => cases List.mem_singleton.1 hmem
  | aside noOffer free samePending sameFlushing sameRound sameTally sameLimit stays quiet =>
    have haside := quiet _ hmem
    contradiction

/-- How many of the complete deliveries the sink did not accept. -/
def failures (notes : List (Nat × Note α)) : Nat := (completed notes).countP (!·.accepted)

/-- Every step counts the failed deliveries. -/
theorem failures_step (hledger : Ledger l) (h : l.state.tally.failedBatches = failures l.notes)
    (hstep : l.Step allowed l') : l'.state.tally.failedBatches = failures l'.notes := by
  cases hstep with
  | call => exact h
  | @move thread wakee input position now move asked here moves =>
    cases effect_of_moves moves with
    | add | take | call | deliver => exact h
    | @record errand size accepted =>
      obtain ⟨batch, _, hcarried, _⟩ := hledger.flight.of_carries here rfl
      have hcompleted : completed ((thread, Note.recorded size accepted) :: l.notes) =
          completed l.notes ++ [⟨thread, batch, accepted⟩] := by
        simp [completed, hcarried]
      change (l.state.tally.add size accepted).failedBatches =
        (completed ((thread, Note.recorded size accepted) :: l.notes)).countP (!·.accepted)
      rw [hcompleted, List.countP_append]
      cases accepted with
      | true => exact h
      | false => exact congrArg (· + 1) h
    | aside noOffer free samePending sameFlushing sameRound sameTally sameLimit stays quiet =>
      have hsame : completed (move.record thread ++ l.notes) = completed l.notes :=
        completed_append (isAside_of_mem_record quiet)
      rw [failures, hsame]
      exact (congrArg Tally.failedBatches sameTally).trans h

end Buffer

namespace Writer

variable {α : Type} {w : Writer α} {now : Instant} {position place : Position α}
  {input : Buffer.Input} {move : Step α} {purposes : Buffer.Purpose → Prop}
  {s : System (monitor α)} {fits : Buffer.Input → Prop}

/-- What may happen to a writer whose steps are given some inputs only, and whose clients only look
at its buffer. -/
def Served (fits : Buffer.Input → Prop) : Event (monitor α) → Prop
  | .step _ input _ => fits input
  | event => Client (· = .inspect) event

theorem client_of_served {event : Event (monitor α)} (h : Served fits event) :
    Client (· = .inspect) event := by
  cases event with
  | step => trivial
  | _ => exact h

theorem untimed_of_served (hfits : ∀ input, fits input → input ≠ .tick) {event : Event (monitor α)}
    (h : Served fits event) : Untimed event := by
  cases event with
  | step thread input wakee => exact hfits input h
  | _ => exact h

/-- The buffer of a writer counts the failed deliveries. -/
theorem failures_of_reachable {l : Layout (monitor α)} {allowed : Event (monitor α) → Prop}
    (h : (system w now).layout.Reachable allowed l) (hpending : w.buffer.pending = [])
    (hresting : w.buffer.flushing = false) (htally : w.buffer.tally = {}) :
    l.state.buffer.tally.failedBatches = Buffer.failures ((bufferPart α).layout l).notes := by
  have hstart :=
    Writer.ledger (.start : (system w now).layout.Reachable allowed _) hpending hresting
  have hnone : ((bufferPart α).layout (system w now).layout).state.tally.failedBatches =
      Buffer.failures ((bufferPart α).layout (system w now).layout).notes :=
    congrArg Tally.failedBatches htally
  exact (((bufferPart α).reachable h).invariant
    (P := fun l => Buffer.Ledger l ∧ l.state.tally.failedBatches = Buffer.failures l.notes)
    ⟨hstart, hnone⟩ fun ⟨hledger, hcount⟩ hstep =>
      ⟨hledger.step hstep, Buffer.failures_step hledger hcount hstep⟩).2

/-- A step that tells of the buffer is a step of the buffer. -/
theorem exists_of_bufferNote {note : Buffer.Note α}
    (moves : (monitor α).step w now position input = some move)
    (hmem : note ∈ move.notes.filterMap Note.ofBuffer?) :
    ∃ task p bufferMove, position = .buffer task p ∧
      (Buffer.monitor α).step w.buffer now p input = some bufferMove ∧ note ∈ bufferMove.notes := by
  cases position with
  | buffer task p =>
    obtain ⟨bufferMove, hmoves, rfl⟩ := Option.map_eq_some_iff.1 moves
    rw [Move.embed, filterMap_ofBuffer?_buffer] at hmem
    exact ⟨task, p, bufferMove, rfl, hmoves, hmem⟩
  | channel task p =>
    cases moves
    rw [stepChannel, Move.embed, filterMap_ofBuffer?_channel] at hmem
    contradiction
  | _ =>
    cases effect_of_moves moves
    contradiction

/-- The batch that a note says the sink accepted. -/
def Note.accepted? : Note α → Option (List α)
  | .buffer (.returned batch .accepted) => some batch
  | _ => none

section Accepting

variable (hfits : ∀ input, fits input → input.Accepts)
  (h : (system w now).ReachableBy (Served fits) s)
include hfits h

/-- A sink that accepts has accepted every batch that it has returned from. -/
theorem outcome_of_returned {thread : Nat} {batch : List α} {outcome : SinkOutcome}
    (hmem : (thread, .buffer (.returned batch outcome)) ∈ s.view.notes) : outcome = .accepted := by
  have hall : ∀ noted ∈ s.layout.notes, ∀ batch outcome,
      noted.2 = .buffer (.returned batch outcome) → outcome = .accepted := by
    refine h.layout.invariant (P := fun l : Layout (monitor α) => ∀ noted ∈ l.notes,
      ∀ batch outcome, noted.2 = .buffer (.returned batch outcome) → outcome = .accepted)
      nofun ?_
    intro l l' hbefore hstep
    cases hstep with
    | call => exact hbefore
    | @move thread wakee input position now move asked here moves =>
      intro noted hnoted batch outcome hnote
      rcases List.mem_append.1 hnoted with hnew | hold
      · rw [Move.record, List.mem_reverse, List.mem_map] at hnew
        obtain ⟨note, hrecorded, rfl⟩ := hnew
        obtain rfl : note = .buffer (.returned batch outcome) := hnote
        have htold : Buffer.Note.returned batch outcome ∈ move.notes.filterMap Note.ofBuffer? :=
          List.mem_filterMap.2 ⟨_, hrecorded, rfl⟩
        obtain ⟨task, p, bufferMove, rfl, hmoves, hmem⟩ := exists_of_bufferNote moves htold
        exact hfits input asked outcome (Buffer.input_of_returned hmoves hmem)
      · exact hbefore noted hold batch outcome hnote
  exact hall _ hmem batch outcome rfl

/-- The sink has accepted the batches that it has returned from. -/
theorem accepted_eq_sinkReturns :
    told (fun noted : Nat × Note α => noted.2.accepted?) s.view.notes =
      (sinkReturns s).map (·.2) := by
  rw [sinkReturns, told, told, List.map_reverse, List.map_filterMap]
  congr 1
  apply List.filterMap_congr
  rintro ⟨thread, note⟩ hmem
  cases note with
  | buffer note =>
    cases note with
    | returned batch outcome =>
      obtain rfl := outcome_of_returned hfits h hmem
      rfl
    | _ => rfl
  | _ => rfl

/-- No delivery has failed. -/
theorem failedBatches_eq_zero (hpending : w.buffer.pending = [])
    (hresting : w.buffer.flushing = false) (htally : w.buffer.tally = {}) :
    s.state.buffer.tally.failedBatches = 0 := by
  have hclient := h.mono fun _ => client_of_served
  have hledger := Writer.ledger hclient.layout hpending hresting
  have hcount : s.state.buffer.tally.failedBatches =
      Buffer.failures ((bufferPart α).layout s.layout).notes :=
    failures_of_reachable h.layout hpending hresting htally
  rw [hcount, Buffer.failures, List.countP_eq_zero]
  intro delivery hmem
  -- a complete delivery is one that the sink has returned from, with the batch accepted
  have hreturned := (hledger.flight.prefixes hledger.batches).2.2.mem hmem
  rw [told, List.mem_reverse, List.mem_filterMap] at hreturned
  obtain ⟨⟨thread, note⟩, hnote, hdelivery⟩ := hreturned
  obtain ⟨⟨thread', noted⟩, hnoted, hpart⟩ := List.mem_filterMap.1 hnote
  obtain ⟨note', hbuffer, hsame⟩ := Option.map_eq_some_iff.1 hpart
  cases hsame
  cases noted with
  | buffer =>
    cases hbuffer
    cases note with
    | returned batch outcome =>
      obtain rfl := outcome_of_returned hfits h hnoted
      cases hdelivery
      simp [SinkOutcome.isAccepted]
    | _ => contradiction
  | _ => contradiction

end Accepting

/-! ### What clients leave alone -/

/-- A thread that offers nothing adds nothing to the channel. -/
theorem accepts_nothing (h : Effect w now position move) (hsuits : position.Suits purposes)
    (hoffers : position.offered? = none) (thread : Nat) :
    move.notes.filterMap (fun note => accepted? (thread, note)) = [] := by
  rw [filterMap_accepted?, accepts_of_effect h hsuits]
  cases move.outcome <;> simp [hoffers]

/-- The errors of the channel change only in a call that a client makes on it. -/
theorem errors_of_effect (h : Effect w now position move) (hsuits : position.Suits purposes)
    (hother : ∀ p, position ≠ .channel .own p) :
    move.state.channel.errors = w.channel.errors := by
  cases h with
  | @channel task p channelMove moves =>
    cases task with
    | own => exact absurd rfl (hother p)
    | close =>
      obtain rfl : p = .close := hsuits
      cases moves
      simp only [Move.embed, Channel.step, Channel.stepClose]
      split <;> rfl
    | pump =>
      obtain rfl : p = .poll none := hsuits
      rcases Channel.cases_of_poll moves with ⟨_, _, _, rfl⟩ | ⟨_, _, rfl⟩ | rfl <;> rfl
  | _ => rfl

/-- The pump and the periodic trigger do not close the channel. -/
theorem closed_of_background (h : Effect w now position move) (hsuits : position.Suits purposes)
    (hrole : position.role = .pump ∨ position.role = .ticker) :
    move.state.channel.closed = w.channel.closed := by
  cases h with
  | @channel task p channelMove moves =>
    cases task with
    | own | close => rcases hrole with hrole | hrole <;> contradiction
    | pump =>
      obtain rfl : p = .poll none := hsuits
      rcases Channel.cases_of_poll moves with ⟨_, _, _, rfl⟩ | ⟨_, _, rfl⟩ | rfl <;> rfl
  | _ => rfl

/-- The pump and the periodic trigger offer nothing to the channel, and make no call on it for a
client. -/
theorem offered?_of_background (hsuits : position.Suits purposes)
    (hrole : position.role = .pump ∨ position.role = .ticker) :
    position.offered? = none ∧ ∀ p, position ≠ .channel .own p := by
  cases position with
  | channel task p =>
    cases task with
    | own | close => rcases hrole with hrole | hrole <;> contradiction
    | pump => exact ⟨rfl, nofun⟩
  | _ => exact ⟨rfl, nofun⟩

end Writer

end Backpressure
