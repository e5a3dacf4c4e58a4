import Backpressure.Proofs.Buffer.Completion
import Backpressure.Proofs.Buffer.SingleFlight

/-!
# What the counts of a buffer count

A batch is counted when its delivery is recorded, which is later than the moment at which it left
the pending items. In between its thread carries it, and its items are neither counted nor pending.
With them the counts make up all that has been added, and each count is that of the batches on which
the sink ended in one of the two ways.
-/

namespace Backpressure

/-- No count of the one is above that of the other. -/
instance : LE Tally :=
  ⟨fun t t' => t.deliveredBatches ≤ t'.deliveredBatches ∧ t.deliveredItems ≤ t'.deliveredItems ∧
    t.failedBatches ≤ t'.failedBatches ∧ t.failedItems ≤ t'.failedItems⟩

/-- The counts are those of deliveries with these sizes, each accepted or not. -/
structure Tally.Counts (tally : Tally) (sizes : List (Nat × Bool)) : Prop where
  deliveredBatches : tally.deliveredBatches = sizes.countP (·.2)
  deliveredItems : tally.deliveredItems = ((sizes.filter (·.2)).map (·.1)).sum
  failedBatches : tally.failedBatches = sizes.countP (!·.2)
  failedItems : tally.failedItems = ((sizes.filter (!·.2)).map (·.1)).sum

namespace Tally.Counts

variable {tally tally' : Tally} {sizes sizes' : List (Nat × Bool)}

/-- One more delivery is counted once. -/
theorem add (h : tally.Counts sizes) (size : Nat) (accepted : Bool) :
    (tally.add size accepted).Counts (sizes ++ [(size, accepted)]) := by
  obtain ⟨deliveredBatches, deliveredItems, failedBatches, failedItems⟩ := h
  cases accepted with
  | true => constructor <;> simp [Tally.add, *]
  | false => constructor <;> simp [Tally.add, *]

/-- Every delivery is counted on one of the two sides. -/
theorem batches_eq (h : tally.Counts sizes) : tally.batches = sizes.length := by
  rw [Tally.batches, h.deliveredBatches, h.failedBatches,
    List.length_eq_countP_add_countP (·.2)]
  congr 2
  funext entry
  cases entry.2 <;> rfl

theorem items_eq (h : tally.Counts sizes) :
    tally.deliveredItems + tally.failedItems = (sizes.map (·.1)).sum := by
  rw [h.deliveredItems, h.failedItems]
  clear h
  induction sizes with
  | nil => rfl
  | cons first rest ih =>
    obtain ⟨size, accepted⟩ := first
    cases accepted <;> simp <;> omega

/-- Where no delivery is empty, there are no more of them than items. -/
theorem length_le (h : tally.Counts sizes) (hsome : ∀ size ∈ sizes, 1 ≤ size.1) :
    sizes.length ≤ tally.deliveredItems + tally.failedItems := by
  rw [h.items_eq]
  clear h
  induction sizes with
  | nil => exact Nat.le_refl 0
  | cons first rest ih =>
    rw [List.forall_mem_cons] at hsome
    rw [List.length_cons, List.map_cons, List.sum_cons, Nat.add_comm]
    exact Nat.add_le_add hsome.1 (ih hsome.2)

/-- More deliveries have no lower counts. -/
theorem mono (h : tally.Counts sizes) (h' : tally'.Counts sizes') (hbegins : sizes <+: sizes') :
    tally ≤ tally' := by
  obtain ⟨new, rfl⟩ := hbegins
  refine ⟨?_, ?_, ?_, ?_⟩
  · rw [h.deliveredBatches, h'.deliveredBatches, List.countP_append]
    exact Nat.le_add_right _ _
  · rw [h.deliveredItems, h'.deliveredItems, List.filter_append, List.map_append, List.sum_append]
    exact Nat.le_add_right _ _
  · rw [h.failedBatches, h'.failedBatches, List.countP_append]
    exact Nat.le_add_right _ _
  · rw [h.failedItems, h'.failedItems, List.filter_append, List.map_append, List.sum_append]
    exact Nat.le_add_right _ _

end Tally.Counts

namespace Buffer

variable {α : Type}

/-- The size of a delivered batch, and whether the sink accepted it. -/
def Delivery.size (delivery : Delivery α) : Nat × Bool :=
  (delivery.batch.length, delivery.accepted)

/-- The batch of a delivery, and whether the sink accepted it. -/
def Delivery.ending (delivery : Delivery α) : List α × Bool := (delivery.batch, delivery.accepted)

/-- The batch whose delivery has ended in the sink, with the way in which it ended. -/
def outcome? : Nat × Note α → Option (List α × SinkOutcome)
  | (_, .returned batch outcome) => some (batch, outcome)
  | _ => none

/-- The batches that the sink has returned from, in order, each with the way in which it did. -/
def outcomes (s : System (monitor α)) : List (List α × SinkOutcome) := told outcome? s.view.notes

/-- How many items a thread at this place carries in its batch. -/
def Position.load : Position α → Nat
  | .call _ batch | .deliver _ batch => batch.length
  | .record _ size _ => size
  | _ => 0

/-! ### Flushes of every kind -/

/-- What a thread at this place flushes for, if it is in a flush. -/
def Position.errand? : Position α → Option Errand
  | .enter errand | .join errand _ | .call errand _ | .deliver errand _ | .record errand _ _ =>
    some errand
  | _ => none

/-- The same place in a flush that a caller has asked for. -/
def Position.asked : Position α → Position α
  | .enter errand => .enter (.flush errand.deadline)
  | .join errand round => .join (.flush errand.deadline) round
  | .record errand size accepted => .record (.flush errand.deadline) size accepted
  | position => position

/-- What a step tells the caller of a flush, if it tells him anything. -/
def told? (move : Step α) : Option (Except FlushTimeoutError Flush) :=
  match move.outcome with
  | .reply (.flushed result) => some result
  | _ => none

/-- What a flush comes to by a step at this place, if it ends with the step. An add and the
periodic trigger learn of their flushes what a caller would. -/
def result? (b : Buffer α) (now : Instant) (position : Position α) (input : Input) :
    Option (Except FlushTimeoutError Flush) := (step b now position.asked input).bind told?

/-- A flush that has ended: who made it, what for, and what it came to. -/
structure Ended where
  thread : Nat
  errand : Errand
  result : Except FlushTimeoutError Flush

/-- The flush that ends with a step of a thread at this place, if one does. -/
def endedAt? (b : Buffer α) (now : Instant) (thread : Nat) (position : Position α) (input : Input) :
    Option Ended :=
  position.errand?.bind fun errand => (result? b now position input).map (Ended.mk thread errand)

/-- The flush that an event brings to its end, if it brings one. -/
def ended? (s : System (monitor α)) : Event (monitor α) → Option Ended
  | .step thread input _ =>
    (placeIn s.threads thread).bind (endedAt? s.state s.now thread · input)
  | _ => none

/-- The systems that some schedule leads to, with the flushes that have ended on the way, in
order. -/
inductive Flushes (start : System (monitor α)) : List Ended → System (monitor α) → Prop
  | start : Flushes start [] start
  | next {flushes : List Ended} {s s' : System (monitor α)} {event : Event (monitor α)} :
      Flushes start flushes s → s.next event = some s' →
      Flushes start (flushes ++ (ended? s event).toList) s'

/-- Who has made a delivery in a flush that has ended, and what it came to. -/
def Ended.delivery? (ended : Ended) : Option (Nat × Flush) :=
  match ended.result with
  | .ok (.delivered size) => some (ended.thread, .delivered size)
  | .ok (.failed size) => some (ended.thread, .failed size)
  | _ => none

/-- What the caller has been told of a flush that has ended, if it has a caller. -/
def Ended.answer? (ended : Ended) : Option (Nat × Except FlushTimeoutError Flush) :=
  match ended.errand with
  | .flush _ | .shutdown => some (ended.thread, ended.result)
  | .add | .tick => none

/-- What a call was told of its flush, with the thread that made it. -/
def flushOf? (returned : Call (monitor α) × Reply α) :
    Option (Nat × Except FlushTimeoutError Flush) :=
  match returned.2 with
  | .flushed result => some (returned.1.thread, result)
  | _ => none

/-! ### One step -/

section Moves

variable {b : Buffer α} {now : Instant} {position : Position α} {errand : Errand} {input : Input}
  {move : Step α} {thread : Nat}

/-- How a flush goes on by a step: it comes to something and its thread goes on accordingly, or it
gives up, or its thread is still in it. -/
inductive Turn (result : Option (Except FlushTimeoutError Flush)) (errand : Errand)
    (outcome : Outcome (Position α) (Reply α) Condition) : Prop
  | comes {flush : Flush} (result : result = some (.ok flush))
      (goesOn : outcome = finish errand flush)
  | expired {error : FlushTimeoutError} (result : result = some (.error error))
      (tells : outcome = .reply (.flushed (.error error)))
  | lasts {place : Position α} (result : result = none) (stays : place.errand? = some errand)
      (there : (Phase.ofOutcome (M := monitor α) outcome).place? = some place)

theorem turn_wait (errand : Errand) (round : Nat) :
    Turn (told? (wait b now (.flush errand.deadline) round)) errand
      (wait b now errand round).outcome := by
  have hdeadline : (Errand.flush errand.deadline).deadline = errand.deadline := rfl
  unfold wait
  rw [hdeadline]
  split
  · exact .expired rfl rfl
  · exact .lasts rfl rfl rfl

/-- Every step of a thread in a flush is a turn of the flush. -/
theorem turn_of_moves (herrand : position.errand? = some errand)
    (moves : (monitor α).step b now position input = some move) :
    Turn (result? b now position input) errand move.outcome := by
  cases position with
  | enter =>
    cases herrand
    cases moves
    change Turn (told? (stepEnter b now (.flush errand.deadline))) errand _
    unfold stepEnter
    by_cases hbusy : b.flushing = true
    · rw [if_pos hbusy, if_pos hbusy]
      exact turn_wait errand b.round
    · rw [if_neg hbusy, if_neg hbusy]
      by_cases hempty : b.pending.isEmpty = true
      · rw [if_pos hempty, if_pos hempty]
        exact .comes rfl rfl
      · rw [if_neg hempty, if_neg hempty]
        exact .lasts rfl rfl rfl
  | join e round =>
    cases herrand
    cases moves
    change Turn (told? (stepJoin b now (.flush errand.deadline) round)) errand _
    unfold stepJoin
    by_cases hround : b.round = round
    · rw [if_pos hround, if_pos hround]
      exact turn_wait errand round
    · rw [if_neg hround, if_neg hround]
      exact .comes rfl rfl
  | call =>
    cases herrand
    cases moves
    exact .lasts rfl rfl rfl
  | deliver =>
    cases herrand
    cases input <;> cases moves
    exact .lasts rfl rfl rfl
  | record =>
    cases herrand
    cases moves
    exact .comes rfl rfl
  | append | recheck | stop | await | launch | select | inspect => contradiction

/-- A flush has made a delivery where it records one, and nowhere else. -/
theorem delivery?_endedAt
    (hother : ∀ errand size accepted, position ≠ .record errand size accepted) :
    (endedAt? b now thread position input).bind Ended.delivery? = none := by
  cases position with
  | enter errand =>
    change ((told? (stepEnter b now (.flush errand.deadline))).map _).bind _ = none
    unfold stepEnter wait
    split
    · split <;> rfl
    · split <;> rfl
  | join errand round =>
    change ((told? (stepJoin b now (.flush errand.deadline) round)).map _).bind _ = none
    unfold stepJoin wait
    split
    · split <;> rfl
    · rfl
  | deliver => cases input <;> rfl
  | record errand size accepted => exact absurd rfl (hother errand size accepted)
  | call | append | recheck | stop | await | launch | select | inspect => rfl

theorem delivery?_endedAt_record {size : Nat} {accepted : Bool} :
    (endedAt? b now thread (.record errand size accepted) input).bind Ended.delivery? =
      some (thread, .ofDelivery size accepted) := by
  cases accepted <;> rfl

theorem purpose_of_errand? (herrand : position.errand? = some errand) :
    position.purpose = errand.purpose := by
  cases position <;> cases herrand <;> rfl

/-- Outside of a flush no call is told of one. -/
theorem told?_of_outside (houtside : position.errand? = none)
    (moves : (monitor α).step b now position input = some move) : told? move = none := by
  cases position with
  | append item =>
    cases moves
    by_cases hdue : (b.append item).isDue = true <;> simp [stepAppend, told?, hdue]
  | recheck =>
    cases moves
    unfold stepRecheck
    split <;> rfl
  | stop =>
    simp only [step, stepStop] at moves
    split at moves <;> cases moves <;> rfl
  | await =>
    simp only [step, stepAwait] at moves
    split at moves <;> cases moves
    rfl
  | launch | inspect =>
    cases moves
    rfl
  | select =>
    simp only [step, stepSelect] at moves
    split at moves
    · cases moves
      rfl
    · split at moves <;> cases moves
      rfl
    · contradiction
  | enter | join | call | deliver | record => contradiction

/-- The flush of a caller tells him what it comes to, and that of an add or of the periodic trigger
tells nobody. -/
theorem answer?_endedAt (moves : (monitor α).step b now position input = some move) :
    (endedAt? b now thread position input).bind Ended.answer? =
      (told? move).map (thread, ·) := by
  cases herrand : position.errand? with
  | none =>
    rw [endedAt?, herrand, told?_of_outside herrand moves]
    rfl
  | some errand =>
    rw [endedAt?, herrand, Option.bind_some]
    cases turn_of_moves herrand moves with
    | @comes flush result goesOn =>
      rw [result, told?, goesOn]
      cases errand with
      | add => cases flush <;> rfl
      | flush | shutdown | tick => rfl
    | expired result tells =>
      have hallows := allows_of_moves moves tells
      rw [purpose_of_errand? herrand] at hallows
      rw [result, told?, tells]
      cases errand with
      | flush | shutdown => rfl
      | add | tick => contradiction
    | lasts result stays there =>
      rw [result, told?]
      split
      · rename_i houtcome
        rw [houtcome] at there
        contradiction
      · rfl

/-- A call that returns has been told of a flush what its last step tells. -/
theorem flushOf?_endedBy {journal : List (Entry (monitor α))}
    (hopen : position.purpose ≠ .tick → ∃ call, openCall thread journal = some call)
    (moves : (monitor α).step b now position input = some move) :
    (endedBy thread move journal).bind flushOf? = (told? move).map (thread, ·) := by
  cases houtcome : move.outcome with
  | reply reply =>
    have hcalled : position.purpose ≠ .tick := by
      intro htick
      have hallows := allows_of_moves moves houtcome
      rw [htick] at hallows
      exact hallows
    obtain ⟨call, hcall⟩ := hopen hcalled
    cases thread_of_openCall hcall
    rw [endedBy, told?, houtcome, hcall]
    cases reply <;> rfl
  | _ =>
    rw [endedBy, told?, houtcome]
    rfl

/-- A step records a delivery, which is counted, or leaves the deliveries and the counts alone. -/
theorem delivery_of_moves {l : Layout (monitor α)} (hledger : Ledger l)
    (here : l.place thread = some position)
    (moves : (monitor α).step l.state now position input = some move) :
    (∃ errand batch accepted, position = .record errand batch.length accepted ∧
        completed (move.record thread ++ l.notes) =
          completed l.notes ++ [⟨thread, batch, accepted⟩] ∧
        move.state.tally = l.state.tally.add batch.length accepted) ∨
      (∀ errand size accepted, position ≠ .record errand size accepted) ∧
        completed (move.record thread ++ l.notes) = completed l.notes ∧
        move.state.tally = l.state.tally := by
  cases effect_of_moves moves with
  | add | take | call | deliver => exact .inr ⟨nofun, rfl, rfl⟩
  | @record errand size accepted =>
    obtain ⟨batch, _, carried, ⟨rfl, _⟩, _⟩ := hledger.flight.of_carries here rfl
    refine .inl ⟨errand, batch, accepted, rfl, ?_, rfl⟩
    simp [stepRecord, Move.record, completed, carried]
  | aside noOffer free samePending sameFlushing sameRound sameTally sameLimit stays quiet =>
    refine .inr ⟨?_, completed_append (isAside_of_mem_record quiet), sameTally⟩
    rintro errand size accepted rfl
    contradiction

end Moves

/-! ### Whole runs -/

section New

variable {limit : Nat} {interval : Duration} {limit_pos : 0 < limit}
  {interval_pos : 0 < interval.nanos} {now : Instant} {s s' : System (monitor α)}
  (h : (system (.empty limit interval limit_pos interval_pos) now).Reachable s)
include h

/-- The counts of a buffer are those of its deliveries. -/
theorem counts_deliveries : s.state.tally.Counts ((deliveries s).map Delivery.size) := by
  have hboth : Ledger s.layout ∧
      s.layout.state.tally.Counts ((completed s.layout.notes).map Delivery.size) := by
    refine h.reachableBy.layout.invariant (P := fun l : Layout (monitor α) =>
      Ledger l ∧ l.state.tally.Counts ((completed l.notes).map Delivery.size))
      ⟨ledger .start, ⟨rfl, rfl, rfl, rfl⟩⟩ ?_
    rintro l l' ⟨hledger, hcounts⟩ hstep
    refine ⟨hledger.step hstep, ?_⟩
    cases hstep with
    | call => exact hcounts
    | @move thread wakee input position moment move asked here moves =>
      obtain ⟨errand, batch, accepted, rfl, hcompleted, htally⟩ | ⟨_, hcompleted, htally⟩ :=
        delivery_of_moves hledger here moves
      · rw [hcompleted, htally, List.map_append]
        exact hcounts.add batch.length accepted
      · rw [hcompleted, htally]
        exact hcounts
  exact hboth.2

/-- The sink has returned from the complete deliveries, in the way in which they are recorded. -/
theorem deliveries_outcomes : (deliveries s).map Delivery.ending =
    ((outcomes s).take s.state.round).map fun ended => (ended.1, ended.2.isAccepted) := by
  have hsame : (sinkReturns s).map Delivery.ending =
      (outcomes s).map fun ended => (ended.1, ended.2.isAccepted) := by
    rw [sinkReturns, outcomes, told, told, List.map_reverse, List.map_reverse, List.map_filterMap,
      List.map_filterMap]
    congr 2
    funext noted
    obtain ⟨thread, note⟩ := noted
    cases note <;> rfl
  have hbegins := (deliveries_isPrefix_sinkReturns h).map Delivery.ending
  rw [List.prefix_iff_eq_take, List.length_map, ← round_eq h, hsame] at hbegins
  rw [hbegins, List.map_take]

/-- The counts of a buffer tell how the sink has ended the batches whose delivery is complete. -/
theorem counts_outcomes : s.state.tally.Counts
    (((outcomes s).take s.state.round).map fun ended => (ended.1.length, ended.2.isAccepted)) := by
  have hsizes := congrArg (List.map fun ending : List α × Bool => (ending.1.length, ending.2))
    (deliveries_outcomes h)
  rw [List.map_map, List.map_map] at hsizes
  have hcounts := counts_deliveries h
  rwa [show (deliveries s).map Delivery.size = _ from hsizes] at hcounts

/-- What has been taken is counted or on its way, and the rest is pending. -/
theorem counts_add_pending :
    s.state.tally.deliveredItems + s.state.tally.failedItems +
      ((inFlight s).map (·.2.length)).sum + s.state.pending.length = (additions s).length := by
  have hall := congrArg List.length (batched_append_pending h)
  have hitems := (counts_deliveries h).items_eq
  rw [batched, taken_eq h, List.length_append, List.length_flatten] at hall
  simp only [List.map_append, List.map_map, List.sum_append] at hall hitems
  rw [hitems]
  exact hall

/-- Every delivery has been of an item at least. -/
theorem round_le : s.state.round ≤ (additions s).length := by
  have hsome : ∀ size ∈ (deliveries s).map Delivery.size, 1 ≤ size.1 := by
    intro size hmem
    obtain ⟨delivery, hdelivery, rfl⟩ := List.mem_map.1 hmem
    have htaken : delivery.load ∈ taken s := by
      rw [taken_eq h]
      exact List.mem_append_left _ (List.mem_map_of_mem hdelivery)
    exact List.length_pos_iff.2 ((ledger h).nonempty _ htaken)
  have hbound := (counts_deliveries h).length_le hsome
  have hall := counts_add_pending h
  rw [List.length_map, ← round_eq h] at hbound
  omega

/-- Whoever carries a batch carries the one that is on its way. -/
theorem load_of_carries {thread : Nat} {position : Position α}
    (hplace : placeIn s.threads thread = some position) (hcarries : position.carries = true) :
    ∃ batch, inFlight s = [(thread, batch)] ∧ position.load = batch.length := by
  rw [← System.place_layout] at hplace
  obtain ⟨batch, _, hcarried, hunderway, _⟩ := (ledger h).flight.of_carries hplace hcarries
  refine ⟨batch, hcarried, ?_⟩
  cases position with
  | call | deliver =>
    obtain ⟨rfl, _⟩ := hunderway
    rfl
  | record => exact hunderway.1
  | _ => contradiction

/-- No count ever falls. -/
theorem tally_le (hlater : s.Reachable s') : s.state.tally ≤ s'.state.tally :=
  (counts_deliveries h).mono (counts_deliveries (h.trans hlater))
    ((deliveries_isPrefix hlater).map Delivery.size)

/-- Nothing is missing from the counts and the pending items but what is on its way. -/
theorem counted_or_pending :
    s.state.tally.deliveredItems + s.state.tally.failedItems + s.state.pending.length ≤
        (additions s).length ∧
      (s.state.tally.deliveredItems + s.state.tally.failedItems + s.state.pending.length =
        (additions s).length ↔ inFlight s = []) := by
  have hall := counts_add_pending h
  refine ⟨by omega, ?_⟩
  constructor
  · intro hnothing
    have hsum : ((inFlight s).map (·.2.length)).sum = 0 := by omega
    -- a batch on its way is not empty
    cases hflight : inFlight s with
    | nil => rfl
    | cons load rest =>
      have htaken : load ∈ taken s := by
        rw [taken_eq h, hflight]
        exact List.mem_append_right _ (List.mem_cons_self ..)
      have hsize := List.length_pos_iff.2 ((ledger h).nonempty load htaken)
      rw [hflight, List.map_cons, List.sum_cons] at hsum
      omega
  · intro hflight
    rw [hflight, List.map_nil, List.sum_nil] at hall
    omega

/-- A snapshot shows the buffer as it is in the step that returns it. -/
theorem snapshot_of_returned {call : Call (monitor α)} {b : Buffer α}
    (hreturned : (call, .snapshot b) ∈ s.returns) :
    ∃ moment after input wakee,
      (system (.empty limit interval limit_pos interval_pos) now).Reachable moment ∧
      moment.next (.step call.thread input wakee) = some after ∧ after.Reachable s ∧
      after.returns = moment.returns ++ [(call, .snapshot b)] ∧ moment.state = b := by
  obtain ⟨moment, after, input, wakee, position, move, hmoment, hnext, hlater, hreturns, hplace,
    moves, houtcome⟩ := System.Reachable.exists_reply h hreturned
  have hallows := allows_of_moves moves houtcome
  obtain rfl : position = .inspect := by
    apply eq_inspect_of_purpose
    cases hpurpose : position.purpose <;> rw [hpurpose] at hallows <;>
      simp [Purpose.Allows] at hallows ⊢
  cases moves
  cases houtcome
  exact ⟨moment, after, input, wakee, hmoment, hnext, hlater, hreturns, rfl⟩

end New

theorem filterMap_toList {β γ : Type} (ended? : Option β) (f : β → Option γ) :
    ended?.toList.filterMap f = (ended?.bind f).toList := by
  cases ended? with
  | none => rfl
  | some ended => cases hended : f ended <;> simp [hended]

/-- What schedules lead to with their flushes is what they lead to. -/
theorem Flushes.reachable {start s : System (monitor α)} {flushes : List Ended}
    (h : Flushes start flushes s) : start.Reachable s := by
  induction h with
  | start => exact .start
  | next _ hnext ih => exact .next ih hnext

/-- The flushes that have ended tell of every delivery once, and of what the callers have been
told. -/
theorem flushes_tell {limit : Nat} {interval : Duration} {limit_pos : 0 < limit}
    {interval_pos : 0 < interval.nanos} {now : Instant} {s : System (monitor α)}
    {flushes : List Ended}
    (h : Flushes (system (.empty limit interval limit_pos interval_pos) now) flushes s) :
    flushes.filterMap Ended.delivery? = (deliveries s).map (fun delivery =>
        (delivery.thread, .ofDelivery delivery.batch.length delivery.accepted)) ∧
      flushes.filterMap Ended.answer? = s.returns.filterMap flushOf? := by
  induction h with
  | start => exact ⟨rfl, rfl⟩
  | @next flushes s s' event hflushes hnext ih =>
    have hreachable := hflushes.reachable
    cases System.next_eq_some_iff.1 hnext with
    | elapse | arrive | call | rouse =>
      rw [show ended? s _ = none from rfl, Option.toList_none, List.append_nil]
      exact ih
    | @step thread wakee input phase position move threads here awake moves wakes =>
      have hplace : placeIn s.threads thread = some position := placeIn_of_awake here awake
      have hbefore : s.returns = (returnedCalls s.journal).reverse := rfl
      have hended : ended? s (.step thread input wakee) =
          endedAt? s.state s.now thread position input := by
        rw [ended?, hplace, Option.bind_some]
      have hanswers := flushOf?_endedBy
        (fun hpurpose => (exists_openCall hreachable hplace hpurpose).imp fun _ => And.left) moves
      have hdeliveries : deliveries ⟨s.now, move.state,
          threads.set thread (.ofOutcome move.outcome),
          (System.entries thread move).reverse ++ s.journal⟩ =
            completed (move.record thread ++ s.view.notes) :=
        congrArg completed (filterMap_note?_append thread move s.journal)
      rw [returns_entries, ← hbefore, hended, hdeliveries, List.filterMap_append,
        List.filterMap_append, List.filterMap_append, filterMap_toList, filterMap_toList,
        filterMap_toList, ih.1, ih.2, answer?_endedAt moves, hanswers]
      refine ⟨?_, rfl⟩
      rw [← System.place_layout] at hplace
      obtain ⟨errand, batch, accepted, rfl, hcompleted, _⟩ | ⟨hother, hcompleted, _⟩ :=
        delivery_of_moves (ledger hreachable) hplace moves
      · rw [delivery?_endedAt_record]
        have hsame := congrArg (List.map fun delivery =>
          (delivery.thread, Flush.ofDelivery delivery.batch.length delivery.accepted)) hcompleted
        rw [List.map_append] at hsame
        exact hsame.symm
      · rw [delivery?_endedAt hother]
        exact (List.append_nil _).trans (congrArg (List.map _) hcompleted).symm

/-- Every schedule tells which flushes have ended on the way. -/
theorem exists_flushes {start s : System (monitor α)} (h : start.Reachable s) :
    ∃ flushes, Flushes start flushes s := by
  induction h with
  | start => exact ⟨[], .start⟩
  | next _ hnext ih =>
    obtain ⟨flushes, hflushes⟩ := ih
    exact ⟨_, hflushes.next hnext⟩

/-- Whatever threads and the sink do: what has been added has been counted, is on its way, or is
pending. The counts are those of the batches that the sink has returned from in the complete
deliveries, on the one side where it accepted them and on the other where it returned an error or
broke off; there are as many deliveries as rounds, and no more than items. Each delivery is told of
by the one flush that made it, with the size of the batch, and no other flush tells of one, whether
a caller asked for it or an add or the periodic trigger made it; a thread goes on by what its flush
has come to. No count ever falls. A snapshot shows what has been added but for the batch that is on
its way while it is taken. -/
theorem counts_account_for_all {limit : Nat} {interval : Duration} {limit_pos : 0 < limit}
    {interval_pos : 0 < interval.nanos} {now : Instant} {s : System (monitor α)}
    (h : (system (.empty limit interval limit_pos interval_pos) now).Reachable s) :
    s.state.tally.deliveredItems + s.state.tally.failedItems +
        ((inFlight s).map (·.2.length)).sum + s.state.pending.length = (additions s).length ∧
      (∀ thread position, placeIn s.threads thread = some position → position.carries = true →
        ∃ batch, inFlight s = [(thread, batch)] ∧ position.load = batch.length) ∧
      s.state.tally.deliveredBatches + s.state.tally.failedBatches = s.state.round ∧
      s.state.round = (deliveries s).length ∧ s.state.round ≤ (additions s).length ∧
      (deliveries s).map Delivery.ending =
        ((outcomes s).take s.state.round).map (fun ended => (ended.1, ended.2.isAccepted)) ∧
      s.state.tally.Counts
        (((outcomes s).take s.state.round).map fun ended => (ended.1.length, ended.2.isAccepted)) ∧
      (∃ flushes, Flushes (system (.empty limit interval limit_pos interval_pos) now) flushes s) ∧
      (∀ flushes, Flushes (system (.empty limit interval limit_pos interval_pos) now) flushes s →
        flushes.filterMap Ended.delivery? = (deliveries s).map (fun delivery =>
          (delivery.thread, .ofDelivery delivery.batch.length delivery.accepted)) ∧
        flushes.filterMap Ended.answer? = s.returns.filterMap flushOf?) ∧
      (∀ thread input wakee s' position errand, s.next (.step thread input wakee) = some s' →
        placeIn s.threads thread = some position → position.errand? = some errand →
        ∃ move, (monitor α).step s.state s.now position input = some move ∧
          Turn (result? s.state s.now position input) errand move.outcome) ∧
      (∀ s', s.Reachable s' → s.state.tally ≤ s'.state.tally) ∧
      ∀ call b, (call, .snapshot b) ∈ s.returns → ∃ moment after input wakee,
        (system (.empty limit interval limit_pos interval_pos) now).Reachable moment ∧
        moment.next (.step call.thread input wakee) = some after ∧ after.Reachable s ∧
        after.returns = moment.returns ++ [(call, .snapshot b)] ∧
        b.tally.deliveredItems + b.tally.failedItems + b.pending.length ≤
          (additions moment).length ∧
        (b.tally.deliveredItems + b.tally.failedItems + b.pending.length =
          (additions moment).length ↔ inFlight moment = []) := by
  have hbatches : s.state.tally.batches = s.state.round := by
    rw [(counts_deliveries h).batches_eq, List.length_map, round_eq h]
  refine ⟨counts_add_pending h, fun _ _ => load_of_carries h, hbatches, round_eq h, round_le h,
    deliveries_outcomes h, counts_outcomes h, exists_flushes h, fun _ => flushes_tell, ?_,
    fun _ => tally_le h, ?_⟩
  · intro thread input wakee s' position errand hnext hplace herrand
    obtain ⟨_, move, hthere, moves, _⟩ := System.moves_of_next hnext
    cases hplace.symm.trans hthere
    exact ⟨move, moves, turn_of_moves herrand moves⟩
  · intro call b hreturned
    obtain ⟨moment, after, input, wakee, hmoment, hnext, hlater, hreturns, rfl⟩ :=
      snapshot_of_returned h hreturned
    obtain ⟨hle, hequal⟩ := counted_or_pending hmoment
    exact ⟨moment, after, input, wakee, hmoment, hnext, hlater, hreturns, hle, hequal⟩

/-- The sink breaks off on a first batch and accepts a second one; while a third one is on its way,
an item is added and a snapshot taken. -/
def snapshotDuringDelivery : List (Event (monitor Nat)) :=
  [.arrive, .arrive, .call 1 (.add 1), .step 1 .nothing 0, .call 1 (.add 2), .step 1 .nothing 0,
    .step 1 .nothing 0, .step 1 .nothing 0, .step 1 (.outcome (.crashed none)) 0,
    .step 1 .nothing 0, .call 1 (.add 3), .step 1 .nothing 0, .call 1 .flush, .step 1 .nothing 0,
    .step 1 .nothing 0, .step 1 (.outcome .accepted) 0, .step 1 .nothing 0,
    .call 1 (.add 4), .step 1 .nothing 0, .call 1 (.add 5), .step 1 .nothing 0,
    .step 1 .nothing 0, .call 2 (.add 6), .step 2 .nothing 0, .call 2 .inspect, .step 2 .nothing 0]

theorem counts_account_for_all_snapshotDuringDelivery :
    ∃ s, (system (.empty 2 ⟨1, by decide⟩ (by decide) (by decide)) .midrange).run
        snapshotDuringDelivery = some s ∧
      inFlight s = [(1, [4, 5])] ∧ s.state.pending = [6] ∧ s.state.tally = ⟨1, 1, 1, 2⟩ ∧
      outcomes s = [([1, 2], .crashed none), ([3], .accepted)] ∧
      s.state.tally.deliveredItems + s.state.tally.failedItems +
        ((inFlight s).map (·.2.length)).sum + s.state.pending.length = (additions s).length := by
  have hruns : ((system (.empty 2 ⟨1, by decide⟩ (by decide) (by decide)) .midrange).run
      snapshotDuringDelivery).map (fun s => decide (inFlight s = [(1, [4, 5])] ∧
        s.state.pending = [6] ∧ s.state.tally = ⟨1, 1, 1, 2⟩ ∧
        outcomes s = [([1, 2], .crashed none), ([3], .accepted)])) = some true := by
    decide +kernel
  obtain ⟨s, hrun, hshown⟩ := Option.map_eq_some_iff.1 hruns
  obtain ⟨hflight, hpending, htally, houtcomes⟩ := of_decide_eq_true hshown
  exact ⟨s, hrun, hflight, hpending, htally, houtcomes,
    (counts_account_for_all (.run .start hrun)).1⟩

end Buffer

end Backpressure
