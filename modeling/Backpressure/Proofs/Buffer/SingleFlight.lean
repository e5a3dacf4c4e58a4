import Backpressure.Proofs.Buffer.Progress
import Backpressure.Proofs.Buffer.Waking

/-!
# One delivery at a time

A buffer counts as flushing exactly while one thread carries a batch. That thread never sleeps and
waits for nobody but the sink, and with its record the round is over and everybody is awake. So a
flush that sleeps for the delivery under way is not left behind by it.
-/

namespace Backpressure.Buffer

variable {α : Type}

/-- A thread is between taking a batch and recording its delivery. -/
def Carrying (s : System (monitor α)) (thread : Nat) : Prop :=
  ∃ position, placeIn s.threads thread = some position ∧ position.carries = true

/-- Where a buffer rests, the sink has seen the complete deliveries and no other. -/
theorem Flight.seen_of_rests {l : Layout (monitor α)} (h : Flight l)
    (hrests : l.state.flushing = false) :
    (∀ thread position, l.place thread = some position → position.carries = false) ∧
      told called? l.notes = (completed l.notes).map Delivery.load ∧
      told returned? l.notes = completed l.notes := by
  cases h with
  | resting _ nobody _ called returned => exact ⟨nobody, called, returned⟩
  | busy flushing =>
    rw [hrests] at flushing
    contradiction

/-- A thread that goes on in its call can take its step, whomever it wakes. -/
theorem exists_next {s : System (monitor α)} {thread : Nat} {phase : Phase (monitor α)}
    {position : Position α} {input : Input} {move : Step α}
    (here : s.threads[thread]? = some phase) (awake : phase.position? = some position)
    (moves : (monitor α).step s.state s.now position input = some move) (wakee : Nat) :
    ∃ s', s.next (.step thread input wakee) = some s' := by
  have hwakes : ∃ threads,
      System.deliverAll (M := monitor α) wakee move.signals s.threads = some threads := by
    rcases signals_of_moves moves with hsignals | hsignals
    · rw [hsignals]
      exact ⟨_, rfl⟩
    · rw [hsignals]
      exact ⟨_, rfl⟩
  obtain ⟨threads, hthreads⟩ := hwakes
  exact ⟨_, System.next_eq_some_iff.2 (.step here awake moves hthreads)⟩

section New

variable {limit : Nat} {interval : Duration} {limit_pos : 0 < limit}
  {interval_pos : 0 < interval.nanos} {now : Instant} {s s' : System (monitor α)}
  (h : (system (.empty limit interval limit_pos interval_pos) now).Reachable s)
include h

/-! ### Who carries a batch -/

theorem not_carrying_of_rests (hrests : s.state.flushing = false) (thread : Nat) :
    ¬ Carrying s thread := by
  rintro ⟨position, hplace, hcarries⟩
  rw [← System.place_layout] at hplace
  rw [((ledger h).flight.seen_of_rests hrests).1 thread position hplace] at hcarries
  contradiction

/-- A thread that carries a batch carries the one on its way, and nobody else does. -/
theorem Carrying.alone {thread : Nat} (hcarrying : Carrying s thread) :
    s.state.flushing = true ∧ ∀ t, Carrying s t → t = thread := by
  obtain ⟨position, hplace, hcarries⟩ := hcarrying
  rw [← System.place_layout] at hplace
  obtain ⟨_, hflushing, _, _, halone⟩ := (ledger h).flight.of_carries hplace hcarries
  refine ⟨hflushing, ?_⟩
  rintro t ⟨place, hthere, hcarried⟩
  rw [← System.place_layout] at hthere
  exact halone t place hthere hcarried

/-- A buffer flushes exactly while one thread carries a batch. -/
theorem flushing_iff : s.state.flushing = true ↔ ∃! thread, Carrying s thread := by
  constructor
  · intro hflushing
    cases (ledger h).flight with
    | resting resting =>
      have hrests : s.state.flushing = false := resting
      rw [hflushing] at hrests
      contradiction
    | @busy thread position batch _ here _ _ underway =>
      rw [System.place_layout] at here
      have hcarrying : Carrying s thread := ⟨position, here, underway.carries⟩
      exact ⟨thread, hcarrying, (hcarrying.alone h).2⟩
  · rintro ⟨thread, hcarrying, _⟩
    exact (hcarrying.alone h).1

/-- Between two deliveries the sink has returned from every call. -/
theorem sink_of_rests (hrests : s.state.flushing = false) :
    sinkCalls s = (deliveries s).map Delivery.load ∧ sinkReturns s = deliveries s :=
  ((ledger h).flight.seen_of_rests hrests).2

/-- The sink returns from a call before the next one begins. -/
theorem sinkCalls_alternate : (sinkReturns s).map Delivery.load <+: sinkCalls s ∧
    (sinkCalls s).length ≤ (sinkReturns s).length + 1 := by
  obtain ⟨hcalls, hreturns, hcomplete⟩ := (ledger h).flight.prefixes (ledger h).batches
  refine ⟨hreturns, ?_⟩
  have htaken : (sinkCalls s).length ≤ (taken s).length := hcalls.length_le
  have hdelivered : (deliveries s).length ≤ (sinkReturns s).length := hcomplete.length_le
  have hone : (inFlight s).length ≤ 1 := by
    have hlength : (inFlight s).length = _ := (ledger h).flight.length_outstanding
    rw [hlength]
    split <;> omega
  rw [taken_eq h, List.length_append, List.length_map] at htaken
  omega

/-! ### Who sleeps, and who does not -/

theorem attended : Attended s.state (s.threads.map Phase.still) := by
  refine Attended.of_reachable h.reachableBy.view ⟨?_, ?_⟩
  · intro phase hmem position hplace
    rw [List.mem_singleton.1 hmem] at hplace
    cases hplace
    trivial
  · intro phase hmem
    rw [List.mem_singleton.1 hmem]
    trivial

/-- Whoever sleeps has found the delivery that is under way now. -/
theorem joins_of_asleep {thread : Nat} {condition : Condition} {wakeAt : Deadline}
    {position : Position α} (here : s.threads[thread]? = some (.asleep condition wakeAt position)) :
    s.state.flushing = true ∧ ∃ errand, position = .join errand s.state.round :=
  (attended h).asleep _ (List.mem_map_of_mem (List.mem_of_getElem? here))

/-- A flush waits for a delivery that is over, or for the one that is under way. -/
theorem joins_of_place {thread : Nat} {errand : Errand} {round : Nat}
    (hplace : placeIn s.threads thread = some (.join errand round)) :
    round < s.state.round ∨ round = s.state.round ∧ s.state.flushing = true := by
  obtain ⟨phase, here, hposition⟩ := Option.bind_eq_some_iff.1 hplace
  have hjoins : Joins s.state (.join errand round) := by
    refine (attended h).joins phase.still (List.mem_map_of_mem (List.mem_of_getElem? here)) _ ?_
    rw [Phase.place?_still, hposition]
  exact hjoins

/-- A thread is awake where it does not wait, and everybody is where no delivery is under way. -/
theorem awake_of_place {thread : Nat} {position : Position α}
    (hplace : placeIn s.threads thread = some position)
    (hgoes : position.waits = false ∨ s.state.flushing = false) :
    ∃ phase, s.threads[thread]? = some phase ∧ phase.position? = some position := by
  obtain ⟨phase, here, hposition⟩ := Option.bind_eq_some_iff.1 hplace
  refine ⟨phase, here, ?_⟩
  cases phase with
  | ready | woken => exact hposition
  | asleep condition wakeAt place =>
    cases hposition
    obtain ⟨hflushing, errand, rfl⟩ := joins_of_asleep h here
    rcases hgoes with hwaits | hrests
    · contradiction
    · rw [hflushing] at hrests
      contradiction
  | idle | returned | ended => contradiction

/-- A thread that carries a batch can go on with it, as soon as the sink has returned if it has
called it. -/
theorem Carrying.enabled {thread : Nat} (hcarrying : Carrying s thread) : s.Enabled thread := by
  obtain ⟨position, hplace, hcarries⟩ := hcarrying
  have hgoes : position.waits = false := by
    cases position <;> first | rfl | contradiction
  obtain ⟨phase, here, awake⟩ := awake_of_place h hplace (.inl hgoes)
  have hmoves : ∃ input move, (monitor α).step s.state s.now position input = some move := by
    cases position with
    | call | record => exact ⟨.nothing, _, rfl⟩
    | deliver => exact ⟨.outcome .accepted, _, rfl⟩
    | _ => contradiction
  obtain ⟨input, move, moves⟩ := hmoves
  obtain ⟨after, hnext⟩ := exists_next here awake moves 0
  exact ⟨input, 0, Option.isSome_iff_exists.2 ⟨after, hnext⟩⟩

/-- The sink's call may end in any way, and its thread goes on to record it. -/
theorem exists_returned {thread : Nat} {errand : Errand} {batch : List α}
    (hplace : placeIn s.threads thread = some (.deliver errand batch)) (outcome : SinkOutcome)
    (wakee : Nat) :
    ∃ s', s.next (.step thread (.outcome outcome) wakee) = some s' ∧
      placeIn s'.threads thread = some (.record errand batch.length outcome.isAccepted) := by
  obtain ⟨phase, here, awake⟩ := awake_of_place h hplace (.inl rfl)
  have hmoves : (monitor α).step s.state s.now (.deliver errand batch) (.outcome outcome) =
      some (stepDeliver s.state errand batch outcome) := rfl
  obtain ⟨after, hnext⟩ := exists_next here awake hmoves wakee
  obtain ⟨position, move, hposition, moves, hlayout⟩ := System.moves_of_next hnext
  rw [hplace] at hposition
  cases hposition
  cases moves
  exact ⟨after, hnext, System.placeIn_of_layout hlayout⟩

/-- The delivery can be recorded at once, and then the buffer flushes no more and the round is
over. -/
theorem exists_recorded {thread : Nat} {errand : Errand} {size : Nat} {accepted : Bool}
    (hplace : placeIn s.threads thread = some (.record errand size accepted)) (input : Input)
    (wakee : Nat) :
    ∃ s', s.next (.step thread input wakee) = some s' ∧ s'.state.flushing = false ∧
      s'.state.round = s.state.round + 1 := by
  obtain ⟨phase, here, awake⟩ := awake_of_place h hplace (.inl rfl)
  have hmoves : (monitor α).step s.state s.now (.record errand size accepted) input =
      some (stepRecord s.state errand size accepted) := rfl
  obtain ⟨after, hnext⟩ := exists_next here awake hmoves wakee
  obtain ⟨position, move, hposition, moves, hlayout⟩ := System.moves_of_next hnext
  rw [hplace] at hposition
  cases hposition
  cases moves
  have hstate : after.state = s.state.complete size accepted := congrArg Layout.state hlayout
  refine ⟨after, hnext, ?_, ?_⟩
  · rw [hstate]
    rfl
  · rw [hstate]
    rfl

/-- An event leaves the round and a delivery under way alone, or it is the record of that delivery,
which ends the round and leaves nobody asleep. -/
theorem round_of_next {event : Event (monitor α)} (hnext : s.next event = some s') :
    (s'.state.round = s.state.round ∧ (s.state.flushing = true → s'.state.flushing = true)) ∨
      s'.state.round = s.state.round + 1 ∧ s'.state.flushing = false ∧
        (∃ thread input wakee errand size accepted, event = .step thread input wakee ∧
          placeIn s.threads thread = some (.record errand size accepted)) ∧
        ∀ phase ∈ s'.threads, ∀ condition, phase.sleepsOn condition = false := by
  rcases (System.next_eq_some_iff.1 hnext).moves with
    ⟨hstate, _⟩ | ⟨thread, input, wakee, position, move, rfl, hplace, moves, hlayout⟩
  · rw [hstate]
    exact .inl ⟨rfl, id⟩
  · have hstate : s'.state = move.state := congrArg Layout.state hlayout
    rw [hstate]
    cases effect_of_moves moves with
    | add | call | deliver => exact .inl ⟨rfl, id⟩
    | take => exact .inl ⟨rfl, fun _ => rfl⟩
    | aside noOffer free samePending sameFlushing sameRound =>
      exact .inl ⟨sameRound, fun hflushing => sameFlushing.trans hflushing⟩
    | @record errand size accepted =>
      right
      refine ⟨rfl, rfl, ⟨thread, input, wakee, errand, size, accepted, rfl, hplace⟩, ?_⟩
      intro phase hmem condition
      cases phase with
      | asleep c wakeAt position =>
        obtain ⟨t, ht⟩ := List.getElem?_of_mem hmem
        have hflushing := (joins_of_asleep (h.next hnext) ht).1
        rw [hstate] at hflushing
        contradiction
      | _ => rfl

end New

/-- Whatever threads and the sink do, with wake-ups at any time: a thread that sleeps in a flush
does so for the present round while the buffer flushes, and another thread carries the batch and can
go on with it. A flush that finds its round unchanged finds the buffer flushing. No event takes the
flag back or ends the round but the record of that delivery, which does both at once and leaves
nobody asleep. -/
theorem sleepers_attended {limit : Nat} {interval : Duration} {limit_pos : 0 < limit}
    {interval_pos : 0 < interval.nanos} {now : Instant} {s : System (monitor α)}
    (h : (system (.empty limit interval limit_pos interval_pos) now).Reachable s) :
    (∀ thread condition wakeAt position,
      s.threads[thread]? = some (.asleep condition wakeAt position) →
        (∃ errand, position = .join errand s.state.round) ∧ s.state.flushing = true ∧
          ∃ carrier, carrier ≠ thread ∧ Carrying s carrier ∧ s.Enabled carrier) ∧
      (∀ thread errand, placeIn s.threads thread = some (.join errand s.state.round) →
        s.state.flushing = true) ∧
      ∀ event s', s.next event = some s' →
        (s'.state.round = s.state.round ∧ (s.state.flushing = true → s'.state.flushing = true)) ∨
          s'.state.round = s.state.round + 1 ∧ s'.state.flushing = false ∧
            (∃ thread input wakee errand size accepted, event = .step thread input wakee ∧
              placeIn s.threads thread = some (.record errand size accepted)) ∧
            ∀ phase ∈ s'.threads, ∀ condition, phase.sleepsOn condition = false := by
  refine ⟨?_, ?_, fun _ _ hnext => round_of_next h hnext⟩
  · intro thread condition wakeAt position here
    obtain ⟨hflushing, errand, rfl⟩ := joins_of_asleep h here
    obtain ⟨carrier, hcarrying, _⟩ := (flushing_iff h).1 hflushing
    refine ⟨⟨errand, rfl⟩, hflushing, carrier, ?_, hcarrying, hcarrying.enabled h⟩
    rintro rfl
    obtain ⟨place, hplace, hcarries⟩ := hcarrying
    have hsleeps : placeIn s.threads carrier = some (.join errand s.state.round) := by
      simp [placeIn, here]
    rw [hsleeps] at hplace
    cases hplace
    contradiction
  · intro thread errand hplace
    rcases joins_of_place h hplace with hover | ⟨_, hflushing⟩
    · exact absurd hover (Nat.lt_irrefl _)
    · exact hflushing

/-- A first item is at the sink. The periodic trigger sleeps for that delivery, and so does a flush,
which has been woken once for no reason. -/
def sleepForOneDelivery : List (Event (monitor Nat)) :=
  [.arrive, .arrive, .step 0 .nothing 0, .call 1 (.add 1), .step 1 .nothing 0, .call 1 .flush,
    .step 1 .nothing 0, .step 1 .nothing 0, .step 0 .tick 0, .step 0 .nothing 0,
    .call 2 (.flushTimeout (.ofNanos 5)), .step 2 .nothing 0, .rouse 2, .step 2 .nothing 0]

theorem sleepers_attended_sleepForOneDelivery :
    ∃ s condition wakeAt position, (system (.empty 9 ⟨1, by decide⟩ (by decide) (by decide))
        .midrange).run sleepForOneDelivery = some s ∧
      s.threads[2]? = some (.asleep condition wakeAt position) ∧
      placeIn s.threads 0 = some (.join .tick 0) ∧
      ∃ carrier, carrier ≠ 2 ∧ Carrying s carrier ∧ s.Enabled carrier := by
  have hruns : ((system (.empty 9 ⟨1, by decide⟩ (by decide) (by decide)) .midrange).run
      sleepForOneDelivery).map (fun s : System (monitor Nat) =>
        decide (s.threads[2]?.map (·.sleepsOn Condition.flushed) = some true ∧
          placeIn s.threads 0 = some (.join .tick 0))) = some true := by
    decide +kernel
  simp only [Option.map_eq_some_iff, decide_eq_true_eq] at hruns
  obtain ⟨s, hrun, ⟨phase, here, hsleeps⟩, hticker⟩ := hruns
  cases phase with
  | asleep condition wakeAt position =>
    have hattended := (sleepers_attended (.run .start hrun)).1 2 condition wakeAt position here
    exact ⟨s, condition, wakeAt, position, hrun, here, hticker, hattended.2.2⟩
  | _ => contradiction

end Backpressure.Buffer
