import Backpressure.Proofs.Buffer.Expiring
import Backpressure.Proofs.Buffer.Filling
import Backpressure.Proofs.Buffer.Statistics
import Mathlib.Data.List.Perm.Subperm
import Mathlib.Data.Set.Finite.Lattice
import Mathlib.Order.Interval.Finset.Nat

/-!
# Adds that look again

An add that has found the buffer full tries to flush it, and tries again where it has only waited
for the delivery of another thread and the buffer is full once more. Each further try is paid for by
a delivery: the one that the try before it found on its way is complete by then. Deliveries are of
an item at least, so that an add tries no more often than items are added, and comes to an end
wherever adds do.
-/

namespace Backpressure.Buffer

variable {α : Type}

/-- Is a thread at this place about to try to flush the buffer for an add? -/
def Position.tries : Position α → Bool
  | .enter .add => true
  | _ => false

theorem tries_iff {position : Position α} : position.tries = true ↔ position = .enter .add := by
  cases position with
  | enter errand => cases errand <;> simp [Position.tries]
  | _ => simp [Position.tries]

/-- Does a thread try to flush the buffer for an add with this step? -/
def OwnStep.tries (thread : Nat) (step : OwnStep (monitor α)) : Bool :=
  (placeIn step.before.threads thread).any Position.tries

/-- What pays for another try after one: that one found the delivery of another thread on its way
and went to sleep, and the delivery is complete. -/
structure PaidFor (thread : Nat) (look looked again : System (monitor α)) : Prop where
  delivery : ∃ carrier batch accepted, carrier ≠ thread ∧ inFlight look = [(carrier, batch)] ∧
    deliveries look ++ [⟨carrier, batch, accepted⟩] <+: deliveries again
  asleep : looked.threads[thread]? = some (.asleep .flushed none (.join .add look.state.round))

/-! ### One step -/

section Moves

variable {look b : Buffer α} {now : Instant} {position place : Position α} {input : Input}
  {move : Step α}

/-- An add that tries and does not return has looked at the buffer. -/
theorem hasLooked_of_try
    (hplace : (Phase.ofOutcome (M := monitor α) (stepEnter b now .add).outcome).place? =
      some place) : HasLooked b .add place := by
  unfold stepEnter at hplace
  split at hplace
  · rename_i hbusy
    rw [place_or_expired hplace]
    exact .join hbusy
  · rename_i hresting
    split at hplace
    · contradiction
    · cases hplace
      exact .call (eq_false_of_ne_true hresting) b.pending

/-- An add that has looked goes on with what it found, or has waited for the end of a round. -/
theorem HasLooked.round_or_stays (h : HasLooked look .add position)
    (moves : (monitor α).step b now position input = some move) (hle : look.round ≤ b.round)
    (hplace : (Phase.ofOutcome (M := monitor α) move.outcome).place? = some place) :
    HasLooked look .add place ∨ look.flushing = true ∧ look.round < move.state.round := by
  cases h with
  | join busy =>
    cases moves
    unfold stepJoin at hplace ⊢
    split at hplace
    · rw [place_or_expired hplace]
      exact .inl (.join busy)
    · rename_i hround
      rw [if_neg hround]
      exact .inr ⟨busy, Nat.lt_of_le_of_ne hle (Ne.symm hround)⟩
  | call rests batch =>
    cases moves
    cases hplace
    exact .inl (.deliver rests batch)
  | deliver rests batch =>
    cases input with
    | outcome outcome =>
      cases moves
      cases hplace
      exact .inl (.record rests _ _)
    | _ => contradiction
  | record rests size accepted =>
    -- an add that has delivered returns
    cases moves
    cases accepted <;> contradiction

/-- An add that finds a delivery on its way goes to sleep. -/
theorem asleep_of_try (hbusy : b.flushing = true) :
    Phase.ofOutcome (M := monitor α) (stepEnter b now .add).outcome =
      .asleep .flushed none (.join .add b.round) := by
  rw [stepEnter, if_pos hbusy]
  rfl

end Moves

/-! ### From one try to the next -/

section Tries

variable {limit : Nat} {interval : Duration} {limit_pos : 0 < limit}
  {interval_pos : 0 < interval.nanos} {now : Instant} {look looked s s' : System (monitor α)}
  {thread wakee : Nat} {input : Input}
  (h : (system (.empty limit interval limit_pos interval_pos) now).Reachable look)

include h

theorem round_le_of_reachable (hlater : look.Reachable s) : look.state.round ≤ s.state.round := by
  rw [round_eq h, round_eq (h.trans hlater)]
  exact (deliveries_isPrefix hlater).length_le

/-- The delivery on its way is the next one to be complete. -/
theorem exists_delivery {carrier : Nat} {batch : List α} (hlater : look.Reachable s)
    (hflight : inFlight look = [(carrier, batch)])
    (hmore : (deliveries look).length < (deliveries s).length) :
    ∃ accepted, deliveries look ++ [⟨carrier, batch, accepted⟩] <+: deliveries s := by
  obtain ⟨new, hnew⟩ := deliveries_isPrefix hlater
  cases new with
  | nil =>
    rw [List.append_nil] at hnew
    exact absurd hmore (by rw [hnew]; exact Nat.lt_irrefl _)
  | cons delivery rest =>
    have htaken := taken_isPrefix hlater
    rw [taken_eq h, taken_eq (h.trans hlater), hflight, ← hnew, List.map_append,
      List.append_assoc, List.prefix_append_right_inj, List.map_cons, List.cons_append] at htaken
    obtain ⟨hload, -⟩ := List.cons_prefix_cons.1 htaken
    obtain ⟨thread, batch', accepted⟩ := delivery
    cases hload
    exact ⟨accepted, rest, by rw [← hnew, List.append_assoc]; rfl⟩

/-- The course of an add from one try on: it goes on with what it has found, or the round that it
has found is over. -/
def tryCourse (hlook : look.Reachable looked) (thread : Nat)
    (hplace : ∀ {position}, placeIn looked.threads thread = some position →
      HasLooked look.state .add position) : Course looked thread where
  during s position := HasLooked look.state .add position ∨
    look.state.flushing = true ∧ look.state.round < s.state.round
  after _ _ := True
  begins hposition := .inl (hplace hposition)
  stays := by
    intro s s' event position hreachable hchange _ hduring
    refine hduring.imp_right (And.imp_right fun hround => ?_)
    have hlater := System.Reachable.single (System.next_eq_some_iff.2 hchange)
    exact Nat.lt_of_lt_of_le hround
      (round_le_of_reachable (h.trans (hlook.trans hreachable)) hlater)
  goes := by
    intro s s' input wakee position move hreachable _ hnext _ moves hlayout hduring
    refine ⟨fun place hplace' => ?_, fun _ _ => trivial⟩
    have hstate : s'.state = move.state := congrArg Layout.state hlayout
    have hsince := hlook.trans hreachable
    rcases hduring with hlooked | ⟨hbusy, hround⟩
    · rw [hstate]
      exact hlooked.round_or_stays moves (round_le_of_reachable h hsince) hplace'
    · exact .inr ⟨hbusy, Nat.lt_of_lt_of_le hround
        (round_le_of_reachable (h.trans hsince) (.single hnext))⟩

section Again

variable (hplace : placeIn look.threads thread = some (.enter .add))
  (hlook : look.next (.step thread input wakee) = some looked) (hlater : looked.Reachable s)
  (hlasts : s.returnsOf thread = look.returnsOf thread)
  (hagain : placeIn s.threads thread = some (.enter .add))

include hplace hlook hlater hlasts hagain

/-- An add tries again only after the end of a round that it has found. -/
theorem round_lt_of_tries : look.state.flushing = true ∧ look.state.round < s.state.round := by
  obtain ⟨call, hopen, _⟩ := exists_openCall h hplace nofun
  obtain ⟨reply, _, hreturned⟩ | ⟨hreturns, hopened⟩ :=
    System.returns_or_goes_on hlook hplace rfl hopen
  · -- a try that returns is the last one
    have hlonger := (hlater.returnsOf_isPrefix thread).length_le
    rw [hreturned, hlasts] at hlonger
    exact absurd hlonger (by simp)
  · have hlooked {position : Position α} (hposition : placeIn looked.threads thread =
        some position) : HasLooked look.state .add position := by
      rw [System.placeIn_of_layout (layout_of_look hplace hlook)] at hposition
      exact hasLooked_of_try hposition
    cases ((tryCourse h (.single hlook) thread hlooked).stage (.of_reachable (h.next hlook))
        hopened hlater).1 with
    | lasts _ _ during => exact (during _ hagain).resolve_left nofun
    | ended _ _ returned =>
      have hlonger := returned.length_le
      rw [hlasts, hreturns] at hlonger
      exact absurd hlonger (by simp)

/-- Between two tries of one add, the delivery that the first of them found is completed. -/
theorem paidFor_of_tries : PaidFor thread look looked s := by
  obtain ⟨hbusy, hmore⟩ := round_lt_of_tries h hplace hlook hlater hlasts hagain
  have hsince : look.Reachable s := .trans (.single hlook) hlater
  rw [round_eq h, round_eq (h.trans hsince)] at hmore
  obtain ⟨carrier, batch, hother, hflight⟩ := exists_other h hbusy hplace rfl
  obtain ⟨accepted, hcomplete⟩ := exists_delivery h hsince hflight hmore
  refine ⟨⟨carrier, batch, accepted, hother, hflight, hcomplete⟩, ?_⟩
  obtain ⟨threads, hthread, rfl⟩ := System.eq_of_next hlook hplace rfl
  exact (List.getElem?_set_self hthread).trans (congrArg some (asleep_of_try hbusy))

end Again

end Tries

theorem PaidFor.length_lt {thread : Nat} {look looked again : System (monitor α)}
    (h : PaidFor thread look looked again) :
    (deliveries look).length < (deliveries again).length := by
  obtain ⟨_, _, _, _, _, hcomplete⟩ := h.delivery
  have hlength := hcomplete.length_le
  rw [List.length_append] at hlength
  exact hlength

/-! ### The tries of one call -/

/-- Numbers that increase between two bounds are no more than fit there. -/
theorem length_le_of_pairwise_lt {numbers : List Nat} {low high : Nat}
    (hpairwise : numbers.Pairwise (· < ·)) (hbounds : ∀ x ∈ numbers, low ≤ x ∧ x ≤ high) :
    numbers.length ≤ 1 + (high - low) := by
  have hsubset : numbers ⊆ List.range' low (1 + (high - low)) := by
    intro x hx
    obtain ⟨hlow, hhigh⟩ := hbounds x hx
    rw [List.mem_range'_1]
    omega
  have hlength := (List.subperm_of_subset (hpairwise.imp Nat.ne_of_lt) hsubset).length_le
  rwa [List.length_range'] at hlength

section Calls

variable {limit : Nat} {interval : Duration} {limit_pos : 0 < limit}
  {interval_pos : 0 < interval.nanos} {now : Instant} {begun s : System (monitor α)}
  {thread : Nat} {steps : List (OwnStep (monitor α))}
  (h : (system (.empty limit interval limit_pos interval_pos) now).Reachable begun)
  (hsteps : OwnSteps thread begun steps s)

include h hsteps

/-- Every try of a call pays for the next one. -/
theorem pairwise_tries : (steps.filter (OwnStep.tries thread)).Pairwise
    fun first second => PaidFor thread first.before first.after second.before := by
  have hplace {step : OwnStep (monitor α)} (hmem : step ∈ steps.filter (OwnStep.tries thread)) :
      step ∈ steps ∧ placeIn step.before.threads thread = some (.enter .add) := by
    obtain ⟨hstep, htries⟩ := List.mem_filter.1 hmem
    obtain ⟨position, hposition, htries⟩ := (Option.any_eq_true _ _).1 htries
    exact ⟨hstep, hposition.trans (congrArg some (tries_iff.1 htries))⟩
  refine (hsteps.pairwise.filter _).imp_of_mem fun {first second} hfirst hsecond hlater => ?_
  obtain ⟨hfirst, hlook⟩ := hplace hfirst
  obtain ⟨hsecond, hagain⟩ := hplace hsecond
  obtain ⟨hsince, hsame, ⟨wakee, hnext⟩, _⟩ := hsteps.of_mem hfirst
  obtain ⟨_, hsame', _⟩ := hsteps.of_mem hsecond
  exact paidFor_of_tries (h.trans hsince) hlook hnext hlater (hsame'.trans hsame.symm) hagain

/-- A call tries once, and once more for each delivery that is completed meanwhile. -/
theorem length_tries_le : (steps.filter (OwnStep.tries thread)).length ≤
    1 + ((deliveries s).length - (deliveries begun).length) := by
  have hincreasing : ((steps.filter (OwnStep.tries thread)).map
      fun step => (deliveries step.before).length).Pairwise (· < ·) :=
    List.pairwise_map.2 ((pairwise_tries h hsteps).imp PaidFor.length_lt)
  have hbounds : ∀ x ∈ (steps.filter (OwnStep.tries thread)).map
      fun step => (deliveries step.before).length,
      (deliveries begun).length ≤ x ∧ x ≤ (deliveries s).length := by
    intro x hx
    obtain ⟨step, htry, rfl⟩ := List.mem_map.1 hx
    have hstep := (List.mem_filter.1 htry).1
    exact ⟨(deliveries_isPrefix (hsteps.of_mem hstep).1).length_le,
      (deliveries_isPrefix (hsteps.reachable_of_mem hstep)).length_le⟩
  have hlength := length_le_of_pairwise_lt hincreasing hbounds
  rwa [List.length_map] at hlength

end Calls

theorem length_deliveries_le {limit : Nat} {interval : Duration} {limit_pos : 0 < limit}
    {interval_pos : 0 < interval.nanos} {now : Instant} {s : System (monitor α)}
    (h : (system (.empty limit interval limit_pos interval_pos) now).Reachable s) :
    (deliveries s).length ≤ (additions s).length := by
  rw [← round_eq h]
  exact round_le h

/-! ### Schedules without end -/

/-- Is this the beginning of an add? -/
def IsAdd (event : Event (monitor α)) : Prop := ∃ thread item, event = .call thread (.add item)

/-- Is a thread at this place about to add an item? -/
def Position.offers (position : Position α) : Bool := position.offered?.isSome

/-- How many items have been added, or are about to be. -/
def offered (s : System (monitor α)) : Nat :=
  (additions s).length + threadsAt (M := monitor α) Position.offers s.threads

/-- Whoever is about to add an item adds it with the next step, and nobody has another one. -/
theorem offers_of_moves {b : Buffer α} {now : Instant} {position : Position α} {input : Input}
    {move : Step α} (thread : Nat) (moves : (monitor α).step b now position input = some move) :
    (move.notes.filterMap fun note => added? (thread, note)).length = position.offers.toNat ∧
      (Phase.ofOutcome (M := monitor α) move.outcome).place?.any Position.offers = false := by
  obtain ⟨hadded, hnone⟩ := (effect_of_moves moves).adds
  constructor
  · refine (congrArg List.length hadded).trans ?_
    unfold Position.offers
    cases position.offered? <;> rfl
  · cases hplace : (Phase.ofOutcome (M := monitor α) move.outcome).place? with
    | none => rfl
    | some place => exact congrArg Option.isSome (hnone place hplace)

/-- An item is offered only where an add begins. -/
theorem offered_le_of_change {s s' : System (monitor α)} {event : Event (monitor α)}
    (hchange : System.Change s event s') (hother : ¬ IsAdd event) : offered s' ≤ offered s := by
  cases hchange with
  | elapse => exact Nat.le_refl _
  | arrive =>
    rw [offered, threadsAt_append_idle]
    exact Nat.le_refl _
  | @call thread request phase here free =>
    have hset := threadsAt_set_add Position.offers here
      (.ready ((monitor α).start request s.now))
    have hafter : (Phase.ready (M := monitor α) ((monitor α).start request s.now)).place?.any
        Position.offers = false := by
      cases request with
      | add item => exact absurd ⟨thread, item, rfl⟩ hother
      | _ => rfl
    rw [hafter] at hset
    exact Nat.add_le_add_left (Nat.le_of_add_right_le (Nat.le_of_eq hset)) _
  | @rouse thread condition wakeAt position here =>
    have hset := threadsAt_set_add Position.offers here (.woken (M := monitor α) condition position)
    exact Nat.add_le_add_left (Nat.le_of_eq (Nat.add_right_cancel hset)) _
  | @step thread wakee input phase position move threads here awake moves wakes =>
    have hmove : threadsAt Position.offers (threads.set thread (.ofOutcome move.outcome)) +
        position.offers.toNat = threadsAt (M := monitor α) Position.offers s.threads +
          ((Phase.ofOutcome (M := monitor α) move.outcome).place?.any Position.offers).toNat :=
      threadsAt_move here awake wakes _
    obtain ⟨hadded, hafter⟩ := offers_of_moves thread moves
    have hlength : (additions ⟨s.now, move.state, threads.set thread (.ofOutcome move.outcome),
        (System.entries thread move).reverse ++ s.journal⟩).length =
          (additions s).length + position.offers.toNat := by
      refine (congrArg (fun notes => (told added? notes).length)
        (filterMap_note?_append thread move s.journal)).trans ?_
      rw [told_record, List.length_append, hadded]
      rfl
    -- an item that is added is no longer about to be
    rw [offered, hlength, Nat.add_assoc, Nat.add_comm position.offers.toNat, hmove, hafter]
    exact Nat.le_refl _

/-- A schedule without end, from a system on. -/
structure Endless (start : System (monitor α)) where
  /-- The systems that it leads to, one after the other. -/
  system : Nat → System (monitor α)
  /-- What happens to each of them. -/
  event : Nat → Event (monitor α)
  begins : system 0 = start
  follows (n : Nat) : (system n).next (event n) = some (system (n + 1))

namespace Endless

variable {start : System (monitor α)} (run : Endless start) {m n : Nat}

theorem reachable (hle : m ≤ n) : (run.system m).Reachable (run.system n) := by
  induction n, hle using Nat.le_induction with
  | base => exact .start
  | succ n _ ih => exact .next ih (run.follows n)

theorem offered_le (hle : m ≤ n) (hnone : ∀ k, m ≤ k → ¬ IsAdd (run.event k)) :
    offered (run.system n) ≤ offered (run.system m) := by
  induction n, hle using Nat.le_induction with
  | base => exact Nat.le_refl _
  | succ n hle ih =>
    exact (offered_le_of_change (System.next_eq_some_iff.1 (run.follows n)) (hnone n hle)).trans ih

/-- The tries of the call that a thread is in at the start. -/
def tries (thread : Nat) : Set Nat :=
  {n | (∃ input wakee, run.event n = .step thread input wakee) ∧
    placeIn (run.system n).threads thread = some (.enter .add) ∧
    (run.system n).returnsOf thread = start.returnsOf thread}

variable {limit : Nat} {interval : Duration} {limit_pos : 0 < limit}
  {interval_pos : 0 < interval.nanos} {now : Instant}
  (h : (Buffer.system (.empty limit interval limit_pos interval_pos) now).Reachable start)

include h

theorem start_reachable (n : Nat) :
    (Buffer.system (.empty limit interval limit_pos interval_pos) now).Reachable
      (run.system n) := by
  have hlater := run.reachable (Nat.zero_le n)
  rw [run.begins] at hlater
  exact h.trans hlater

/-- Where adds come to an end, so do deliveries. -/
theorem exists_bound (hfinite : {n | IsAdd (run.event n)}.Finite) :
    ∃ bound, ∀ n, (deliveries (run.system n)).length ≤ bound := by
  obtain ⟨last, hlast⟩ := hfinite.bddAbove
  have hnone : ∀ k, last + 1 ≤ k → ¬ IsAdd (run.event k) := fun k hk hadd =>
    absurd (hlast hadd) (Nat.not_le.2 hk)
  refine ⟨offered (run.system (last + 1)), fun n => ?_⟩
  calc (deliveries (run.system n)).length
      ≤ (deliveries (run.system (max n (last + 1)))).length :=
        (deliveries_isPrefix (run.reachable (Nat.le_max_left ..))).length_le
    _ ≤ (additions (run.system (max n (last + 1)))).length :=
        length_deliveries_le (run.start_reachable h _)
    _ ≤ offered (run.system (max n (last + 1))) := Nat.le_add_right ..
    _ ≤ offered (run.system (last + 1)) := run.offered_le (Nat.le_max_right ..) hnone

/-- Each try of a call comes after more deliveries than the one before. -/
theorem deliveries_strictMonoOn (thread : Nat) :
    StrictMonoOn (fun n => (deliveries (run.system n)).length) (run.tries thread) := by
  rintro m ⟨⟨input, wakee, hevent⟩, hplace, hlasts⟩ n ⟨_, hagain, hlasts'⟩ hlt
  have hlook := run.follows m
  rw [hevent] at hlook
  exact (paidFor_of_tries (run.start_reachable h m) hplace hlook (run.reachable hlt)
    (hlasts'.trans hlasts.symm) hagain).length_lt

/-- Where adds come to an end, no call tries for ever. -/
theorem finite_tries (hfinite : {n | IsAdd (run.event n)}.Finite) (thread : Nat) :
    (run.tries thread).Finite := by
  obtain ⟨bound, hbound⟩ := run.exists_bound h hfinite
  exact Set.Finite.of_injOn (t := Set.Iic bound) (fun n _ => hbound n)
    (run.deliveries_strictMonoOn h thread).injOn (Set.finite_Iic bound)

end Endless

/-- Every run can go on for ever with nothing but time to pass. -/
theorem exists_endless {s s' : System (monitor α)} {events : List (Event (monitor α))}
    (hrun : s.run events = some s') :
    ∃ run : Endless s, run.system events.length = s' ∧
      ∀ n, events.length ≤ n → run.event n = .elapse .zero := by
  induction events generalizing s with
  | nil =>
    obtain rfl : s = s' := Option.some.inj hrun
    have hrests : s.next (.elapse .zero) = some s :=
      System.next_eq_some_iff.2 (.elapse (Instant.add?_eq_some_iff.2 rfl))
    exact ⟨⟨fun _ => s, fun _ => .elapse .zero, rfl, fun _ => hrests⟩, rfl, fun _ _ => rfl⟩
  | cons event rest ih =>
    obtain ⟨between, hnext, hrest⟩ := Option.bind_eq_some_iff.1 hrun
    obtain ⟨run, hend, hlater⟩ := ih hrest
    refine ⟨⟨fun n => n.casesOn s run.system, fun n => n.casesOn event run.event, rfl, ?_⟩,
      hend, ?_⟩
    · intro n
      cases n with
      | zero => exact hnext.trans (congrArg some run.begins.symm)
      | succ n => exact run.follows n
    · intro n hn
      cases n with
      | zero => contradiction
      | succ n => exact hlater n (Nat.le_of_succ_le_succ hn)

/-- An add that looks again makes progress, whatever threads and the sink do. Of two tries of one
add to flush the buffer, the first found the delivery of another thread on its way and went to
sleep, and that delivery is complete by the second. So an add tries at most once more than
deliveries are completed meanwhile, and of those there are no more than items that have been added
by anybody. Where adds come to an end, no add tries for ever. -/
theorem rechecks_are_paid_for {limit : Nat} {interval : Duration} {limit_pos : 0 < limit}
    {interval_pos : 0 < interval.nanos} {now : Instant} {began begun : System (monitor α)}
    {thread : Nat} {item : α}
    (h : (system (.empty limit interval limit_pos interval_pos) now).Reachable began)
    (hbegin : began.next (.call thread (.add item)) = some begun) :
    (∀ steps s, OwnSteps thread begun steps s →
      (steps.filter (OwnStep.tries thread)).Pairwise
        (fun first second => PaidFor thread first.before first.after second.before) ∧
      (steps.filter (OwnStep.tries thread)).length ≤
        1 + ((deliveries s).length - (deliveries begun).length) ∧
      (deliveries s).length - (deliveries begun).length ≤ (additions s).length) ∧
    ∀ run : Endless begun, {n | IsAdd (run.event n)}.Finite → (run.tries thread).Finite := by
  have hbegun := h.next hbegin
  constructor
  · intro steps s hsteps
    exact ⟨pairwise_tries hbegun hsteps, length_tries_le hbegun hsteps,
      (Nat.sub_le ..).trans (length_deliveries_le (hbegun.trans hsteps.reachable))⟩
  · intro run hfinite
    exact run.finite_tries hbegun hfinite thread

/-- The add of a third item waits for the delivery of the first one, finds the buffer full once
more, and delivers itself. -/
theorem rechecks_are_paid_for_joinThenDeliver :
    ∃ began begun s steps, (system (.empty 2 ⟨1, by decide⟩ (by decide) (by decide)) .midrange).run
        (itemAtSink ++ [.call 2 (.add 2), .step 2 .nothing 0]) = some began ∧
      began.next (.call 2 (.add 3)) = some begun ∧
      begun.run (.step 2 .nothing 0 :: joinThenDeliver) = some s ∧ OwnSteps 2 begun steps s ∧
      (steps.filter (OwnStep.tries 2)).length = 2 ∧
      (deliveries s).length - (deliveries begun).length = 2 ∧
      (steps.filter (OwnStep.tries 2)).Pairwise
        (fun first second => PaidFor 2 first.before first.after second.before) ∧
      (steps.filter (OwnStep.tries 2)).length ≤
        1 + ((deliveries s).length - (deliveries begun).length) ∧
      ∃ run : Endless begun, run.system 10 = s ∧ (run.tries 2).Finite := by
  have hruns : (((system (.empty 2 ⟨1, by decide⟩ (by decide) (by decide)) .midrange).run
      (itemAtSink ++ [.call 2 (.add 2), .step 2 .nothing 0])).bind fun began =>
        (began.next (.call 2 (.add 3))).bind fun begun =>
          (begun.run (.step 2 .nothing 0 :: joinThenDeliver)).map fun s =>
            let steps := OwnSteps.inRun 2 begun (.step 2 .nothing 0 :: joinThenDeliver)
            decide ((∀ step ∈ steps,
              (step.before.returnsOf 2).length = (begun.returnsOf 2).length) ∧
                (steps.filter (OwnStep.tries 2)).length = 2 ∧
                (deliveries s).length - (deliveries begun).length = 2)) = some true := by
    decide +kernel
  obtain ⟨began, hbegan, hruns⟩ := Option.bind_eq_some_iff.1 hruns
  obtain ⟨begun, hbegin, hruns⟩ := Option.bind_eq_some_iff.1 hruns
  obtain ⟨s, hrun, hshown⟩ := Option.map_eq_some_iff.1 hruns
  obtain ⟨hlasts, htwo, hdelivered⟩ := of_decide_eq_true hshown
  have hsteps := OwnSteps.run .start hrun hlasts
  obtain ⟨hall, hends⟩ := rechecks_are_paid_for (.run .start hbegan) hbegin
  obtain ⟨hpaid, hbound, _⟩ := hall _ s hsteps
  obtain ⟨run, hend, hrests⟩ := exists_endless hrun
  have hfinite : {n | IsAdd (run.event n)}.Finite := by
    refine (Set.finite_lt_nat 10).subset ?_
    rintro n ⟨thread, item, hadd⟩
    by_contra hlate
    cases (hrests n (Nat.le_of_not_lt hlate)).symm.trans hadd
  exact ⟨began, begun, s, _, hbegan, hbegin, hrun, hsteps, htwo, hdelivered, hpaid, hbound, run,
    hend, hends run hfinite⟩

end Backpressure.Buffer
