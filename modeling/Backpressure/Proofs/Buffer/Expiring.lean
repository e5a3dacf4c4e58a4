import Backpressure.Proofs.Buffer.Completion
import Backpressure.Proofs.Buffer.SingleFlight
import Backpressure.Proofs.OwnSteps
import Backpressure.Proofs.Twins

/-!
# Flushes that give up

A flush looks at the buffer once. If it finds a delivery on its way, it waits for the end of that
round, and its deadline is for this wait alone. It changes nothing while it waits, and it gives up
only where the round is still the one that it has found. If it finds none, it makes a delivery of
its own, and no deadline keeps it from that.
-/

namespace Backpressure.Buffer

variable {α : Type}

/-- The deadline that a request sets for waiting on another delivery, when it is made at a moment. A
timeout that leaves the range of moments sets none. -/
def Request.deadline (request : Request α) (now : Instant) : Deadline :=
  match request with
  | .flushTimeout timeout => .after now timeout
  | .flushDeadline deadline => some deadline
  | _ => none

/-- A step that changes nothing and records nothing. -/
def OwnStep.IsStill (step : OwnStep (monitor α)) : Prop :=
  step.after.state = step.before.state ∧ step.after.view.notes = step.before.view.notes

/-- What a flush has done so far that stands at a place: nothing, or it has looked at the buffer,
and has changed nothing if it has found a delivery on its way. -/
inductive Waited (thread : Nat) (begun : System (monitor α)) (errand : Errand) :
    List (OwnStep (monitor α)) → Position α → Prop
  | begins : Waited thread begun errand [] (.enter errand)
  | looked {first : OwnStep (monitor α)} {rest : List (OwnStep (monitor α))} {position : Position α}
      {move : Step α} (moves : first.Moves thread begun (.enter errand) move)
      (stands : HasLooked first.before.state errand position)
      (still : first.before.state.flushing = true →
        ∀ step ∈ first :: rest, OwnStep.IsStill step) :
      Waited thread begun errand (first :: rest) position

/-- What must have happened in the steps of a flush that has given up. -/
structure GaveUp (thread : Nat) (deadline : Deadline) (first last : OwnStep (monitor α))
    (steps : List (OwnStep (monitor α))) : Prop where
  /-- Its first step found a delivery of another thread on its way, and its last one the same. -/
  delivery : ∃ carrier batch, carrier ≠ thread ∧ inFlight first.before = [(carrier, batch)] ∧
    inFlight last.before = [(carrier, batch)]
  found : first.before.state.flushing = true
  /-- That delivery was not complete at the last step. -/
  underway : last.before.state.flushing = true
  round : last.before.state.round = first.before.state.round
  /-- The deadline had come. -/
  late : deadline.reached last.before.now = true
  /-- No step has changed anything. -/
  still : ∀ step ∈ steps, OwnStep.IsStill step

/-! ### One step -/

section Moves

variable {look b : Buffer α} {now : Instant} {errand : Errand} {position : Position α}
  {input : Input} {move : Step α} {error : FlushTimeoutError}

theorem start_of_purpose {request : Request α} (h : request.purpose = .flush) :
    start request now = .enter (.flush (request.deadline now)) := by
  cases request with
  | flush | flushTimeout | flushDeadline => rfl
  | add | shutdown | inspect => contradiction

/-- Waiting changes nothing. -/
theorem still_of_wait {round : Nat} :
    (wait b now errand round).state = b ∧ (wait b now errand round).notes = [] := by
  unfold wait
  split <;> exact ⟨rfl, rfl⟩

theorem reached_of_wait {round : Nat} {reply : Reply α}
    (h : (wait b now errand round).outcome = .reply reply) :
    errand.deadline.reached now = true := by
  unfold wait at h
  split at h
  · assumption
  · contradiction

/-- A flush that finds a delivery on its way only waits. -/
theorem still_of_stepEnter (hbusy : b.flushing = true) :
    (stepEnter b now errand).state = b ∧ (stepEnter b now errand).notes = [] := by
  rw [stepEnter, if_pos hbusy]
  exact still_of_wait

/-- A flush that has found a delivery on its way does nothing until it returns. -/
theorem HasLooked.still (h : HasLooked look errand position) (hbusy : look.flushing = true)
    (moves : (monitor α).step b now position input = some move) :
    move.state = b ∧ move.notes = [] := by
  cases h with
  | join =>
    cases moves
    unfold stepJoin
    split
    · exact still_of_wait
    · exact ⟨rfl, rfl⟩
  | call rests | deliver rests | record rests =>
    rw [hbusy] at rests
    contradiction

/-- A flush that finds nothing on its way does not give up. -/
theorem flushing_of_stepEnter
    (hfinish : ∀ flush, finish (α := α) errand flush = .reply (.flushed (.ok flush)))
    (hreply : (stepEnter b now errand).outcome = .reply (.flushed (.error error))) :
    b.flushing = true ∧ errand.deadline.reached now = true := by
  unfold stepEnter at hreply
  split at hreply
  · rename_i hbusy
    exact ⟨hbusy, reached_of_wait hreply⟩
  · split at hreply
    · rw [hfinish] at hreply
      cases hreply
    · contradiction

/-- A flush that has looked gives up only where it has found a delivery on its way, in the round
that it has found, and when its deadline has come. -/
theorem HasLooked.round_of_expired (h : HasLooked look errand position)
    (hfinish : ∀ flush, finish (α := α) errand flush = .reply (.flushed (.ok flush)))
    (moves : (monitor α).step b now position input = some move)
    (hreply : move.outcome = .reply (.flushed (.error error))) :
    look.flushing = true ∧ position = .join errand look.round ∧ b.round = look.round ∧
      errand.deadline.reached now = true := by
  cases h with
  | join busy =>
    cases moves
    unfold stepJoin at hreply
    split at hreply
    · rename_i hround
      exact ⟨busy, rfl, hround, reached_of_wait hreply⟩
    · rw [hfinish] at hreply
      cases hreply
  | call =>
    cases moves
    contradiction
  | deliver =>
    cases input <;> cases moves
    contradiction
  | record =>
    cases moves
    unfold stepRecord at hreply
    rw [hfinish] at hreply
    cases hreply

/-- Nothing but a flush may give up. -/
theorem purpose_of_allows {purpose : Purpose}
    (h : purpose.Allows (.flushed (α := α) (.error error))) : purpose = .flush := by
  cases purpose with
  | flush => rfl
  | add | tick => contradiction
  | shutdown | inspect =>
    obtain ⟨_, hother⟩ := h
    cases hother

/-- A flush that has waited for a delivery joins it once the round is over, whatever the time. -/
theorem stepJoin_of_round {round : Nat} (hround : b.round ≠ round) :
    stepJoin b now errand round =
      { state := b, outcome := finish errand .joined, signals := [], notes := [] } :=
  if_neg hround

/-- Two places of a flush that delivers, of which one has a deadline for waiting and the other has
none. -/
inductive AsLate (deadline : Deadline) : Position α → Position α → Prop
  | call (batch : List α) :
      AsLate deadline (.call (.flush deadline) batch) (.call (.flush none) batch)
  | deliver (batch : List α) :
      AsLate deadline (.deliver (.flush deadline) batch) (.deliver (.flush none) batch)
  | record (size : Nat) (accepted : Bool) :
      AsLate deadline (.record (.flush deadline) size accepted)
        (.record (.flush none) size accepted)

/-- A flush that delivers does the same with a deadline for waiting as without one. -/
theorem matched_asLate (deadline : Deadline) :
    System.Matched (M := monitor α) (AsLate deadline) := by
  intro p q hplaces b now input
  cases hplaces with
  | call batch => exact .inr ⟨_, _, rfl, rfl, rfl, rfl, .inr ⟨_, _, .deliver batch, rfl, rfl⟩⟩
  | deliver batch =>
    cases input with
    | outcome outcome =>
      exact .inr ⟨_, _, rfl, rfl, rfl, rfl, .inr ⟨_, _, .record _ _, rfl, rfl⟩⟩
    | nothing | tick | stop => exact .inl ⟨rfl, rfl⟩
  | record size accepted => exact .inr ⟨_, _, rfl, rfl, rfl, rfl, .inl ⟨_, rfl, rfl⟩⟩

/-- A flush that finds no delivery on its way begins as one without a deadline. -/
theorem agree_stepEnter (deadline : Deadline) (hrests : b.flushing = false) :
    System.Agree (M := monitor α) (AsLate deadline) (stepEnter b now (.flush deadline))
      (stepEnter b now (.flush none)) := by
  rw [stepEnter, stepEnter, hrests, if_neg Bool.false_ne_true, if_neg Bool.false_ne_true]
  split
  · exact ⟨rfl, rfl, .inl ⟨_, rfl, rfl⟩⟩
  · exact ⟨rfl, rfl, .inr ⟨_, _, .call _, rfl, rfl⟩⟩

end Moves

/-! ### One call -/

/-- A step whose move changes nothing is still. -/
theorem isStill_of_moves {begun : System (monitor α)} {thread : Nat}
    {step : OwnStep (monitor α)} {position : Position α} {move : Step α}
    (hmoves : step.Moves thread begun position move)
    (hstill : move.state = step.before.state ∧ move.notes = []) : OwnStep.IsStill step := by
  refine ⟨hmoves.state.trans hstill.1, ?_⟩
  rw [hmoves.notes, Move.record, hstill.2]
  rfl

section Calls

variable {begun : System (monitor α)} {thread : Nat} {errand : Errand}

/-- A flush looks at the buffer once, and only waits if it finds a delivery on its way. -/
theorem kept_waited
    (hfinish : ∀ flush, finish (α := α) errand flush = .reply (.flushed (.ok flush)))
    (hplace : placeIn begun.threads thread = some (.enter errand)) :
    OwnSteps.Kept thread begun (Waited thread begun errand) := by
  have hcalled : errand.purpose ≠ .tick := by
    cases errand with
    | tick => exact absurd (hfinish .empty) nofun
    | flush | add | shutdown => exact nofun
  refine ⟨⟨_, hplace, .begins⟩, ?_⟩
  intro steps step position move hmoves hwaited
  have hpurpose : position.purpose ≠ .tick := by
    cases hwaited with
    | begins => exact hcalled
    | looked moves stands => cases stands <;> exact hcalled
  refine ((leads_of_moves hmoves.moves).returns_or_stays hpurpose).imp_right ?_
  rintro ⟨place, hthere⟩
  refine ⟨place, hthere, ?_⟩
  cases hwaited with
  | begins =>
    cases hmoves.moves
    refine .looked hmoves ((looked_of_stepEnter hfinish).1 place hthere) ?_
    intro hbusy step' hmem
    rw [List.mem_singleton.1 hmem]
    exact isStill_of_moves hmoves (still_of_stepEnter hbusy)
  | @looked first rest _ _ moves stands still =>
    refine .looked moves ((stands.step hfinish hmoves.moves).1 place hthere) ?_
    intro hbusy step' hmem
    rcases List.mem_append.1 (List.cons_append .. ▸ hmem) with hold | hnew
    · exact still hbusy step' hold
    · rw [List.mem_singleton.1 hnew]
      exact isStill_of_moves hmoves (stands.still hbusy hmoves.moves)

/-- A call stays there for what it has asked for. -/
theorem kept_purpose {position : Position α}
    (hplace : placeIn begun.threads thread = some position) (hcalled : position.purpose ≠ .tick) :
    OwnSteps.Kept thread begun fun _ place => place.purpose = position.purpose := by
  refine ⟨⟨_, hplace, rfl⟩, ?_⟩
  intro steps step place move hmoves hpurpose
  refine ((leads_of_moves hmoves.moves).returns_or_stays (hpurpose ▸ hcalled)).imp_right ?_
  rintro ⟨place', hthere⟩
  exact ⟨place', hthere, ((effect_of_moves hmoves.moves).purpose hthere).trans hpurpose⟩

end Calls

section New

variable {limit : Nat} {interval : Duration} {limit_pos : 0 < limit}
  {interval_pos : 0 < interval.nanos} {now : Instant} {s s' : System (monitor α)}
  (h : (system (.empty limit interval limit_pos interval_pos) now).Reachable s)
include h

/-- In the same round it is the same delivery that is on its way. -/
theorem inFlight_of_round (hlater : s.Reachable s') (hbusy : s.state.flushing = true)
    (hbusy' : s'.state.flushing = true) (hround : s'.state.round = s.state.round) :
    inFlight s' = inFlight s := by
  have hlength := length_inFlight h
  have hlength' := length_inFlight (h.trans hlater)
  rw [hbusy, if_pos rfl] at hlength
  rw [hbusy', if_pos rfl] at hlength'
  rw [round_eq h, round_eq (h.trans hlater)] at hround
  have hdelivered := (deliveries_isPrefix hlater).eq_of_length hround.symm
  have htaken : taken s = taken s' := by
    refine (taken_isPrefix hlater).eq_of_length ?_
    rw [taken_eq h, taken_eq (h.trans hlater), List.length_append, List.length_append, hlength,
      hlength', hdelivered]
  rw [taken_eq h, taken_eq (h.trans hlater), hdelivered] at htaken
  exact (List.append_cancel_left htaken).symm

/-- A delivery on its way is that of the thread that carries it, and of nobody else. -/
theorem exists_carrier (hbusy : s.state.flushing = true) :
    ∃ carrier batch, inFlight s = [(carrier, batch)] ∧ Carrying s carrier := by
  cases (ledger h).flight with
  | resting resting =>
    have hrests : s.state.flushing = false := resting
    rw [hbusy] at hrests
    contradiction
  | @busy carrier position batch _ here _ carried underway =>
    rw [System.place_layout] at here
    exact ⟨carrier, batch, carried, position, here, underway.carries⟩

/-- A thread that does not carry the batch on its way sees that of another one. -/
theorem exists_other {thread : Nat} {position : Position α} (hbusy : s.state.flushing = true)
    (hplace : placeIn s.threads thread = some position) (hfree : position.carries = false) :
    ∃ carrier batch, carrier ≠ thread ∧ inFlight s = [(carrier, batch)] := by
  obtain ⟨carrier, batch, hflight, place, hthere, hcarries⟩ := exists_carrier h hbusy
  refine ⟨carrier, batch, ?_, hflight⟩
  rintro rfl
  cases hplace.symm.trans hthere
  rw [hfree] at hcarries
  contradiction

end New

/-! ### Giving up, and joining -/

section Flushes

variable {limit : Nat} {interval : Duration} {limit_pos : 0 < limit}
  {interval_pos : 0 < interval.nanos} {now : Instant} {began begun s : System (monitor α)}
  {thread : Nat} {request : Request α} {steps : List (OwnStep (monitor α))}
  (h : (system (.empty limit interval limit_pos interval_pos) now).Reachable began)
  (hbegin : began.next (.call thread request) = some begun)

include hbegin

/-- Only a flush can give up. -/
theorem purpose_of_expired (hsteps : OwnSteps thread begun steps s) {call : Call (monitor α)}
    {error : FlushTimeoutError}
    (hreturned : begun.returnsOf thread ++ [(call, .flushed (.error error))] <+:
      s.returnsOf thread) : request.purpose = .flush := by
  obtain ⟨hplace, hopen, _⟩ := System.begun_of_next hbegin
  have hcalled : (start request began.now).purpose ≠ .tick := by
    rw [purpose_start]
    cases request <;> nofun
  obtain ⟨_, _, position, move, _, hmoves, hpurpose, houtcome⟩ :=
    (kept_purpose hplace hcalled).of_returned hopen hsteps hreturned
  have hallows := allows_of_moves hmoves.moves houtcome
  rw [hpurpose, purpose_start] at hallows
  exact purpose_of_allows hallows

theorem place_of_flush (hflush : request.purpose = .flush) :
    placeIn begun.threads thread = some (.enter (.flush (request.deadline began.now))) := by
  rw [← start_of_purpose hflush]
  exact (System.begun_of_next hbegin).1

include h

/-- A flush that gives up has waited for one delivery from its first step to its last. -/
theorem gaveUp_of_returned (hsteps : OwnSteps thread begun steps s) {call : Call (monitor α)}
    {error : FlushTimeoutError}
    (hreturned : begun.returnsOf thread ++ [(call, .flushed (.error error))] <+:
      s.returnsOf thread) :
    ∃ first last, steps.head? = some first ∧ steps.getLast? = some last ∧
      GaveUp thread (request.deadline began.now) first last steps := by
  have hplace := place_of_flush hbegin (purpose_of_expired hbegin hsteps hreturned)
  obtain ⟨_, hopen, _⟩ := System.begun_of_next hbegin
  have hbegun := h.trans (.single hbegin)
  obtain ⟨before, last, position, move, rfl, hmoves, hwaited, houtcome⟩ :=
    (kept_waited (fun _ => rfl) hplace).of_returned hopen hsteps hreturned
  have hlast := hbegun.trans hmoves.since
  cases hwaited with
  | begins =>
    cases hmoves.moves
    obtain ⟨hbusy, hlate⟩ := flushing_of_stepEnter (fun _ => rfl) houtcome
    obtain ⟨carrier, batch, hother, hflight⟩ := exists_other hlast hbusy hmoves.place rfl
    refine ⟨last, last, rfl, rfl, ⟨carrier, batch, hother, hflight, hflight⟩, hbusy, hbusy, rfl,
      hlate, ?_⟩
    intro step hmem
    rw [List.mem_singleton.1 hmem]
    exact isStill_of_moves hmoves (still_of_stepEnter hbusy)
  | @looked first rest _ _ moves stands still =>
    obtain ⟨hbusy, rfl, hround, hlate⟩ :=
      stands.round_of_expired (fun _ => rfl) hmoves.moves houtcome
    have hunderway : last.before.state.flushing = true := by
      rcases joins_of_place hlast hmoves.place with hover | ⟨_, hflushing⟩
      · rw [hround] at hover
        exact absurd hover (Nat.lt_irrefl _)
      · exact hflushing
    have hfirst := hbegun.trans moves.since
    have hlater := hsteps.before_last.reachable_of_mem (List.mem_cons_self ..)
    obtain ⟨carrier, batch, hother, hflight⟩ := exists_other hfirst hbusy moves.place rfl
    refine ⟨first, last, rfl, List.getLast?_concat, ⟨carrier, batch, hother, hflight, ?_⟩, hbusy,
      hunderway, hround, hlate, ?_⟩
    · rw [inFlight_of_round hfirst hlater hbusy hunderway hround, hflight]
    · intro step hmem
      rcases List.mem_append.1 hmem with hold | hnew
      · exact still hbusy step hold
      · rw [List.mem_singleton.1 hnew]
        exact isStill_of_moves hmoves (stands.still hbusy hmoves.moves)

/-- A flush that has found a delivery on its way can go on once the round is over, and then has
joined it. -/
theorem joins_of_round (hflush : request.purpose = .flush)
    (hsteps : OwnSteps thread begun steps s)
    (hlasts : s.returnsOf thread = begun.returnsOf thread) {first : OwnStep (monitor α)}
    (hhead : steps.head? = some first) (hbusy : first.before.state.flushing = true)
    (hround : s.state.round ≠ first.before.state.round) :
    s.Enabled thread ∧ ∀ input wakee s', s.next (.step thread input wakee) = some s' →
      s'.replyOf thread = some (.flushed (.ok .joined)) ∧ s'.state = s.state := by
  have hplace := place_of_flush hbegin hflush
  obtain ⟨_, hopen, _⟩ := System.begun_of_next hbegin
  have hs := (h.trans (.single hbegin)).trans hsteps.reachable
  obtain ⟨position, hthere, hwaited⟩ :=
    (kept_waited (fun _ => rfl) hplace).of_lasts hopen hsteps hlasts
  cases hwaited with
  | begins => contradiction
  | looked moves stands still =>
    cases hhead
    cases stands with
    | call rests | deliver rests | record rests =>
      rw [hbusy] at rests
      contradiction
    | join =>
      constructor
      · obtain ⟨phase, here, hphase⟩ := Option.bind_eq_some_iff.1 hthere
        cases phase with
        | idle | returned | ended => contradiction
        | asleep condition wakeAt place =>
          -- whoever still sleeps does so for the present round
          cases hphase
          obtain ⟨_, errand, hjoin⟩ := joins_of_asleep hs here
          exact absurd (Position.join.inj hjoin).2.symm hround
        | ready place | woken condition place =>
          have hnext : ∃ after, s.next (.step thread .nothing 0) = some after :=
            exists_next here hphase rfl 0
          exact ⟨.nothing, 0, Option.isSome_iff_exists.2 hnext⟩
      · intro input wakee s' hnext
        obtain ⟨place, move, hplace', hmove, hlayout⟩ := System.moves_of_next hnext
        cases hthere.symm.trans hplace'
        have hjoined := hmove.symm.trans (congrArg some (stepJoin_of_round hround))
        cases hjoined
        exact ⟨(System.replyOf_of_next hnext hthere hmove _).2 rfl, congrArg Layout.state hlayout⟩

end Flushes

/-- Whatever threads and the sink do: a flush gives up only if its first step finds a delivery of
another thread on its way, if that delivery is not complete at the step at which it gives up, in the
same round and with the buffer still flushing, and if its deadline has come by then; and none of its
steps changes or records anything. A flush whose first step finds no delivery on its way does from
there on what one without a deadline does, whatever the time and whatever the others do. One that
waits for a delivery whose round is over is awake, and has joined that delivery at its next step,
whatever the time. No call without a deadline gives up, nor one whose timeout leaves the range of
moments, which sets none. -/
theorem only_joiners_give_up {limit : Nat} {interval : Duration} {limit_pos : 0 < limit}
    {interval_pos : 0 < interval.nanos} {now : Instant} {began begun : System (monitor α)}
    {thread : Nat} {request : Request α}
    (h : (system (.empty limit interval limit_pos interval_pos) now).Reachable began)
    (hbegin : began.next (.call thread request) = some begun) :
    (∀ steps s call error, OwnSteps thread begun steps s →
      begun.returnsOf thread ++ [(call, .flushed (.error error))] <+: s.returnsOf thread →
        ∃ first last, steps.head? = some first ∧ steps.getLast? = some last ∧
          GaveUp thread (request.deadline began.now) first last steps) ∧
      (request.purpose = .flush →
        ∃ begun', began.next (.call thread .flush) = some begun' ∧
          ∀ events look input wakee rest, System.Spares thread events →
            begun.run events = some look → look.state.flushing = false →
              (begun.run (events ++ .step thread input wakee :: rest)).map
                  (System.apartFrom thread) =
                (begun'.run (events ++ .step thread input wakee :: rest)).map
                  (System.apartFrom thread)) ∧
      (request.purpose = .flush → ∀ steps s first, OwnSteps thread begun steps s →
        s.returnsOf thread = begun.returnsOf thread → steps.head? = some first →
        first.before.state.flushing = true → s.state.round ≠ first.before.state.round →
          s.Enabled thread ∧ ∀ input wakee s', s.next (.step thread input wakee) = some s' →
            s'.replyOf thread = some (.flushed (.ok .joined)) ∧ s'.state = s.state) ∧
      (request.deadline began.now = none → ∀ s call error, begun.Reachable s →
        ¬ begun.returnsOf thread ++ [(call, .flushed (.error error))] <+: s.returnsOf thread) := by
  refine ⟨?_, ?_, ?_, ?_⟩
  · intro steps s call error hsteps hreturned
    exact gaveUp_of_returned h hbegin hsteps hreturned
  · intro hflush
    obtain ⟨begun', hbegin', htwins⟩ := System.Twins.of_call Request.flush hbegin
    refine ⟨begun', hbegin', ?_⟩
    intro events look input wakee rest hspares hlook hrests
    have hstart : (monitor α).start request began.now =
        .enter (.flush (request.deadline began.now)) := start_of_purpose hflush
    rw [hstart] at htwins
    obtain ⟨look', hlook', hthere⟩ := htwins.run hspares hlook
    rw [System.run_append, System.run_append, hlook, hlook', Option.bind_some, Option.bind_some]
    exact hthere.map_run_of_agree (matched_asLate _) wakee rfl rfl (agree_stepEnter _ hrests) rest
  · intro hflush steps s first hsteps hlasts hhead hbusy hround
    exact joins_of_round h hbegin hflush hsteps hlasts hhead hbusy hround
  · intro hnever s call error hlater hreturned
    obtain ⟨steps, hsteps⟩ := OwnSteps.exists_ownSteps thread hlater
    obtain ⟨first, last, _, _, hgave⟩ := gaveUp_of_returned h hbegin hsteps hreturned
    have hlate := hgave.late
    rw [hnever] at hlate
    contradiction

/-- Has a flush given up? -/
def Reply.isExpired : Reply α → Bool
  | .flushed (.error _) => true
  | _ => false

theorem eq_of_isExpired {reply : Reply α} (h : reply.isExpired = true) :
    reply = .flushed (.error {}) := by
  unfold Reply.isExpired at h
  split at h
  · rfl
  · contradiction

/-- A first item is at the sink. -/
def itemAtSink : List (Event (monitor Nat)) :=
  [.arrive, .arrive, .call 1 (.add 1), .step 1 .nothing 0, .call 1 .flush, .step 1 .nothing 0,
    .step 1 .nothing 0]

/-- A second thread waits for that delivery, is woken once for no reason, and once after its
deadline. -/
def slowSink : List (Event (monitor Nat)) :=
  [.step 2 .nothing 0, .rouse 2, .step 2 .nothing 0, .elapse ⟨6, by decide⟩, .rouse 2,
    .step 2 .nothing 0]

theorem only_joiners_give_up_slowSink :
    ∃ began begun s call, (system (.empty 9 ⟨1, by decide⟩ (by decide) (by decide)) .midrange).run
        itemAtSink = some began ∧
      began.next (.call 2 (.flushTimeout ⟨5, by decide⟩)) = some begun ∧
      begun.run slowSink = some s ∧
      begun.returnsOf 2 ++ [(call, .flushed (.error {}))] <+: s.returnsOf 2 ∧
      ∀ steps, OwnSteps 2 begun steps s → ∃ first last, steps.head? = some first ∧
        steps.getLast? = some last ∧
        GaveUp 2 (.after began.now ⟨5, by decide⟩) first last steps := by
  have hruns : ((system (.empty 9 ⟨1, by decide⟩ (by decide) (by decide)) .midrange).run
      itemAtSink).bind (fun began => (began.next (.call 2 (.flushTimeout ⟨5, by decide⟩))).bind
        fun begun => (begun.run slowSink).map fun s => decide (begun.returnsOf 2 = [] ∧
          (s.returnsOf 2).map (·.2.isExpired) = [true])) = some true := by
    decide +kernel
  obtain ⟨began, hbegan, hruns⟩ := Option.bind_eq_some_iff.1 hruns
  obtain ⟨begun, hbegin, hruns⟩ := Option.bind_eq_some_iff.1 hruns
  obtain ⟨s, hlater, hshown⟩ := Option.map_eq_some_iff.1 hruns
  obtain ⟨hnone, hexpired⟩ := of_decide_eq_true hshown
  obtain ⟨call, reply, hreturned, hgave⟩ := System.exists_first hnone hexpired
  cases eq_of_isExpired hgave
  refine ⟨began, begun, s, call, hbegan, hbegin, hlater, hreturned, ?_⟩
  intro steps hsteps
  exact (only_joiners_give_up (.run .start hbegan) hbegin).1 steps s call _ hsteps hreturned

end Backpressure.Buffer
