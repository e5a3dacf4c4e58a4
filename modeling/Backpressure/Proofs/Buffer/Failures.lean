import Mathlib.Data.List.Forall2
import Backpressure.Proofs.Blinding
import Backpressure.Proofs.Buffer.Calls
import Backpressure.Proofs.Buffer.SingleFlight

/-!
# Failures of the sink

How the sink ends its calls makes no difference to anything but which side a delivery is counted on,
and what its caller is told of it. With every outcome replaced by a success, a run is a run still.
-/

namespace Backpressure

/-- The counts as they would be if the sink had accepted everything. -/
def Tally.asAccepted (t : Tally) : Tally :=
  { deliveredBatches := t.batches, deliveredItems := t.deliveredItems + t.failedItems }

/-- What a flush would come to if the sink accepted everything. -/
def Flush.asAccepted : Flush → Flush
  | .failed size => .delivered size
  | flush => flush

/-- A delivery is counted as one, whatever comes of it. -/
theorem Tally.asAccepted_add (t : Tally) (size : Nat) (accepted : Bool) :
    (t.add size accepted).asAccepted = t.asAccepted.add size true := by
  cases accepted with
  | true => simp [Tally.add, Tally.asAccepted, Tally.batches]; omega
  | false => simp [Tally.add, Tally.asAccepted, Tally.batches]; omega

@[simp]
theorem Flush.asAccepted_ofDelivery (size : Nat) (accepted : Bool) :
    (ofDelivery size accepted).asAccepted = .ofDelivery size true := by
  cases accepted <;> rfl

theorem Flush.exists_ofDelivery {flush : Flush} {size : Nat}
    (h : flush.asAccepted = .delivered size) : ∃ accepted, flush = .ofDelivery size accepted := by
  cases flush with
  | delivered => exact ⟨true, h⟩
  | failed =>
    cases h
    exact ⟨false, rfl⟩
  | empty | joined => contradiction

theorem Flush.eq_of_asAccepted {flush seen : Flush} (h : flush.asAccepted = seen)
    (hother : ∀ size, seen ≠ .delivered size) : flush = seen := by
  cases flush with
  | delivered size | failed size => exact absurd h.symm (hother size)
  | empty | joined => exact h

/-- Flushes that would come to the same are the same, or are deliveries of the same size. -/
theorem Flush.eq_or_deliveries {flush flush' : Flush} (h : flush.asAccepted = flush'.asAccepted) :
    flush' = flush ∨ ∃ size accepted accepted',
      flush = .ofDelivery size accepted ∧ flush' = .ofDelivery size accepted' := by
  cases hseen : flush.asAccepted with
  | delivered size =>
    right
    obtain ⟨accepted, hflush⟩ := exists_ofDelivery hseen
    obtain ⟨accepted', hflush'⟩ := exists_ofDelivery (h.symm.trans hseen)
    exact ⟨size, accepted, accepted', hflush, hflush'⟩
  | failed | empty | joined =>
    left
    rw [eq_of_asAccepted hseen (by rintro _ ⟨⟩),
      eq_of_asAccepted (h.symm.trans hseen) (by rintro _ ⟨⟩)]

namespace Buffer

variable {α : Type}

/-- The buffer as it would be if the sink had accepted everything. -/
def asAccepted (b : Buffer α) : Buffer α := { b with tally := b.tally.asAccepted }

/-- The same place, but for the outcome of a delivery. -/
def Position.asAccepted : Position α → Position α
  | .record errand size _ => .record errand size true
  | position => position

/-- What a call would return if the sink accepted everything. -/
def Reply.asAccepted : Reply α → Reply α
  | .flushed result => .flushed (result.map Flush.asAccepted)
  | .snapshot buffer => .snapshot buffer.asAccepted
  | .added => .added

/-- What a step would record if the sink accepted everything. -/
def Note.asAccepted : Note α → Note α
  | .returned batch _ => .returned batch .accepted
  | .recorded size _ => .recorded size true
  | note => note

/-- The surroundings of a step with a sink that accepts everything. -/
def Input.asAccepted : Input → Input
  | .outcome _ => .outcome .accepted
  | input => input

/-- A step, seen as if the sink accepted everything. -/
abbrev seen (move : Step α) : Step α :=
  move.embed Buffer.asAccepted Position.asAccepted id Note.asAccepted fun r => .reply r.asAccepted

section Step

variable (b : Buffer α) (now : Instant) (errand : Errand)

/-- A flush leads its thread on as it would if the sink accepted everything. -/
theorem seen_finish (flush : Flush) (signals : List (Signal Condition)) (notes : List (Note α)) :
    (seen { state := b, outcome := finish errand flush, signals, notes }).outcome =
      finish errand flush.asAccepted := by
  cases errand with
  | flush | shutdown | tick => rfl
  | add => cases flush <;> rfl

theorem wait_asAccepted (round : Nat) :
    wait b.asAccepted now errand round = seen (wait b now errand round) := by
  unfold wait
  split <;> rfl

theorem stepEnter_asAccepted :
    stepEnter b.asAccepted now errand = seen (stepEnter b now errand) := by
  have hflushing : b.asAccepted.flushing = b.flushing := rfl
  have hpending : b.asAccepted.pending = b.pending := rfl
  have hround : b.asAccepted.round = b.round := rfl
  rw [stepEnter, stepEnter, hflushing, hpending, hround]
  split
  · exact wait_asAccepted b now errand b.round
  · split
    · exact congrArg (Move.mk b.asAccepted · [] []) (seen_finish b errand .empty [] []).symm
    · rfl

theorem stepJoin_asAccepted (round : Nat) :
    stepJoin b.asAccepted now errand round = seen (stepJoin b now errand round) := by
  have hround : b.asAccepted.round = b.round := rfl
  rw [stepJoin, stepJoin, hround]
  split
  · exact wait_asAccepted b now errand round
  · exact congrArg (Move.mk b.asAccepted · [] []) (seen_finish b errand .joined [] []).symm

theorem stepRecord_asAccepted (size : Nat) (accepted : Bool) :
    stepRecord b.asAccepted errand size true = seen (stepRecord b errand size accepted) := by
  have houtcome := seen_finish (b.complete size accepted) errand (.ofDelivery size accepted)
    [.all .flushed] [.recorded size accepted]
  rw [Flush.asAccepted_ofDelivery] at houtcome
  have hstate : (b.complete size accepted).asAccepted = b.asAccepted.complete size true := by
    simp only [Buffer.complete, Buffer.asAccepted, Tally.asAccepted_add]
  rw [stepRecord, ← houtcome, ← hstate]
  rfl

/-- Every step is seen as a step. -/
theorem step_asAccepted (position : Position α) (input : Input) :
    step b.asAccepted now position.asAccepted input.asAccepted =
      (step b now position input).map seen := by
  cases position with
  | append item =>
    have hdue : (b.asAccepted.append item).isDue = (b.append item).isDue := rfl
    simp only [step, Position.asAccepted, stepAppend, hdue, Option.map_some]
    split <;> rfl
  | enter errand => exact congrArg some (stepEnter_asAccepted b now errand)
  | join errand round => exact congrArg some (stepJoin_asAccepted b now errand round)
  | call errand batch => rfl
  | deliver errand batch => cases input <;> rfl
  | record errand size accepted =>
    exact congrArg some (stepRecord_asAccepted b errand size accepted)
  | recheck =>
    have hdue : b.asAccepted.isDue = b.isDue := rfl
    simp only [step, Position.asAccepted, stepRecheck, hdue, Option.map_some]
    split <;> rfl
  | stop =>
    have hticker : b.asAccepted.ticker = b.ticker := rfl
    simp only [step, Position.asAccepted, stepStop, hticker]
    cases b.ticker <;> rfl
  | await =>
    have hticker : b.asAccepted.ticker = b.ticker := rfl
    simp only [step, Position.asAccepted, stepAwait, hticker]
    cases b.ticker <;> rfl
  | launch => rfl
  | select =>
    have hticker : b.asAccepted.ticker = b.ticker := rfl
    cases input with
    | stop =>
      simp only [step, Position.asAccepted, Input.asAccepted, stepSelect, hticker]
      split <;> rfl
    | nothing | outcome | tick => rfl
  | inspect => rfl

end Step

/-- A buffer, seen as if the sink accepted everything. -/
def acceptedAll (α : Type) : Blind (monitor α) where
  state := Buffer.asAccepted
  position := Position.asAccepted
  reply := Reply.asAccepted
  note := Note.asAccepted
  input := Input.asAccepted
  start request now := by cases request <;> rfl
  step := step_asAccepted

/-! ### Two sinks -/

/-- Two schedules that differ only in how the sink ends its calls. -/
def SameButOutcomes : List (Event (monitor α)) → List (Event (monitor α)) → Prop :=
  List.Forall₂ fun event event' => event' = event ∨ ∃ thread wakee outcome outcome',
    event = .step thread (.outcome outcome) wakee ∧ event' = .step thread (.outcome outcome') wakee

/-- Two buffers that differ only in how many of the deliveries the sink has accepted. -/
structure SameButCounts (b b' : Buffer α) : Prop where
  limit : b'.limit = b.limit
  interval : b'.interval = b.interval
  pending : b'.pending = b.pending
  flushing : b'.flushing = b.flushing
  round : b'.round = b.round
  ticker : b'.ticker = b.ticker
  batches : b'.tally.deliveredBatches + b'.tally.failedBatches =
    b.tally.deliveredBatches + b.tally.failedBatches
  items : b'.tally.deliveredItems + b'.tally.failedItems =
    b.tally.deliveredItems + b.tally.failedItems

/-- Two replies that are the same, or tell of a delivery of the same size, or show buffers that are
the same but for what the sink has accepted. -/
inductive Reply.Exchanged : Reply α → Reply α → Prop
  | same (reply : Reply α) : Exchanged reply reply
  | delivery (size : Nat) (accepted accepted' : Bool) :
      Exchanged (.flushed (.ok (.ofDelivery size accepted)))
        (.flushed (.ok (.ofDelivery size accepted')))
  | snapshot {b b' : Buffer α} (same : SameButCounts b b') :
      Exchanged (.snapshot b) (.snapshot b')

/-- Two systems that differ only in what the sink has accepted. -/
structure SameButFailures (s s' : System (monitor α)) : Prop where
  now : s'.now = s.now
  state : SameButCounts s.state s'.state
  additions : additions s' = additions s
  taken : taken s' = taken s
  sinkCalls : sinkCalls s' = sinkCalls s
  /-- The same calls have returned, in the same order, and they have come to the same. -/
  returns : List.Forall₂ (fun returned returned' =>
    returned'.1.thread = returned.1.thread ∧ returned'.1.request = returned.1.request ∧
      Reply.Exchanged returned.2 returned'.2) s.returns s'.returns
  /-- Every thread is at the same place. -/
  places : ∀ thread, (placeIn s'.threads thread).map Position.asAccepted =
    (placeIn s.threads thread).map Position.asAccepted

theorem sameButCounts_of_asAccepted {b b' : Buffer α} (h : b.asAccepted = b'.asAccepted) :
    SameButCounts b b' where
  limit := (congrArg Buffer.limit h).symm
  interval := (congrArg Buffer.interval h).symm
  pending := (congrArg Buffer.pending h).symm
  flushing := (congrArg Buffer.flushing h).symm
  round := (congrArg Buffer.round h).symm
  ticker := (congrArg Buffer.ticker h).symm
  batches := (congrArg (·.tally.deliveredBatches) h).symm
  items := (congrArg (·.tally.deliveredItems) h).symm

theorem exchanged_of_asAccepted {reply reply' : Reply α}
    (h : reply.asAccepted = reply'.asAccepted) : reply.Exchanged reply' := by
  cases reply with
  | added =>
    cases reply' with
    | added => exact .same _
    | flushed | snapshot => contradiction
  | snapshot b =>
    cases reply' with
    | snapshot b' => exact .snapshot (sameButCounts_of_asAccepted (Reply.snapshot.inj h))
    | added | flushed => contradiction
  | flushed result =>
    cases reply' with
    | added | snapshot => contradiction
    | flushed result' =>
      have hresult := Reply.flushed.inj h
      cases result with
      | error error =>
        cases result' with
        | error error' => exact .same _
        | ok => contradiction
      | ok flush =>
        cases result' with
        | error => contradiction
        | ok flush' =>
          rcases Flush.eq_or_deliveries (Except.ok.inj hresult) with
            rfl | ⟨size, accepted, accepted', rfl, rfl⟩
          · exact .same _
          · exact .delivery size accepted accepted'

/-- Schedules that differ only in outcomes are the same if the sink accepts everything. -/
theorem map_event_of_sameButOutcomes {events events' : List (Event (monitor α))}
    (h : SameButOutcomes events events') :
    events.map (acceptedAll α).event = events'.map (acceptedAll α).event := by
  induction h with
  | nil => rfl
  | cons hfirst _ ih =>
    rw [List.map_cons, List.map_cons, ih]
    rcases hfirst with rfl | ⟨thread, wakee, outcome, outcome', rfl, rfl⟩ <;> rfl

/-- What the notes tell does not depend on what the sink has accepted. -/
theorem told_asAccepted {β : Type} {tell : Nat × Note α → Option β}
    (htell : ∀ thread note, tell (thread, Note.asAccepted note) = tell (thread, note))
    (s : System (monitor α)) :
    told tell ((acceptedAll α).system s).view.notes = told tell s.view.notes := by
  have hsame : (tell ∘ fun noted : Nat × Note α => (noted.1, Note.asAccepted noted.2)) = tell :=
    funext fun noted => htell noted.1 noted.2
  rw [told, told, (acceptedAll α).notes_system, List.filterMap_map]
  exact congrArg (fun f => (s.view.notes.filterMap f).reverse) hsame

theorem told_of_asAccepted {β : Type} {tell : Nat × Note α → Option β} {s s' : System (monitor α)}
    (htell : ∀ thread note, tell (thread, Note.asAccepted note) = tell (thread, note))
    (h : (acceptedAll α).system s = (acceptedAll α).system s') :
    told tell s'.view.notes = told tell s.view.notes := by
  rw [← told_asAccepted htell s, h, told_asAccepted htell s']

/-- Two systems that would be the same if the sink accepted everything. -/
theorem sameButFailures_of_system {s s' : System (monitor α)}
    (h : (acceptedAll α).system s = (acceptedAll α).system s') : SameButFailures s s' where
  now := (congrArg System.now h).symm
  state := sameButCounts_of_asAccepted (congrArg System.state h)
  additions := by
    refine told_of_asAccepted (fun thread note => ?_) h
    cases note <;> rfl
  taken := by
    refine told_of_asAccepted (fun thread note => ?_) h
    cases note <;> rfl
  sinkCalls := by
    refine told_of_asAccepted (fun thread note => ?_) h
    cases note <;> rfl
  returns := by
    have hreturns := congrArg System.returns h
    rw [(acceptedAll α).returns_system, (acceptedAll α).returns_system, ← List.forall₂_eq_eq_eq,
      List.forall₂_map_left_iff, List.forall₂_map_right_iff] at hreturns
    refine hreturns.imp ?_
    intro returned returned' hsame
    exact ⟨(congrArg (·.1.thread) hsame).symm, (congrArg (·.1.request) hsame).symm,
      exchanged_of_asAccepted (congrArg (·.2) hsame)⟩
  places thread := by
    have hplaces := congrArg (placeIn ·.threads thread) h
    rw [(acceptedAll α).placeIn_system, (acceptedAll α).placeIn_system] at hplaces
    exact hplaces.symm

section New

variable {b : Buffer α} {now : Instant}

/-- With other outcomes a schedule can be followed as far, and leads to the same but for these. -/
theorem run_sameButOutcomes {events events' : List (Event (monitor α))}
    (hsame : SameButOutcomes events events') :
    Option.Rel SameButFailures ((system b now).run events) ((system b now).run events') := by
  have hseen := (acceptedAll α).run_eq (map_event_of_sameButOutcomes hsame) (system b now)
  cases hrun : (system b now).run events with
  | none =>
    rw [hrun] at hseen
    rw [Option.map_eq_none_iff.1 hseen.symm]
    exact .none
  | some s =>
    rw [hrun] at hseen
    obtain ⟨s', hrun', hsystem⟩ := Option.map_eq_some_iff.1 hseen.symm
    rw [hrun']
    exact .some (sameButFailures_of_system hsystem.symm)

/-- However the sink's call ends, its thread goes on to record it, and the buffer stays as it is. -/
theorem goes_on_after_sink {limit : Nat} {interval : Duration} {limit_pos : 0 < limit}
    {interval_pos : 0 < interval.nanos} {s : System (monitor α)}
    (h : (system (.empty limit interval limit_pos interval_pos) now).Reachable s) {thread : Nat}
    {errand : Errand} {batch : List α}
    (hplace : placeIn s.threads thread = some (.deliver errand batch)) (outcome : SinkOutcome)
    (wakee : Nat) :
    ∃ s', s.next (.step thread (.outcome outcome) wakee) = some s' ∧ s'.state = s.state ∧
      placeIn s'.threads thread = some (.record errand batch.length outcome.isAccepted) := by
  obtain ⟨s', hnext, hrecord⟩ := exists_returned h hplace outcome wakee
  obtain ⟨position, move, hposition, moves, hlayout⟩ := System.moves_of_next hnext
  rw [hplace] at hposition
  cases hposition
  cases moves
  exact ⟨s', hnext, congrArg Layout.state hlayout, hrecord⟩

end New

/-- Under schedules that differ only in how the sink ends its calls, a buffer goes through the same
states: after any number of events either run is stuck as the other is, or the pending items, the
flag, the round, the items added, the batches taken and handed to the sink and the sums of the
counts agree, and the same calls have returned the same, but that a flush tells of a failed delivery
where another tells of a successful one.

No end of a sink's call reaches a caller. Whatever it is, the thread goes on to record it, with the
buffer as it is; no thread is lost from its call; and a call returns what it may: an add that it has
added, a shutdown how it has flushed, and a flush that, or that it has given up waiting. -/
theorem failures_change_nothing_else {limit : Nat} {interval : Duration} {limit_pos : 0 < limit}
    {interval_pos : 0 < interval.nanos} {now : Instant} :
    (∀ events events' : List (Event (monitor α)), SameButOutcomes events events' → ∀ count,
      Option.Rel SameButFailures
        ((system (.empty limit interval limit_pos interval_pos) now).run (events.take count))
        ((system (.empty limit interval limit_pos interval_pos) now).run (events'.take count))) ∧
    ∀ s : System (monitor α),
      (system (.empty limit interval limit_pos interval_pos) now).Reachable s →
        (∀ thread errand batch, placeIn s.threads thread = some (.deliver errand batch) →
          ∀ outcome wakee, ∃ s', s.next (.step thread (.outcome outcome) wakee) = some s' ∧
            s'.state = s.state ∧
            placeIn s'.threads thread = some (.record errand batch.length outcome.isAccepted)) ∧
        (∀ thread call, openCall thread s.journal = some call →
          ∃ position, placeIn s.threads thread = some position ∧
            position.purpose = call.request.purpose) ∧
        ∀ call reply, (call, reply) ∈ s.returns → call.request.purpose.Allows reply := by
  refine ⟨?_, ?_⟩
  · intro events events' hsame count
    exact run_sameButOutcomes (List.forall₂_take count hsame)
  · intro s h
    refine ⟨?_, ?_, ?_⟩
    · intro thread errand batch hplace outcome wakee
      exact goes_on_after_sink h hplace outcome wakee
    · intro thread call hopen
      exact place_of_openCall h hopen
    · intro call reply hmem
      exact (purposeRule_holds h).comes hmem

/-- A first batch is flushed by one thread while another one waits for it, which then fills the
buffer a second time. -/
def flushThenFill (first second : SinkOutcome) : List (Event (monitor Nat)) :=
  [.arrive, .arrive, .call 1 (.add 1), .step 1 .nothing 0, .call 1 .flush, .step 1 .nothing 0,
    .step 1 .nothing 0, .call 2 .flush, .step 2 .nothing 0, .step 1 (.outcome first) 0,
    .step 1 .nothing 0, .step 2 .nothing 0, .call 2 (.add 2), .step 2 .nothing 0, .call 2 (.add 3),
    .step 2 .nothing 0, .step 2 .nothing 0, .step 2 .nothing 0, .step 2 (.outcome second) 0,
    .step 2 .nothing 0]

theorem failures_change_nothing_else_flushThenFill :
    ∃ s s' : System (monitor Nat),
      (system (.empty 2 ⟨1, by decide⟩ (by decide) (by decide)) .midrange).run
          (flushThenFill .accepted .accepted) = some s ∧
        (system (.empty 2 ⟨1, by decide⟩ (by decide) (by decide)) .midrange).run
          (flushThenFill (.refused "disk full") (.crashed none)) = some s' ∧
        SameButFailures s s' ∧ s.state.tally.deliveredBatches = 2 ∧
        s'.state.tally.failedBatches = 2 := by
  have haccepted : ((system (.empty 2 ⟨1, by decide⟩ (by decide) (by decide)) .midrange).run
      (flushThenFill .accepted .accepted)).map
        (fun s : System (monitor Nat) => s.state.tally.deliveredBatches) = some 2 := by
    decide +kernel
  have hfailed : ((system (.empty 2 ⟨1, by decide⟩ (by decide) (by decide)) .midrange).run
      (flushThenFill (.refused "disk full") (.crashed none))).map
        (fun s : System (monitor Nat) => s.state.tally.failedBatches) = some 2 := by
    decide +kernel
  obtain ⟨s, hrun, hdelivered⟩ := Option.map_eq_some_iff.1 haccepted
  obtain ⟨s', hrun', hfailures⟩ := Option.map_eq_some_iff.1 hfailed
  refine ⟨s, s', hrun, hrun', ?_, hdelivered, hfailures⟩
  have hsame : SameButOutcomes (flushThenFill .accepted .accepted)
      (flushThenFill (.refused "disk full") (.crashed none)) := by
    simp [SameButOutcomes, flushThenFill]
  have halike : Option.Rel SameButFailures
      ((system (.empty 2 ⟨1, by decide⟩ (by decide) (by decide)) .midrange).run
        (flushThenFill .accepted .accepted))
      ((system (.empty 2 ⟨1, by decide⟩ (by decide) (by decide)) .midrange).run
        (flushThenFill (.refused "disk full") (.crashed none))) :=
    failures_change_nothing_else.1 _ _ hsame 20
  rw [hrun, hrun'] at halike
  cases halike with
  | some halike => exact halike

end Buffer

end Backpressure
