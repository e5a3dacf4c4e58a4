import Backpressure.Proofs.Channel.Closing
import Backpressure.Proofs.Channel.Sideband
import Backpressure.Proofs.Lanes

/-!
# The two lanes of a channel

Items and errors share a lock and nothing else. What pushes, polls and closes do, and what they
come to, is the same with and without the errors that are reported and read beside them, and what
becomes of the errors is the same with and without the items.
-/

namespace Backpressure.Channel

variable {α : Type}

/-- Does a call add or take an item, or close the channel? -/
def Request.isData : Request α → Bool
  | .push _ | .pushTimeout _ _ | .pushDeadline _ _ | .tryPush _ => true
  | .poll | .pollTimeout _ | .pollDeadline _ | .tryPoll | .close => true
  | _ => false

/-- Does a call report, read or count errors? -/
def Request.isSideband : Request α → Bool
  | .reportError _ | .pollError | .errorCount | .droppedErrors => true
  | _ => false

/-- Is a thread at this place about to add or take an item, or to close the channel? -/
def Position.isData : Position α → Bool
  | .push _ _ | .tryPush _ | .poll _ | .tryPoll | .close => true
  | _ => false

/-- Is a thread at this place about to report, read or count errors? -/
def Position.isSideband : Position α → Bool
  | .reportError _ | .pollError | .errorCount | .droppedErrors => true
  | _ => false

/-- The channel with other errors. -/
def withErrors (errors : Sideband) (c : Channel α) : Channel α := { c with errors }

/-- The channel with other items, open or closed. -/
def withItems (queue : List α) (closed : Bool) (c : Channel α) : Channel α :=
  { c with queue, closed }

/-- A reply of another channel, if it shows the channel. -/
def Reply.onChannel (f : Channel α → Channel α) : Reply α → Reply α
  | .snapshot channel => .snapshot (f channel)
  | reply => reply

@[simp]
theorem isData_start (request : Request α) (now : Instant) :
    (start request now).isData = request.isData := by
  cases request <;> rfl

@[simp]
theorem isSideband_start (request : Request α) (now : Instant) :
    (start request now).isSideband = request.isSideband := by
  cases request <;> rfl

theorem isSideband_of_isData {position : Position α} (h : position.isData = true) :
    position.isSideband = false := by
  cases position <;> first | rfl | contradiction

/-- Who sleeps is about to add or take an item. -/
theorem Effect.isData_of_sleep {c : Channel α} {now : Instant} {position place : Position α}
    {move : Step α} {condition : Condition} {wakeAt : Deadline} (h : Effect c now position move)
    (hsleeps : move.outcome = .sleep condition wakeAt place) : place.isData = true := by
  cases h <;> cases hsleeps <;> rfl

/-- Signals are sent by those who add or take an item or close the channel. -/
theorem Effect.isData_of_signals {c : Channel α} {now : Instant} {position : Position α}
    {move : Step α} {signal : Signal Condition} (h : Effect c now position move)
    (hsignal : signal ∈ move.signals) : position.isData = true := by
  cases h with
  | add offers => cases position <;> first | rfl | contradiction
  | take polls => cases position <;> first | rfl | contradiction
  | close => rfl
  | refuse | lack | awaitRoom | awaitItem | aside => contradiction

/-! ### The lane of the items -/

section Data

variable (errors : Sideband) (c : Channel α)

theorem tryPush_withErrors (item : α) :
    (c.withErrors errors).tryPush item = (c.tryPush item).map (withErrors errors) := by
  have hfull : (c.withErrors errors).isFull = c.isFull := rfl
  have hclosed : (c.withErrors errors).closed = c.closed := rfl
  rw [tryPush, tryPush, hfull, hclosed]
  cases c.closed <;> cases c.isFull <;> rfl

theorem tryPoll_withErrors :
    (c.withErrors errors).tryPoll =
      c.tryPoll.map fun (item, c') => (item, c'.withErrors errors) := by
  have hqueue : (c.withErrors errors).queue = c.queue := rfl
  have hclosed : (c.withErrors errors).closed = c.closed := rfl
  rw [tryPoll, tryPoll, hqueue, hclosed]
  cases c.queue <;> rfl

/-- A step that does not look at the errors does the same whatever they are. -/
theorem step_withErrors {position : Position α} (now : Instant)
    (hdata : position.isSideband = false) :
    step (c.withErrors errors) now position =
      (step c now position).masked (withErrors errors) (.onChannel (withErrors errors)) := by
  cases position with
  | push item deadline =>
    simp only [step, stepPush, tryPush_withErrors]
    cases c.tryPush item with
    | ok c' => rfl
    | error failure =>
      cases failure with
      | closed => rfl
      | full =>
        simp only [Except.map]
        split <;> rfl
  | tryPush item =>
    simp only [step, stepTryPush, tryPush_withErrors]
    cases c.tryPush item <;> rfl
  | poll deadline =>
    simp only [step, stepPoll, tryPoll_withErrors]
    cases c.tryPoll with
    | ok taken => rfl
    | error failure =>
      cases failure with
      | closed => rfl
      | empty =>
        simp only [Except.map]
        split <;> rfl
  | tryPoll =>
    simp only [step, stepTryPoll, tryPoll_withErrors]
    cases c.tryPoll <;> rfl
  | close =>
    have hclosed : (c.withErrors errors).closed = c.closed := rfl
    simp only [step, stepClose, hclosed]
    cases c.closed <;> rfl
  | inspect => rfl
  | reportError | pollError | errorCount | droppedErrors => contradiction

/-- A step on the errors does nothing else. -/
theorem withErrors_step {position : Position α} (now : Instant)
    (hsideband : position.isSideband = true) :
    (step c now position).state.withErrors errors = c.withErrors errors := by
  cases position <;> first | rfl | contradiction

/-- All calls on a channel but those on its errors, which are these in the lane alone. -/
def dataLane : Lane (monitor α) where
  asks request := !request.isSideband
  keeps position := !position.isSideband
  owns _ := true
  state := withErrors errors
  reply := .onChannel (withErrors errors)
  begins request now := congrArg not (isSideband_start request now)
  stays moves hplace := by rw [((effect_of_moves moves).stay hplace).1]
  sleeps moves hsleeps := by
    rw [isSideband_of_isData ((effect_of_moves moves).isData_of_sleep hsleeps)]
    rfl
  wakes moves signal hsignal := by
    rw [isSideband_of_isData ((effect_of_moves moves).isData_of_signals hsignal)]
    rfl
  lasts moves := (effect_of_moves moves).outcome_ne_exit
  inside {c now position input move} moves hkeeps := by
    cases moves
    exact congrArg some (step_withErrors errors c now (by simpa using hkeeps))
  outside {c now position input move} moves hkeeps := by
    cases moves
    exact withErrors_step errors c now (by simpa using hkeeps)

end Data

/-! ### The lane of the errors -/

section Errors

variable (queue : List α) (closed : Bool) (c : Channel α)

/-- A step that looks at neither the items nor the close does the same whatever they are. -/
theorem step_withItems {position : Position α} (now : Instant) (herrors : position.isData = false) :
    step (c.withItems queue closed) now position =
      (step c now position).masked (withItems queue closed)
        (.onChannel (withItems queue closed)) := by
  cases position <;> first | rfl | contradiction

/-- No step changes how many items there is room for. -/
theorem Effect.capacity_eq {now : Instant} {position : Position α} {move : Step α}
    (h : Effect c now position move) : move.state.capacity = c.capacity := by
  cases h with
  | aside _ _ _ _ sameCapacity => exact sameCapacity
  | add | take | refuse | lack | awaitRoom | awaitItem | close => rfl

/-- A step on the items does nothing to the errors. -/
theorem withItems_step {position : Position α} (now : Instant) (hdata : position.isData = true) :
    (step c now position).state.withItems queue closed = c.withItems queue closed := by
  have hcapacity := (@effect_step α c now position).capacity_eq
  have herrors : (step c now position).state.errors = c.errors := by
    cases @sidebandEffect_step α c now position with
    | aside _ sameErrors => exact sameErrors
    | report | read => contradiction
  simp only [withItems, hcapacity, herrors]

/-- All calls on a channel but those on its items, which are these in the lane alone. -/
def errorLane : Lane (monitor α) where
  asks request := !request.isData
  keeps position := !position.isData
  owns _ := false
  state := withItems queue closed
  reply := .onChannel (withItems queue closed)
  begins request now := congrArg not (isData_start request now)
  stays moves hplace := by rw [((effect_of_moves moves).stay hplace).1]
  sleeps moves hsleeps := by
    rw [(effect_of_moves moves).isData_of_sleep hsleeps]
    rfl
  wakes moves signal hsignal := by
    rw [(effect_of_moves moves).isData_of_signals hsignal]
    rfl
  lasts moves := (effect_of_moves moves).outcome_ne_exit
  inside {c now position input move} moves hkeeps := by
    cases moves
    exact congrArg some (step_withItems queue closed c now (by simpa using hkeeps))
  outside {c now position input move} moves hkeeps := by
    cases moves
    exact withItems_step queue closed c now (by simpa using hkeeps)

end Errors

/-! ### What the lanes come to -/

/-- The calls on the items that have returned, in the order in which they did. -/
def dataCalls (s : System (monitor α)) : List (Call (monitor α) × Reply α) :=
  s.returns.filter (·.1.request.isData)

/-- The calls on the errors that have returned, in the order in which they did. -/
def sidebandCalls (s : System (monitor α)) : List (Call (monitor α) × Reply α) :=
  s.returns.filter (·.1.request.isSideband)

/-- Two systems in which the same has become of the items. -/
structure SameItems (s t : System (monitor α)) : Prop where
  now : t.now = s.now
  queue : t.state.queue = s.state.queue
  closed : t.state.closed = s.state.closed
  calls : dataCalls t = dataCalls s
  /-- Whoever is in such a call stands at the same place of it, awake or asleep. -/
  threads : ∀ {thread : Nat} {phase : Phase (monitor α)} {position : Position α},
    phase.place? = some position → position.isData = true →
      (t.threads[thread]? = some phase ↔ s.threads[thread]? = some phase)

/-- Two systems in which the same has become of the errors. -/
structure SameErrors (s t : System (monitor α)) : Prop where
  now : t.now = s.now
  errors : t.state.errors = s.state.errors
  calls : sidebandCalls t = sidebandCalls s
  /-- Whoever is in such a call stands at the same place of it. -/
  threads : ∀ {thread : Nat} {phase : Phase (monitor α)} {position : Position α},
    phase.place? = some position → position.isSideband = true →
      (t.threads[thread]? = some phase ↔ s.threads[thread]? = some phase)

/-- Only who looks at the whole channel is shown it. -/
theorem onChannel_of_step {c : Channel α} {now : Instant} {position : Position α} {reply : Reply α}
    (hposition : position.isData = true ∨ position.isSideband = true)
    (hreply : (step c now position).outcome = .reply reply) (f : Channel α → Channel α) :
    reply.onChannel f = reply := by
  cases position with
  | push item deadline =>
    simp only [step, stepPush] at hreply
    split at hreply
    · cases hreply
      rfl
    · cases hreply
      rfl
    · split at hreply
      · cases hreply
        rfl
      · contradiction
  | tryPush item =>
    simp only [step, stepTryPush] at hreply
    split at hreply <;> cases hreply <;> rfl
  | poll deadline =>
    simp only [step, stepPoll] at hreply
    split at hreply
    · cases hreply
      rfl
    · cases hreply
      rfl
    · split at hreply
      · cases hreply
        rfl
      · contradiction
  | tryPoll =>
    simp only [step, stepTryPoll] at hreply
    split at hreply <;> cases hreply <;> rfl
  | close =>
    simp only [step, stepClose] at hreply
    split at hreply <;> cases hreply <;> rfl
  | reportError | pollError | errorCount | droppedErrors =>
    cases hreply
    rfl
  | inspect => simp [Position.isData, Position.isSideband] at hposition

section Lanes

variable {c : Channel α} {now : Instant} {s t : System (monitor α)} {lane : Lane (monitor α)}

/-- Of the calls of a lane that do not look at the whole channel the same returns in the lane
alone. -/
theorem filter_returns {f : Channel α → Channel α} {isOwn : Request α → Bool}
    (h : (system c now).Reachable s) (hmirrors : lane.Mirrors s t)
    (hreply : lane.reply = .onChannel f)
    (hown : ∀ request, isOwn request = true → lane.asks request = true ∧
      (request.isData = true ∨ request.isSideband = true)) :
    t.returns.filter (isOwn ·.1.request) = s.returns.filter (isOwn ·.1.request) := by
  have hasks : ∀ returned : Call (monitor α) × Reply α,
      (isOwn returned.1.request && lane.asks returned.1.request) = isOwn returned.1.request := by
    intro returned
    rw [Bool.and_eq_left_iff_imp]
    exact fun hisOwn => (hown _ hisOwn).1
  rw [hmirrors.returns, List.filter_map, List.filter_filter]
  simp only [Function.comp_def, Lane.returned, hasks]
  refine (List.map_congr_left ?_).trans (List.map_id _)
  rintro ⟨call, reply⟩ hmem
  obtain ⟨hreturned, hisOwn⟩ := List.mem_filter.1 hmem
  obtain ⟨moment, began, _, _, houtcome⟩ := exists_returnedAt h hreturned
  have hposition := (hown call.request hisOwn).2
  rw [← isData_start _ began, ← isSideband_start _ began] at hposition
  rw [Lane.returned, hreply, onChannel_of_step hposition houtcome f]
  rfl

theorem sameItems_of_mirrors {errors : Sideband} (h : (system c now).Reachable s)
    (hmirrors : (dataLane errors).Mirrors s t) : SameItems s t where
  now := hmirrors.now
  queue := (congrArg queue hmirrors.state).trans rfl
  closed := (congrArg closed hmirrors.state).trans rfl
  calls := by
    refine filter_returns h hmirrors rfl fun request hdata => ⟨?_, .inl hdata⟩
    rw [← isData_start request now] at hdata
    have hother := isSideband_of_isData hdata
    rw [isSideband_start] at hother
    exact congrArg not hother
  threads hplace hdata :=
    hmirrors.getElem?_iff hplace (congrArg not (isSideband_of_isData hdata))

theorem sameErrors_of_mirrors {queue : List α} {closed : Bool} (h : (system c now).Reachable s)
    (hmirrors : (errorLane queue closed).Mirrors s t) : SameErrors s t where
  now := hmirrors.now
  errors := (congrArg errors hmirrors.state).trans rfl
  calls := by
    refine filter_returns h hmirrors rfl fun request hsideband => ⟨?_, .inr hsideband⟩
    cases request <;> first | rfl | contradiction
  threads {thread phase position} hplace hsideband := by
    refine hmirrors.getElem?_iff hplace ?_
    cases position <;> first | rfl | contradiction

/-- A step on the errors returns and leaves the items alone. -/
theorem sideband_step {c : Channel α} (now : Instant) {position : Position α}
    (hsideband : position.isSideband = true) :
    ∃ reply, (step c now position).outcome = .reply reply ∧ (step c now position).signals = [] ∧
      (step c now position).state.queue = c.queue ∧
      (step c now position).state.closed = c.closed := by
  cases position <;> first | exact ⟨_, rfl, rfl, rfl, rfl⟩ | contradiction

/-- Whoever is in a call on the errors returns from it by the next step, whatever the state of the
channel. -/
theorem returns_at_once {thread : Nat} {position : Position α} (h : (system c now).Reachable s)
    (hplace : placeIn s.threads thread = some position) (hsideband : position.isSideband = true) :
    ∃ after reply, s.next (.step thread () 0) = some after ∧ after.replyOf thread = some reply ∧
      after.state.queue = s.state.queue ∧ after.state.closed = s.state.closed := by
  obtain ⟨phase, here, hphase⟩ := Option.bind_eq_some_iff.1 hplace
  have hawake : phase.position? = some position := by
    cases phase with
    | ready | woken => exact hphase
    | asleep condition wakeAt place =>
      cases hphase
      have htidy := (errorLane s.state.queue s.state.closed).tidy_of_reachable h _
        (List.mem_of_getElem? here)
      have hdata : position.isData = true := by simpa [Lane.Tidy, errorLane] using htidy
      rw [isSideband_of_isData hdata] at hsideband
      contradiction
    | idle | returned | ended => contradiction
  obtain ⟨reply, houtcome, hsignals, hqueue, hclosed⟩ :=
    sideband_step (c := s.state) s.now hsideband
  have hwakes : System.deliverAll 0 (step s.state s.now position).signals s.threads =
      some s.threads := by
    rw [hsignals]
    rfl
  have hmoves : (monitor α).step s.state s.now position () =
      some (step s.state s.now position) := rfl
  have hnext := System.next_eq_some_iff.2 (.step here hawake hmoves hwakes)
  exact ⟨_, reply, hnext, (System.replyOf_of_next hnext hplace hmoves reply).2 houtcome, hqueue,
    hclosed⟩

end Lanes

/-- Items and errors do not meet. Take any run, looked at twice on its way. Without the calls on the
errors, the pushes, polls and closes of this run return the same, in the same order, and at either
moment the same items are queued, the channel is as open, and the same threads stand in the same
calls. Without the pushes, polls and closes, the calls on the errors return the same, and at either
moment the same errors are unread and as many have been discarded. And whoever is in a call on the
errors returns by the next step, on a full, empty, open or closed channel, and leaves the items
alone. -/
theorem lanes_are_independent {c : Channel α} {now : Instant}
    {first later : List (Event (monitor α))} {s s' : System (monitor α)}
    (hfirst : (system c now).run first = some s) (hlater : s.run later = some s') :
    (∃ t t', (system c now).run ((dataLane c.errors).schedule (system c now) first) = some t ∧
        t.run ((dataLane c.errors).schedule s later) = some t' ∧
        SameItems s t ∧ SameItems s' t') ∧
      (∃ t t', (system c now).run
          ((errorLane c.queue c.closed).schedule (system c now) first) = some t ∧
        t.run ((errorLane c.queue c.closed).schedule s later) = some t' ∧
        SameErrors s t ∧ SameErrors s' t') ∧
      ∀ thread position, placeIn s.threads thread = some position →
        position.isSideband = true → ∃ after reply,
          s.next (.step thread () 0) = some after ∧ after.replyOf thread = some reply ∧
          after.state.queue = s.state.queue ∧ after.state.closed = s.state.closed := by
  have hs : (system c now).Reachable s := .run .start hfirst
  have hs' : (system c now).Reachable s' := hs.run hlater
  refine ⟨?_, ?_, fun thread position => returns_at_once hs⟩
  · obtain ⟨t, t', hrun, hrun', hmirrors, hmirrors'⟩ :=
      (dataLane c.errors).exists_alone rfl hfirst hlater
    exact ⟨t, t', hrun, hrun', sameItems_of_mirrors hs hmirrors,
      sameItems_of_mirrors hs' hmirrors'⟩
  · obtain ⟨t, t', hrun, hrun', hmirrors, hmirrors'⟩ :=
      (errorLane c.queue c.closed).exists_alone rfl hfirst hlater
    exact ⟨t, t', hrun, hrun', sameErrors_of_mirrors hs hmirrors,
      sameErrors_of_mirrors hs' hmirrors'⟩

/-- A producer waits for room while two errors are reported, of which the first has to go, and the
channel is closed. -/
def closedBesideErrors : List (Event (monitor Nat)) :=
  [.arrive, .arrive, .arrive, .call 0 (.push 7), .step 0 () 0, .call 1 (.push 8), .step 1 () 0,
    .call 2 (.reportError "a"), .step 2 () 0, .call 2 (.reportError "b"), .step 2 () 0,
    .call 0 .close, .step 0 () 0]

/-- The producer is told, an error is read and another one reported, and the item is taken. -/
def errorsAfterClose : List (Event (monitor Nat)) :=
  [.step 1 () 0, .call 2 .pollError, .step 2 () 0, .call 2 (.reportError "c"), .step 2 () 0,
    .call 0 .poll, .step 0 () 0]

theorem lanes_are_independent_errorsAfterClose :
    ∃ s s' t t' : System (monitor Nat),
      (system (.empty 1 1 (by decide) (by decide)) .midrange).run closedBesideErrors = some s ∧
      s.run errorsAfterClose = some s' ∧ s.state.closed = true ∧
      (sidebandCalls s').map (·.2.error?) = [none, none, some "b", none] ∧
      (dataCalls s').map (·.2.item?) = [none, none, none, some 7] ∧
      (system (.empty 1 1 (by decide) (by decide)) .midrange).run
        ((errorLane [] false).schedule (system (.empty 1 1 (by decide) (by decide)) .midrange)
          closedBesideErrors) = some t ∧
      t.run ((errorLane [] false).schedule s errorsAfterClose) = some t' ∧
      ((errorLane [] false).schedule s errorsAfterClose).length = 4 ∧
      t'.state.errors = s'.state.errors ∧ sidebandCalls t' = sidebandCalls s' := by
  have hruns : ((system (.empty 1 1 (by decide) (by decide)) .midrange).run closedBesideErrors).bind
      (fun s => (s.run errorsAfterClose).map fun s' => decide (s.state.closed = true ∧
        (sidebandCalls s').map (·.2.error?) = [none, none, some "b", none] ∧
        (dataCalls s').map (·.2.item?) = [none, none, none, some 7] ∧
        ((errorLane [] false).schedule s errorsAfterClose).length = 4)) = some true := by
    decide +kernel
  obtain ⟨s, hfirst, hrest⟩ := Option.bind_eq_some_iff.1 hruns
  obtain ⟨s', hlater, hshown⟩ := Option.map_eq_some_iff.1 hrest
  obtain ⟨hclosed, herrors, hitems, hlength⟩ := of_decide_eq_true hshown
  obtain ⟨_, ⟨t, t', hrun, hrun', _, hsame⟩, _⟩ := lanes_are_independent hfirst hlater
  exact ⟨s, s', t, t', hfirst, hlater, hclosed, herrors, hitems, hrun, hrun', hlength, hsame.errors,
    hsame.calls⟩

end Backpressure.Channel
