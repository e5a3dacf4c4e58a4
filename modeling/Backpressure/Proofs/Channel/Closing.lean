import Backpressure.Proofs.Channel.Waking
import Backpressure.Proofs.Course

/-!
# A close is final

A push and a poll look at the channel before they look at the time, and they look again whenever
they wake. So from the close on every push is handed its item back, also one that slept without
room before, and polls take what is left, in order, and then learn that no more will come. What the
consumers have taken by then is all that was accepted, each item by one of them.
-/

namespace Backpressure.Channel

variable {α : Type}

/-- What a push comes to on a closed channel, and a poll on a closed channel without items. -/
def Request.denial? : Request α → Option (Reply α)
  | .push item | .pushTimeout item _ | .pushDeadline item _ =>
    some (.pushed (.error (.closed item)))
  | .tryPush item => some (.triedPush (.error (.closed item)))
  | .poll | .pollTimeout _ | .pollDeadline _ => some (.polled (.error .closed))
  | .tryPoll => some (.triedPoll (.error .closed))
  | _ => none

/-- Does a reply tell that the channel is closed and has no item left? -/
def Reply.isOver : Reply α → Bool
  | .polled (.error .closed) | .triedPoll (.error .closed) => true
  | _ => false

/-- What a thread at this place is told of a closed channel that has nothing for it. -/
def Position.denial? : Position α → Option (Reply α)
  | .push item _ => some (.pushed (.error (.closed item)))
  | .tryPush item => some (.triedPush (.error (.closed item)))
  | .poll _ => some (.polled (.error .closed))
  | .tryPoll => some (.triedPoll (.error .closed))
  | _ => none

@[simp]
theorem denial?_start (request : Request α) (now : Instant) :
    (start request now).denial? = request.denial? := by
  cases request <;> rfl

/-- Between the two systems a call returns with this reply. -/
def Returns (s : System (monitor α)) (call : Call (monitor α)) (reply : Reply α)
    (s' : System (monitor α)) : Prop :=
  ∃ notes, s'.returnsOf call.thread = s.returnsOf call.thread ++ [(call.record notes, reply)]

/-- A call can go on, and its next step tells it that the channel is closed and has nothing for
it. -/
def Denied (s : System (monitor α)) (call : Call (monitor α)) : Prop :=
  s.Enabled call.thread ∧ ∃ reply, call.request.denial? = some reply ∧
    ∀ input wakee s', s.next (.step call.thread input wakee) = some s' → Returns s call reply s'

/-- The items that polls have taken, in the order in which they were taken, each with the thread
that took it. -/
def takes (s : System (monitor α)) : List (Nat × α) :=
  s.returns.filterMap fun returned => returned.2.item?.map (returned.1.thread, ·)

/-- The items that the polls of one thread have come to, in the order in which they did. -/
def collected (s : System (monitor α)) (consumer : Nat) : List α :=
  (s.returnsOf consumer).filterMap (·.2.item?)

/-! ### One step -/

section Step

variable {c : Channel α} {now : Instant} {position : Position α} {move : Step α}

/-- A push on a closed channel gets its item back at once. -/
theorem step_of_closed {item : α} (hclosed : c.closed = true)
    (hoffers : position.offered? = some item) :
    ∃ reply, position.denial? = some reply ∧ ∀ now, step c now position = .reply c reply := by
  have hrefused : ∀ item : α, c.tryPush item = .error (.closed item) := by
    intro item
    rw [tryPush, if_pos hclosed]
  cases position with
  | push item deadline => exact ⟨_, rfl, fun _ => by rw [step, stepPush, hrefused]⟩
  | tryPush item => exact ⟨_, rfl, fun _ => by rw [step, stepTryPush, hrefused]⟩
  | _ => contradiction

/-- A poll on a closed channel without items learns so at once. -/
theorem step_of_spent (hclosed : c.closed = true) (hqueue : c.queue = [])
    (hpolls : position.isPoll = true) :
    ∃ reply, position.denial? = some reply ∧ ∀ now, step c now position = .reply c reply := by
  have hover : c.tryPoll = .error .closed := tryPoll_eq_error_iff.2 ⟨hqueue, by rw [if_pos hclosed]⟩
  cases position with
  | poll deadline => exact ⟨_, rfl, fun _ => by rw [step, stepPoll, hover]⟩
  | tryPoll => exact ⟨_, rfl, fun _ => by rw [step, stepTryPoll, hover]⟩
  | _ => contradiction

/-- Nobody is told of the close as long as an item is left. -/
theorem spent_of_isOver {reply : Reply α} (hover : reply.isOver = true)
    (hreply : (step c now position).outcome = .reply reply) :
    c.closed = true ∧ c.queue = [] := by
  have hspent : c.tryPoll = .error .closed → c.closed = true ∧ c.queue = [] := by
    intro hfails
    obtain ⟨hqueue, hstatus⟩ := tryPoll_eq_error_iff.1 hfails
    refine ⟨?_, hqueue⟩
    by_contra hopen
    rw [if_neg hopen] at hstatus
    contradiction
  cases position with
  | push item deadline =>
    simp only [step, stepPush] at hreply
    split at hreply
    · cases hreply
      contradiction
    · cases hreply
      contradiction
    · split at hreply
      · cases hreply
        contradiction
      · contradiction
  | tryPush item =>
    simp only [step, stepTryPush] at hreply
    split at hreply <;> cases hreply <;> contradiction
  | poll deadline =>
    simp only [step, stepPoll] at hreply
    split at hreply
    · cases hreply
      contradiction
    · rename_i hfails
      exact hspent hfails
    · split at hreply
      · cases hreply
        contradiction
      · contradiction
  | tryPoll =>
    simp only [step, stepTryPoll] at hreply
    split at hreply
    · cases hreply
      contradiction
    · rename_i failure hfails
      cases hreply
      cases failure with
      | closed => exact hspent hfails
      | empty => contradiction
  | close =>
    simp only [step, stepClose] at hreply
    split at hreply <;> cases hreply <;> contradiction
  | _ =>
    cases hreply
    contradiction

/-- What tells a poll that a closed channel has nothing for it. -/
theorem exists_denial (hpolls : position.isPoll = true) :
    ∃ reply, position.denial? = some reply ∧ reply.isOver = true := by
  cases position with
  | poll deadline => exact ⟨_, rfl, rfl⟩
  | tryPoll => exact ⟨_, rfl, rfl⟩
  | _ => contradiction

/-- Nobody takes an item where there is none. -/
theorem Effect.takes_nothing (h : Effect c now position move) (hqueue : c.queue = []) :
    move.notes.filterMap Note.removed? = [] := by
  cases h with
  | take polls front got =>
    rw [hqueue] at front
    contradiction
  | aside noOffer noPoll sameQueue sameClosed sameCapacity notPushed noItem noneAdded noneTaken =>
    exact noneTaken
  | _ => rfl

/-- A call on a channel does not end its thread. -/
theorem Effect.outcome_ne_exit (h : Effect c now position move) : move.outcome ≠ .exit := by
  cases h <;> nofun

/-- A close leaves the channel closed. -/
theorem closed_of_close : (step c now .close).state.closed = true := by
  simp only [step, stepClose]
  split
  · rename_i hclosed
    exact hclosed
  · rfl

end Step

/-! ### From the close on -/

section Runs

variable {c : Channel α} {now : Instant} {s s' : System (monitor α)} {thread : Nat}
  {call : Call (monitor α)} {position : Position α}

/-- A change is a step with one of the effects, or leaves the channel and the notes alone. -/
theorem effect_of_change {event : Event (monitor α)} (h : System.Change s event s') :
    (s'.state = s.state ∧ s'.view.notes = s.view.notes) ∨
      ∃ t position move, Effect s.state s.now position move ∧ s'.state = move.state ∧
        s'.view.notes = move.record t ++ s.view.notes := by
  rcases h.moves with hsame | ⟨t, _, _, position, move, _, _, moves, hlayout⟩
  · exact .inl hsame
  · exact .inr ⟨t, position, move, effect_of_moves moves, congrArg Layout.state hlayout,
      congrArg Layout.notes hlayout⟩

/-- From the close on nothing is accepted. -/
theorem closed_of_reachable (hclosed : s.state.closed = true) (h : s.Reachable s') :
    s'.state.closed = true ∧ told addedBy? s'.view.notes = told addedBy? s.view.notes := by
  induction h with
  | start => exact ⟨hclosed, rfl⟩
  | next _ hnext ih =>
    rcases effect_of_change (System.next_eq_some_iff.1 hnext) with
      ⟨hstate, hnotes⟩ | ⟨t, position, move, heffect, hstate, hnotes⟩
    · rw [hstate, hnotes]
      exact ih
    · obtain ⟨hstays, hnone⟩ := heffect.closed ih.1
      rw [hstate, hnotes, told_record, filterMap_addedBy?, hnone]
      exact ⟨hstays, (List.append_nil _).trans ih.2⟩

/-- From the moment on at which a closed channel has no item left nothing is taken. -/
theorem spent_of_reachable (hclosed : s.state.closed = true) (hqueue : s.state.queue = [])
    (h : s.Reachable s') :
    s'.state.closed = true ∧ s'.state.queue = [] ∧
      told taken? s'.view.notes = told taken? s.view.notes := by
  induction h with
  | start => exact ⟨hclosed, hqueue, rfl⟩
  | next _ hnext ih =>
    obtain ⟨hclosed, hqueue, htaken⟩ := ih
    rcases effect_of_change (System.next_eq_some_iff.1 hnext) with
      ⟨hstate, hnotes⟩ | ⟨t, position, move, heffect, hstate, hnotes⟩
    · rw [hstate, hnotes]
      exact ⟨hclosed, hqueue, htaken⟩
    · obtain ⟨hstays, hempty⟩ := heffect.spent hclosed hqueue
      have hnone : move.notes.filterMap (fun note => taken? (t, note)) = [] :=
        heffect.takes_nothing hqueue
      rw [hstate, hnotes, told_record, hnone]
      exact ⟨hstays, hempty, (List.append_nil _).trans htaken⟩

/-- A thread in a call is at the place where the call began, and the call has recorded nothing. -/
theorem place_of_openCall (h : (system c now).Reachable s)
    (hopen : openCall thread s.journal = some call) :
    call.notes = [] ∧ ∃ began, placeIn s.threads thread = some (start call.request began) := by
  obtain ⟨position, hplace⟩ := (rule α).exists_place h (by simp)
    (fun _ moves => (effect_of_moves moves).outcome_ne_exit) hopen
  obtain ⟨call', hopen', hnotes, began, rfl⟩ := (rule_holds h).stands hplace
  cases hopen.symm.trans hopen'
  exact ⟨hnotes, began, hplace⟩

/-- On a closed channel nobody sleeps, so that whoever is in a call can go on. -/
theorem enabled_of_closed (h : (system c now).Reachable s) (hclosed : s.state.closed = true)
    (hplace : placeIn s.threads thread = some position) : s.Enabled thread := by
  have hwatched : Watched s.view.state s.view.threads := by
    refine Watched.of_reachable h.reachableBy.view ⟨?_, ?_⟩
    · intro phase hmem
      contradiction
    · intro condition hsleeping
      contradiction
  obtain ⟨phase, here, hphase⟩ := Option.bind_eq_some_iff.1 hplace
  cases phase with
  | ready place => exact enabled_of_awake here rfl
  | woken condition place => exact enabled_of_awake here rfl
  | asleep condition wakeAt place =>
    have hsleeping : 0 < sleeping (M := monitor α) condition s.view.threads := by
      simp only [System.view, sleeping_map_still]
      exact List.countP_pos_iff.2 ⟨_, List.mem_of_getElem? here, by simp [Phase.sleepsOn]⟩
    have hopen : s.state.closed = false := (hwatched.covered condition hsleeping).1
    rw [hclosed] at hopen
    contradiction
  | idle | returned | ended => contradiction

/-- A call returns with the reply of its next step, and with no other. -/
theorem returns_iff (hopen : openCall thread s.journal = some call)
    (hplace : placeIn s.threads thread = some position) {input : Unit} {wakee : Nat}
    (hnext : s.next (.step thread input wakee) = some s') (reply : Reply α) :
    Returns s call reply s' ↔ (step s.state s.now position).outcome = .reply reply := by
  cases thread_of_openCall hopen
  rw [Returns, System.returnsOf_of_next hnext hplace rfl, endedBy]
  cases houtcome : (step s.state s.now position).outcome with
  | reply reply' =>
    simp only [hopen, Option.map_some, Option.toList_some, List.append_cancel_left_eq,
      List.cons.injEq, Prod.mk.injEq, and_true, Outcome.reply.injEq]
    constructor
    · rintro ⟨notes, _, hsame⟩
      exact hsame
    · intro hsame
      exact ⟨_, rfl, hsame⟩
  | _ => simp

/-- Whoever offers an item to a closed channel has it handed back. -/
theorem denied_of_closed (h : (system c now).Reachable s) (hclosed : s.state.closed = true)
    (hopen : openCall thread s.journal = some call) {item : α}
    (hoffers : call.request.offered? = some item) : Denied s call := by
  obtain ⟨_, began, hplace⟩ := place_of_openCall h hopen
  cases thread_of_openCall hopen
  rw [← offered?_start call.request began] at hoffers
  obtain ⟨reply, hdenial, hstep⟩ := step_of_closed hclosed hoffers
  rw [denial?_start] at hdenial
  refine ⟨enabled_of_closed h hclosed hplace, reply, hdenial, ?_⟩
  intro input wakee s' hnext
  rw [returns_iff hopen hplace hnext, hstep]
  rfl

/-- Whoever polls a closed channel without items learns so. -/
theorem denied_of_spent (h : (system c now).Reachable s) (hclosed : s.state.closed = true)
    (hqueue : s.state.queue = []) (hopen : openCall thread s.journal = some call)
    (hpolls : call.request.isPoll = true) : Denied s call := by
  obtain ⟨_, began, hplace⟩ := place_of_openCall h hopen
  cases thread_of_openCall hopen
  rw [← isPoll_start call.request began] at hpolls
  obtain ⟨reply, hdenial, hstep⟩ := step_of_spent hclosed hqueue hpolls
  rw [denial?_start] at hdenial
  refine ⟨enabled_of_closed h hclosed hplace, reply, hdenial, ?_⟩
  intro input wakee s' hnext
  rw [returns_iff hopen hplace hnext, hstep]
  rfl

/-- A poll is told of the close where the channel is closed and has no item left, and nowhere
else. -/
theorem polls_tell (h : (system c now).Reachable s)
    (hopen : openCall thread s.journal = some call) (hpolls : call.request.isPoll = true) :
    ∃ reply, call.request.denial? = some reply ∧
      ∀ input wakee s', s.next (.step thread input wakee) = some s' →
        (Returns s call reply s' ↔ s.state.closed = true ∧ s.state.queue = []) := by
  obtain ⟨_, began, hplace⟩ := place_of_openCall h hopen
  rw [← isPoll_start call.request began] at hpolls
  obtain ⟨reply, hdenial, hover⟩ := exists_denial hpolls
  refine ⟨reply, (denial?_start _ _).symm.trans hdenial, ?_⟩
  intro input wakee s' hnext
  rw [returns_iff hopen hplace hnext]
  constructor
  · exact spent_of_isOver hover
  · rintro ⟨hclosed, hqueue⟩
    obtain ⟨reply', hdenial', hstep⟩ := step_of_spent hclosed hqueue hpolls
    cases hdenial.symm.trans hdenial'
    rw [hstep]
    rfl

end Runs

/-! ### What has been told -/

/-- What the calls that have returned tell of the channel. -/
structure Marked (s : System (monitor α)) : Prop where
  /-- Whoever has closed the channel finds it closed. -/
  closed : ∀ {call reply}, (call, reply) ∈ s.returns → call.request = .close →
    s.state.closed = true
  /-- Whoever has been told that no item is left has been told the truth. -/
  spent : ∀ {call reply}, (call, reply) ∈ s.returns → reply.isOver = true →
    s.state.closed = true ∧ s.state.queue = []

/-- What the calls that have returned tell of the channel is so ever after. -/
theorem Marked.of_reachable {c : Channel α} {now : Instant} {s : System (monitor α)}
    (h : (system c now).Reachable s) : Marked s := by
  induction h with
  | start => exact ⟨nofun, nofun⟩
  | @next s s' event hreachable hnext ih =>
    have hchange := System.next_eq_some_iff.1 hnext
    have hrule := rule_holds hreachable
    cases hchange with
    | elapse | arrive | call | rouse => exact ⟨ih.closed, ih.spent⟩
    | @step thread wakee input phase position move threads here awake moves wakes =>
      have hplace : placeIn s.threads thread = some position := placeIn_of_awake here awake
      have heffect := effect_of_moves moves
      -- A reply is either an old one, or the one that the step gives.
      have hcases : ∀ {call reply}, (call, reply) ∈ (System.mk s.now move.state
            (threads.set thread (.ofOutcome move.outcome))
            ((System.entries thread move).reverse ++ s.journal)).returns →
          (call, reply) ∈ s.returns ∨
            ∃ began, position = start call.request began ∧ move.outcome = .reply reply := by
        intro call reply hmem
        rw [returns_entries, List.mem_append] at hmem
        refine hmem.imp id ?_
        intro hnew
        rw [Option.mem_toList, endedBy] at hnew
        split at hnew
        · obtain ⟨call', hopen, hsame⟩ := Option.map_eq_some_iff.1 hnew
          obtain ⟨call'', hopen', _, began, hstart⟩ := hrule.stands hplace
          cases hopen.symm.trans hopen'
          cases hsame
          exact ⟨began, hstart, by assumption⟩
        · contradiction
      constructor
      · intro call reply hmem hcloses
        rcases hcases hmem with hold | ⟨began, rfl, hreply⟩
        · exact (heffect.closed (ih.closed hold hcloses)).1
        · rw [hcloses] at moves
          cases moves
          exact closed_of_close
      · intro call reply hmem hover
        rcases hcases hmem with hold | ⟨began, rfl, hreply⟩
        · obtain ⟨hclosed, hqueue⟩ := ih.spent hold hover
          exact heffect.spent hclosed hqueue
        · cases moves
          obtain ⟨hclosed, hqueue⟩ := spent_of_isOver hover hreply
          exact heffect.spent hclosed hqueue

/-! ### What consumers take -/

section Takes

variable (s : System (monitor α))

theorem map_takes : (takes s).map (·.2) = polls s := by
  rw [takes, polls, List.map_filterMap]
  congr 1
  funext returned
  cases returned.2.item? <;> rfl

/-- Every consumer collects what it takes. -/
theorem collected_eq (consumer : Nat) :
    collected s consumer = ((takes s).filter (·.1 = consumer)).map (·.2) := by
  rw [collected, System.returnsOf, takes, List.filter_filterMap, List.map_filterMap,
    List.filterMap_filter]
  congr 1
  funext returned
  obtain ⟨call, reply⟩ := returned
  by_cases hthread : call.thread = consumer <;> cases hitem : Reply.item? reply <;>
    simp [hthread, Option.filter]

theorem collected_sublist (consumer : Nat) : (collected s consumer).Sublist (polls s) := by
  rw [collected_eq, ← map_takes]
  exact List.filter_sublist.map _

/-- A thread that iterates until it learns of the close hands back all that it has collected. -/
theorem iterate_eq (consumer : Nat) (began : Instant)
    (hlast : ((s.returnsOf consumer).map (·.2)).getLast? = some (.polled (.error .closed))) :
    calls (.iterate none) began ((s.returnsOf consumer).map (·.2)).reverse =
      .inr (.items (collected s consumer)) := by
  obtain ⟨earlier, hearlier⟩ := List.getLast?_eq_some_iff.1 hlast
  have hcollected : collected s consumer = earlier.filterMap Reply.item? := by
    have hall : collected s consumer =
        ((s.returnsOf consumer).map (·.2)).filterMap Reply.item? := by
      rw [List.filterMap_map]
      rfl
    rw [hall, hearlier, List.filterMap_append]
    exact List.append_nil _
  rw [hearlier, List.reverse_append, List.reverse_singleton, List.singleton_append, hcollected]
  simp [calls, itemsOf]

end Takes

/-- A close is final. From the moment at which a channel is closed, which it is once a close has
returned, nothing more is accepted, and every push, whether it begins later or has slept since
before, can go on and is handed its item back at its next step. A poll that takes its next step is
told of the close where the channel is closed and no item is left, and nowhere else. Once one poll
has been told so, no poll takes an item any more and all of them are told so. By then the consumers
have taken, each item by one of them and in order, all that was accepted, and a consumer that
iterates to the end hands back what it has taken. -/
theorem close_is_final {capacity errorCapacity : Nat} {capacity_pos : 0 < capacity}
    {errorCapacity_pos : 0 < errorCapacity} {now : Instant} {s : System (monitor α)}
    (h : (system (.empty capacity errorCapacity capacity_pos errorCapacity_pos) now).Reachable s) :
    (∀ call reply, (call, reply) ∈ s.returns → call.request = .close → s.state.closed = true) ∧
      (s.state.closed = true → ∀ s', s.Reachable s' →
        s'.state.closed = true ∧ pushes s' = pushes s ∧
          ∀ thread call item, openCall thread s'.journal = some call →
            call.request.offered? = some item → Denied s' call) ∧
      (∀ thread call, openCall thread s.journal = some call → call.request.isPoll = true →
        ∃ reply, call.request.denial? = some reply ∧
          ∀ input wakee s', s.next (.step thread input wakee) = some s' →
            (Returns s call reply s' ↔ s.state.closed = true ∧ s.state.queue = [])) ∧
      ((∃ returned ∈ s.returns, returned.2.isOver = true) →
        (∀ s', s.Reachable s' → s'.state.closed = true ∧ polls s' = polls s ∧
          ∀ thread call, openCall thread s'.journal = some call →
            call.request.isPoll = true → Denied s' call) ∧
        (takes s).map (·.2) = (pushes s).map (·.2) ∧
        ∀ consumer,
          collected s consumer = ((takes s).filter (·.1 = consumer)).map (·.2) ∧
          (collected s consumer).Sublist ((pushes s).map (·.2)) ∧
          ∀ began, ((s.returnsOf consumer).map (·.2)).getLast? = some (.polled (.error .closed)) →
            calls (.iterate none) began ((s.returnsOf consumer).map (·.2)).reverse =
              .inr (.items (collected s consumer))) := by
  have hmarked := Marked.of_reachable h
  refine ⟨fun _ _ => hmarked.closed, ?_, fun _ _ => polls_tell h, ?_⟩
  · intro hclosed s' h'
    obtain ⟨hclosed', hadded⟩ := closed_of_reachable hclosed h'
    have hpushes : pushes s' = pushes s := by
      rw [← (Told.of_reachable (h.trans h')).added, hadded, (Told.of_reachable h).added]
    refine ⟨hclosed', hpushes, ?_⟩
    intro thread call item hopen hoffers
    exact denied_of_closed (h.trans h') hclosed' hopen hoffers
  · rintro ⟨returned, hmem, hover⟩
    obtain ⟨hclosed, hqueue⟩ := hmarked.spent hmem hover
    have hconserved : Conserved capacity s.layout :=
      Conserved.of_reachable h.reachableBy.layout rfl rfl
    have hall : polls s = (pushes s).map (·.2) := by
      have hfifo := hconserved.conserved
      have hnone : s.layout.state.queue = [] := hqueue
      rw [hnone, List.append_nil] at hfifo
      rw [← (Told.of_reachable h).taken, ← (Told.of_reachable h).added]
      exact hfifo.symm
    refine ⟨?_, ?_, ?_⟩
    · intro s' h'
      obtain ⟨hclosed', hqueue', htaken⟩ := spent_of_reachable hclosed hqueue h'
      have hpolls : polls s' = polls s := by
        rw [← (Told.of_reachable (h.trans h')).taken, htaken, (Told.of_reachable h).taken]
      refine ⟨hclosed', hpolls, ?_⟩
      intro thread call hopen hpoll
      exact denied_of_spent (h.trans h') hclosed' hqueue' hopen hpoll
    · rw [map_takes, hall]
    · intro consumer
      refine ⟨collected_eq s consumer, ?_, fun began => iterate_eq s consumer began⟩
      rw [← hall]
      exact collected_sublist s consumer

/-- A producer waits for room when the channel is closed. A consumer then makes room, which comes
too late for the producer, and finds nothing more. -/
def roomTooLate : List (Event (monitor Nat)) :=
  [.arrive, .arrive, .arrive, .arrive, .call 0 (.push 7), .step 0 () 0, .call 1 (.push 8),
    .step 1 () 0, .call 2 .close, .step 2 () 0, .call 3 .poll, .step 3 () 0, .step 1 () 0,
    .call 3 .poll, .step 3 () 0]

theorem close_is_final_roomTooLate :
    ∃ s, (system (.empty 1 1 (by decide) (by decide)) .midrange).run roomTooLate = some s ∧
      (s.returnsOf 1).map (·.2.refused?) = [some 8] ∧
      (s.returnsOf 3).map (·.2.item?) = [some 7, none] ∧
      pushes s = [(0, 7)] ∧ takes s = [(3, 7)] ∧ (collected s 3).Sublist ((pushes s).map (·.2)) ∧
      ∀ s', s.Reachable s' → polls s' = polls s := by
  have hruns : ((system (.empty 1 1 (by decide) (by decide)) .midrange).run roomTooLate).map
      (fun s => decide ((s.returnsOf 1).map (·.2.refused?) = [some 8] ∧
        (s.returnsOf 3).map (·.2.item?) = [some 7, none] ∧ pushes s = [(0, 7)] ∧
        takes s = [(3, 7)] ∧ ∃ returned ∈ s.returns, returned.2.isOver = true)) = some true := by
    decide +kernel
  simp only [Option.map_eq_some_iff, decide_eq_true_eq] at hruns
  obtain ⟨s, hrun, hrefused, hgot, hpushes, htakes, hover⟩ := hruns
  obtain ⟨hlater, _, hconsumers⟩ := (close_is_final (.run .start hrun)).2.2.2 hover
  exact ⟨s, hrun, hrefused, hgot, hpushes, htakes, (hconsumers 3).2.1,
    fun s' h' => (hlater s' h').2.1⟩

end Backpressure.Channel
