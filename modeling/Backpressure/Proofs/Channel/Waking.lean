import Backpressure.Proofs.Channel.Handoff
import Backpressure.Proofs.Waiting

/-!
# No wake-up is lost

A push and a poll wake one thread each, and that thread may come too late. What makes up for it is
a count: as long as a thread sleeps for items, every item in the queue has a thread of its own that
is on the way to look for one, and as long as a thread sleeps for room, so has every free slot.
-/

namespace Backpressure.Channel

variable {α : Type}

/-- What a thread at this place sleeps on, when it has to. -/
def Position.awaits? : Position α → Option Condition
  | .push _ _ => some .notFull
  | .poll _ => some .notEmpty
  | _ => none

/-- Who offers an item can only wait for room. -/
theorem awaits?_of_offered? {position : Position α} {item : α} {condition : Condition}
    (h : position.offered? = some item) (hawaits : position.awaits? = some condition) :
    condition = .notFull := by
  cases position <;> simp_all [Position.offered?, Position.awaits?]

/-- Who takes an item can only wait for one. -/
theorem awaits?_of_isPoll {position : Position α} {condition : Condition}
    (h : position.isPoll = true) (hawaits : position.awaits? = some condition) :
    condition = .notEmpty := by
  cases position <;> simp_all [Position.isPoll, Position.awaits?]

/-- Who neither offers nor takes an item waits for nothing. -/
theorem awaits?_eq_none {position : Position α} (hoffers : position.offered? = none)
    (hpolls : position.isPoll = false) : position.awaits? = none := by
  cases position <;> simp_all [Position.offered?, Position.isPoll, Position.awaits?]

theorem awaits?_eq_notEmpty {position : Position α} (h : position.awaits? = some .notEmpty) :
    ∃ deadline, position = .poll deadline := by
  cases position <;> simp_all [Position.awaits?]

theorem awaits?_eq_notFull {position : Position α} (h : position.awaits? = some .notFull) :
    ∃ item deadline, position = .push item deadline := by
  cases position <;> simp_all [Position.awaits?]

/-- How many threads the channel has something for: items for those who poll, free slots for those
who push. -/
def due (c : Channel α) : Condition → Nat
  | .notEmpty => c.queue.length
  | .notFull => c.capacity - c.queue.length

/-- A thread that sleeps, or has been woken, waits for what its call needs. -/
def InLine : Phase (monitor α) → Prop
  | .asleep condition _ position | .woken condition position =>
    position.awaits? = some condition
  | _ => True

theorem inLine_wake (phase : Phase (monitor α)) (h : InLine phase) : InLine phase.wake := by
  cases phase <;> exact h

/-- A thread is woken from what its call needs. -/
theorem awaits?_of_isWokenFrom {phase : Phase (monitor α)} {position : Position α}
    {condition : Condition} (h : InLine phase) (awake : phase.position? = some position)
    (hwoken : phase.isWokenFrom condition = true) : position.awaits? = some condition := by
  cases phase with
  | woken c p =>
    have hsame : c = condition := of_decide_eq_true hwoken
    cases awake
    exact hsame ▸ h
  | _ => contradiction

/-- Nobody sleeps beside what the channel has for him, unless somebody is on the way to take it. -/
structure Watched (c : Channel α) (threads : List (Phase (monitor α))) : Prop where
  /-- Every thread waits for what its call needs. -/
  inLine : ∀ phase ∈ threads, InLine phase
  /-- Where a thread sleeps, the channel is open and all that is due has a thread on the way. -/
  covered : ∀ condition, 0 < sleeping (M := monitor α) condition threads →
    c.closed = false ∧ due c condition ≤ onTheWay (M := monitor α) condition threads

namespace Watched

variable {c : Channel α} {threads between : List (Phase (monitor α))} {thread wakee : Nat}
  {phase : Phase (monitor α)} {position : Position α} {now : Instant}

theorem append_idle (h : Watched c threads) : Watched c (threads ++ [.idle]) := by
  constructor
  · intro p hmem
    rcases List.mem_append.1 hmem with hold | hnew
    · exact h.inLine p hold
    · rw [List.mem_singleton.1 hnew]
      trivial
  · intro condition hsleeping
    obtain ⟨hasleep, hwoken⟩ := counts_append_idle (M := monitor α) threads condition
    rw [hasleep] at hsleeping
    rw [hwoken]
    exact h.covered condition hsleeping

theorem call (h : Watched c threads) (here : threads[thread]? = some .idle) :
    Watched c (threads.set thread (.ready position)) := by
  constructor
  · intro p hmem
    rcases List.mem_or_eq_of_mem_set hmem with hold | rfl
    · exact h.inLine p hold
    · trivial
  · intro condition hsleeping
    obtain ⟨hasleep, hwoken⟩ := counts_set_ready (M := monitor α) here position condition
    rw [hasleep] at hsleeping
    rw [hwoken]
    exact h.covered condition hsleeping

theorem rouse (h : Watched c threads) {condition : Condition} {wakeAt : Deadline}
    (here : threads[thread]? = some (.asleep condition wakeAt position)) :
    Watched c (threads.set thread (.woken condition position)) := by
  constructor
  · intro p hmem
    rcases List.mem_or_eq_of_mem_set hmem with hold | rfl
    · exact h.inLine p hold
    · exact inLine_wake _ (h.inLine _ (List.mem_of_getElem? here))
  · intro condition' hsleeping
    obtain ⟨hasleep, hwoken⟩ := counts_set_wake (M := monitor α) here
      (decide_eq_true (rfl : condition = condition)) condition'
    simp only [Phase.wake] at hasleep hwoken
    obtain ⟨hopen, hdue⟩ := h.covered condition' (by omega)
    exact ⟨hopen, by omega⟩

/-! ### Moves -/

section Move

variable (h : Watched c threads) (here : threads[thread]? = some phase)
  (awake : phase.position? = some position)
include h here awake

/-- The thread that moves leaves the count of those on the way only where its call needs what they
wait for. -/
theorem isWokenFrom_of_awaits? {condition : Condition}
    (hother : position.awaits? ≠ some condition) :
    phase.isWokenFrom condition = false := by
  have hline := h.inLine phase (List.mem_of_getElem? here)
  exact eq_false_of_ne_true fun hwoken => hother (awaits?_of_isWokenFrom hline awake hwoken)

/-- A thread that finds nothing, and wakes nobody, leaves nothing behind that is due. -/
theorem covered_quiet {outcome : Outcome (Position α) (Reply α) Condition}
    (hnothing : ∀ k, position.awaits? = some k → c.closed = false → due c k = 0)
    (hsleeps : ∀ k, (Phase.ofOutcome (M := monitor α) outcome).sleepsOn k = true →
      c.closed = false ∧ position.awaits? = some k) (condition : Condition)
    (hsleeping : 0 < sleeping (M := monitor α) condition
      (threads.set thread (Phase.ofOutcome (M := monitor α) outcome).still)) :
    c.closed = false ∧ due c condition ≤ onTheWay (M := monitor α) condition
      (threads.set thread (Phase.ofOutcome (M := monitor α) outcome).still) := by
  obtain ⟨hasleep, hleft⟩ := counts_set_outcome here awake outcome condition
  have hcovered := h.covered condition
  cases hnew : (Phase.ofOutcome (M := monitor α) outcome).sleepsOn condition with
  | true =>
    obtain ⟨hopen, hawaits⟩ := hsleeps condition hnew
    have hdue := hnothing condition hawaits hopen
    exact ⟨hopen, by omega⟩
  | false =>
    rw [hnew, Bool.toNat_false, Nat.add_zero] at hasleep
    rw [hasleep] at hsleeping
    obtain ⟨hopen, hdue⟩ := hcovered hsleeping
    refine ⟨hopen, ?_⟩
    by_cases hawaits : position.awaits? = some condition
    · have hzero := hnothing condition hawaits hopen
      omega
    · rw [h.isWokenFrom_of_awaits? here awake hawaits, Bool.toNat_false, Nat.add_zero] at hleft
      omega

/-- A thread that takes something and leaves something else sends one thread on its way to it. -/
theorem covered_one {c' : Channel α} {reply : Reply α} {signalled : Condition}
    (wakes : System.deliver (M := monitor α) threads wakee (.one signalled) = some between)
    (hopen : c'.closed = c.closed) (hother : position.awaits? ≠ some signalled)
    (hleft : due c' signalled ≤ due c signalled + 1)
    (htaken : ∀ k, k ≠ signalled → due c' k ≤ due c k - 1) (condition : Condition)
    (hsleeping : 0 < sleeping (M := monitor α) condition
      (between.set thread (Phase.ofOutcome (M := monitor α) (.reply reply)).still)) :
    c'.closed = false ∧ due c' condition ≤ onTheWay (M := monitor α) condition
      (between.set thread (Phase.ofOutcome (M := monitor α) (.reply reply)).still) := by
  have hbetween := getElem?_of_deliver here awake wakes
  obtain ⟨hasleep, hgone⟩ :=
    counts_set_outcome hbetween awake (.reply reply) condition
  have hawake : (Phase.ofOutcome (M := monitor α) (.reply reply)).sleepsOn condition = false := rfl
  rw [hawake, Bool.toNat_false, Nat.add_zero] at hasleep
  rw [hopen]
  have hcovered := h.covered condition
  have hone := Bool.toNat_le (phase.isWokenFrom condition)
  have hwaits := counts_of_deliver_one wakes
  by_cases hc : condition = signalled
  · subst hc
    have hzero := h.isWokenFrom_of_awaits? here awake hother
    rw [hzero, Bool.toNat_false, Nat.add_zero] at hgone
    rcases hwaits with ⟨hnobody, rfl⟩ | hmoved
    · exact absurd hsleeping (by omega)
    · obtain ⟨hfewer, hmore⟩ := hmoved condition
      rw [if_pos rfl] at hfewer hmore
      obtain ⟨hclosed, hdue⟩ := hcovered (by omega)
      exact ⟨hclosed, by omega⟩
  · have hdue' := htaken condition hc
    have hsame : sleeping (M := monitor α) condition between = sleeping condition threads ∧
        onTheWay (M := monitor α) condition between = onTheWay condition threads := by
      rcases hwaits with ⟨_, rfl⟩ | hmoved
      · exact ⟨rfl, rfl⟩
      · simpa [hc] using hmoved condition
    obtain ⟨hclosed, hdue⟩ := hcovered (by omega)
    exact ⟨hclosed, by omega⟩

omit h in
/-- A close wakes everybody. -/
theorem sleeping_of_close (wakes : System.deliverAll (M := monitor α) wakee
      [.all .notEmpty, .all .notFull] threads = some between) (condition : Condition) :
    sleeping (M := monitor α) condition
      (between.set thread (Phase.ofOutcome (M := monitor α) (.reply .done)).still) = 0 := by
  obtain ⟨first, hfirst, hrest⟩ := Option.bind_eq_some_iff.1 wakes
  obtain ⟨second, hsecond, hend⟩ := Option.bind_eq_some_iff.1 hrest
  cases hend
  have hbetween := getElem?_of_deliver (getElem?_of_deliver here awake hfirst) awake hsecond
  obtain ⟨hasleep, _⟩ := counts_set_outcome hbetween awake (.reply .done) condition
  have hnobody : sleeping (M := monitor α) condition between = 0 := by
    rw [sleeping_of_deliver_all hsecond, sleeping_of_deliver_all hfirst]
    cases condition <;> rfl
  rw [hasleep, hnobody]
  rfl

end Move

/-- Every move keeps the watch. -/
theorem move {step : Step α} (h : Watched c threads) (here : threads[thread]? = some phase)
    (awake : phase.position? = some position) (heffect : Effect c now position step)
    (wakes : System.deliverAll (M := monitor α) wakee step.signals threads = some between) :
    Watched step.state
      (between.set thread (Phase.ofOutcome (M := monitor α) step.outcome).still) := by
  constructor
  · intro p hmem
    rcases List.mem_or_eq_of_mem_set hmem with hold | rfl
    · exact System.forall_mem_deliverAll inLine_wake h.inLine wakes p hold
    · cases heffect with
      | awaitRoom | awaitItem => rfl
      | _ => trivial
  · cases heffect with
    | @add position item reply offers isOpen room isPushed =>
      obtain ⟨_, hdeliver, hend⟩ := Option.bind_eq_some_iff.1 wakes
      cases hend
      refine h.covered_one here awake hdeliver rfl ?_ ?_ ?_
      · intro hawaits
        have hk := awaits?_of_offered? offers hawaits
        contradiction
      · simp [due, pushed]
      · rintro (_ | _) hk
        · simp only [due, pushed, List.length_append, List.length_singleton]
          omega
        · contradiction
    | @take position item rest reply polls front got =>
      obtain ⟨_, hdeliver, hend⟩ := Option.bind_eq_some_iff.1 wakes
      cases hend
      refine h.covered_one here awake hdeliver rfl ?_ ?_ ?_
      · intro hawaits
        have hk := awaits?_of_isPoll polls hawaits
        contradiction
      · simp only [due, polled, front, List.length_cons]
        omega
      · rintro (_ | _) hk
        · contradiction
        · simp [due, polled, front]
    | refuse offers noRoom handed =>
      cases wakes
      refine h.covered_quiet here awake ?_ ?_
      · intro k hk hopen
        rw [awaits?_of_offered? offers hk]
        exact Nat.sub_eq_zero_of_le (noRoom hopen)
      · intro k hsleeps
        contradiction
    | lack polls nothing notPushed noItem =>
      cases wakes
      refine h.covered_quiet here awake ?_ ?_
      · intro k hk hopen
        rw [awaits?_of_isPoll polls hk]
        simp [due, nothing]
      · intro k hsleeps
        contradiction
    | awaitRoom isOpen full early =>
      cases wakes
      refine h.covered_quiet here awake ?_ ?_
      · intro k hk hopen
        cases hk
        exact Nat.sub_eq_zero_of_le full
      · intro k hsleeps
        have hk : Condition.notFull = k := of_decide_eq_true hsleeps
        exact ⟨isOpen, congrArg some hk⟩
    | awaitItem isOpen nothing early =>
      cases wakes
      refine h.covered_quiet here awake ?_ ?_
      · intro k hk hopen
        cases hk
        simp [due, nothing]
      · intro k hsleeps
        have hk : Condition.notEmpty = k := of_decide_eq_true hsleeps
        exact ⟨isOpen, congrArg some hk⟩
    | close isOpen =>
      intro condition hsleeping
      have hnobody := sleeping_of_close here awake wakes condition
      exact absurd hsleeping (Nat.not_lt.2 (Nat.le_of_eq hnobody))
    | @aside position state reply notes noOffer noPoll sameQueue sameClosed sameCapacity
        notPushed noItem noneAdded noneTaken =>
      cases wakes
      have hdue : ∀ k, due state k = due c k := by
        rintro (_ | _) <;> simp [due, sameQueue, sameCapacity]
      intro condition hsleeping
      rw [sameClosed, hdue]
      refine h.covered_quiet here awake ?_ ?_ condition hsleeping
      · intro k hk
        rw [awaits?_eq_none noOffer noPoll] at hk
        contradiction
      · intro k hsleeps
        contradiction

/-- Whatever threads do with a channel keeps the watch. -/
theorem of_reachable {allowed : Event (monitor α) → Prop} {start v : View (monitor α)}
    (h : start.Reachable allowed v) (hstart : Watched start.state start.threads) :
    Watched v.state v.threads := by
  refine h.invariant (P := fun v => Watched v.state v.threads) hstart ?_
  intro v v' hwatched hstep
  cases hstep with
  | arrive => exact hwatched.append_idle
  | call asked here => exact hwatched.call here
  | rouse here => exact hwatched.rouse here
  | move asked here awake moves wakes =>
    exact hwatched.move here awake (effect_of_moves moves) wakes

end Watched

/-! ### Threads that can go on -/

/-- The signals of a step can always be delivered. -/
theorem exists_deliverAll {c : Channel α} {now : Instant} {position : Position α} {step : Step α}
    (heffect : Effect c now position step) (threads : List (Phase (monitor α))) :
    ∃ wakee, (System.deliverAll (M := monitor α) wakee step.signals threads).isSome = true := by
  cases heffect with
  | add => exact exists_deliverAll_one threads .notEmpty
  | take => exact exists_deliverAll_one threads .notFull
  | _ => exact ⟨0, rfl⟩

/-- A thread that is awake within a call can always take a step. -/
theorem enabled_of_awake {s : System (monitor α)} {thread : Nat} {phase : Phase (monitor α)}
    {position : Position α} (here : s.threads[thread]? = some phase)
    (awake : phase.position? = some position) : s.Enabled thread := by
  have heffect : Effect s.state s.now position (step s.state s.now position) :=
    effect_step position
  obtain ⟨wakee, hwakee⟩ := exists_deliverAll heffect s.threads
  exact ⟨(), wakee, by simpa [System.next, here, awake, System.perform] using hwakee⟩

/-- No wake-up is lost. While a consumer sleeps the channel is open, and every queued item has a
consumer of its own that is on the way to look; while a producer sleeps, so has every free slot. So
beside an item or a free slot nobody sleeps without another thread that can go on, producers and
consumers never sleep all together, and once the channel is closed nobody sleeps. -/
theorem no_lost_wakeup {capacity errorCapacity : Nat} {capacity_pos : 0 < capacity}
    {errorCapacity_pos : 0 < errorCapacity} {now : Instant} {s : System (monitor α)}
    (h : (system (.empty capacity errorCapacity capacity_pos errorCapacity_pos) now).Reachable s) :
    (∀ phase ∈ s.threads, InLine phase) ∧
      (0 < sleeping (M := monitor α) .notEmpty s.threads →
        s.state.closed = false ∧
          s.state.queue.length ≤ onTheWay (M := monitor α) .notEmpty s.threads) ∧
      (0 < sleeping (M := monitor α) .notFull s.threads →
        s.state.closed = false ∧
          capacity - s.state.queue.length ≤ onTheWay (M := monitor α) .notFull s.threads) ∧
      (0 < sleeping (M := monitor α) .notEmpty s.threads → s.state.queue ≠ [] →
        ∃ thread deadline, s.threads[thread]? = some (.woken .notEmpty (.poll deadline)) ∧
          s.Enabled thread) ∧
      (0 < sleeping (M := monitor α) .notFull s.threads → s.state.queue.length < capacity →
        ∃ thread item deadline, s.threads[thread]? = some (.woken .notFull (.push item deadline)) ∧
          s.Enabled thread) ∧
      (0 < sleeping (M := monitor α) .notEmpty s.threads →
        0 < sleeping (M := monitor α) .notFull s.threads →
        ∃ thread condition position, s.threads[thread]? = some (.woken condition position) ∧
          s.Enabled thread) ∧
      (s.state.closed = true → ∀ condition, sleeping (M := monitor α) condition s.threads = 0) := by
  have hcapacity : s.state.capacity = capacity :=
    (Conserved.of_reachable h.reachableBy.layout rfl rfl).capacity
  have hwatched : Watched s.view.state s.view.threads := by
    refine Watched.of_reachable h.reachableBy.view ⟨?_, ?_⟩
    · intro phase hmem
      contradiction
    · intro condition hsleeping
      contradiction
  have hinLine : ∀ phase ∈ s.threads, InLine phase := by
    intro phase hmem
    have hstill := hwatched.inLine _ (List.mem_map_of_mem hmem)
    cases phase <;> exact hstill
  have hcovered : ∀ condition, 0 < sleeping (M := monitor α) condition s.threads →
      s.state.closed = false ∧
        due s.state condition ≤ onTheWay (M := monitor α) condition s.threads := by
    intro condition hsleeping
    have hview := hwatched.covered condition
    simp only [System.view] at hview
    rw [sleeping_map_still, onTheWay_map_still] at hview
    exact hview hsleeping
  have hitems := hcovered .notEmpty
  have hroom := hcovered .notFull
  simp only [due, hcapacity] at hitems hroom
  -- Whoever is on the way can go on, and waits for what he was woken for.
  have hgoes : ∀ condition, 0 < onTheWay (M := monitor α) condition s.threads →
      ∃ thread position, s.threads[thread]? = some (.woken condition position) ∧
        position.awaits? = some condition ∧ s.Enabled thread := by
    intro condition hsome
    obtain ⟨thread, position, here⟩ := exists_of_onTheWay hsome
    exact ⟨thread, position, here, hinLine _ (List.mem_of_getElem? here),
      enabled_of_awake here rfl⟩
  refine ⟨hinLine, hitems, hroom, ?_, ?_, ?_, ?_⟩
  · intro hsleeping hqueue
    have hlength := List.length_pos_iff.2 hqueue
    obtain ⟨thread, position, here, hawaits, henabled⟩ :=
      hgoes .notEmpty (Nat.lt_of_lt_of_le hlength (hitems hsleeping).2)
    obtain ⟨deadline, rfl⟩ := awaits?_eq_notEmpty hawaits
    exact ⟨thread, deadline, here, henabled⟩
  · intro hsleeping hfree
    have hslots := Nat.sub_pos_of_lt hfree
    obtain ⟨thread, position, here, hawaits, henabled⟩ :=
      hgoes .notFull (Nat.lt_of_lt_of_le hslots (hroom hsleeping).2)
    obtain ⟨item, deadline, rfl⟩ := awaits?_eq_notFull hawaits
    exact ⟨thread, item, deadline, here, henabled⟩
  · intro hconsumer hproducer
    have hitems := (hitems hconsumer).2
    have hroom := (hroom hproducer).2
    by_cases hqueue : s.state.queue.length = 0
    · obtain ⟨thread, position, here, _, henabled⟩ := hgoes .notFull (by omega)
      exact ⟨thread, _, position, here, henabled⟩
    · obtain ⟨thread, position, here, _, henabled⟩ := hgoes .notEmpty (by omega)
      exact ⟨thread, _, position, here, henabled⟩
  · intro hclosed condition
    by_contra hsleeping
    have hopen := (hcovered condition (Nat.pos_of_ne_zero hsleeping)).1
    rw [hclosed] at hopen
    contradiction

/-- Two consumers sleep, and the one item that then comes wakes one of them. -/
def oneForTwo : List (Event (monitor Nat)) :=
  [.arrive, .arrive, .arrive, .call 0 .poll, .step 0 () 0, .call 1 .poll, .step 1 () 0,
    .call 2 (.push 7), .step 2 () 0]

theorem no_lost_wakeup_oneForTwo :
    ∃ s, (system (.empty 1 1 (by decide) (by decide)) .midrange).run oneForTwo = some s ∧
      sleeping (M := monitor Nat) .notEmpty s.threads = 1 ∧
      onTheWay (M := monitor Nat) .notEmpty s.threads = 1 ∧ s.state.queue = [7] ∧
      ∃ thread deadline, s.threads[thread]? = some (.woken .notEmpty (.poll deadline)) ∧
        s.Enabled thread := by
  refine ⟨_, rfl, by decide, by decide, rfl, ?_⟩
  have hreachable := System.Reachable.run .start
    (rfl : (system (.empty 1 1 (by decide) (by decide)) .midrange).run oneForTwo = some _)
  exact (no_lost_wakeup hreachable).2.2.2.1 (by decide) (by decide)

end Backpressure.Channel
