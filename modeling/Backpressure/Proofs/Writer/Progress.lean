import Backpressure.Proofs.Channel.Waking
import Backpressure.Proofs.Settings
import Backpressure.Proofs.Writer.Closing
import Backpressure.Proofs.Writer.Manning

/-!
# A writer never gets stuck

Producers wait for the pump, the pump waits for a delivery, a close waits for the pump and for the
periodic trigger, and other closes wait for that one. Whoever is at the end of such a chain can go
on: the thread that carries a batch, the trigger that has been told to stop, or the pump, which is
woken for every item and by the close of the channel.
-/

namespace Backpressure.Writer

variable {α : Type}

/-- Can a thread take a step with nothing to wait for? It may be handed the end of its call of the
sink, whatever that comes to, and the periodic trigger may notice that it should stop. No tick, no
deadline and no unfounded wake-up is counted on. -/
def GoesOn (s : System (monitor α)) (thread : Nat) : Prop :=
  ∀ outcome : SinkOutcome, ∃ input ∈ [Buffer.Input.nothing, .outcome outcome, .stop],
    ∃ wakee, (s.next (.step thread input wakee)).isSome = true

/-! ### Places where a thread is held up -/

/-- A thread that is awake at this place is held up by another one. -/
inductive HeldUp (w : Writer α) : Position α → Prop
  /-- Another shutdown is ending the periodic trigger. -/
  | stop {task} (busy : w.buffer.ticker = .stopping ∨ w.buffer.ticker = .ended) :
      HeldUp w (.buffer task .stop)
  /-- The periodic trigger has not ended. -/
  | await {task} (runs : w.buffer.ticker ≠ .ended) : HeldUp w (.buffer task .await)
  /-- The periodic trigger has not been told to stop, and no tick has come. -/
  | select {task} (untold : w.buffer.ticker ≠ .stopping) : HeldUp w (.buffer task .select)
  /-- Another close holds the lock on the pump. -/
  | lock (taken : w.locked = true) : HeldUp w .lock
  /-- The pump has not ended. -/
  | join (runs : w.pumpEnded = false) : HeldUp w .join

/-- A thread in a call on the buffer can take a step, or is held up. -/
theorem moves_or_heldUp_of_buffer (w : Writer α) (now : Instant) (task : Task)
    (p : Buffer.Position α) (outcome : SinkOutcome) :
    (∃ input ∈ [Buffer.Input.nothing, .outcome outcome, .stop],
      ∃ move, (Buffer.monitor α).step w.buffer now p input = some move) ∨
      HeldUp w (.buffer task p) := by
  cases p with
  | deliver errand batch => exact .inl ⟨.outcome outcome, by simp, _, rfl⟩
  | stop =>
    cases hticker : w.buffer.ticker with
    | running | stopped =>
      exact .inl ⟨.nothing, by simp, by simp [Buffer.step, Buffer.stepStop, hticker]⟩
    | stopping => exact .inr (.stop (.inl hticker))
    | ended => exact .inr (.stop (.inr hticker))
  | await =>
    by_cases hended : w.buffer.ticker = .ended
    · exact .inl ⟨.nothing, by simp, by simp [Buffer.step, Buffer.stepAwait, hended]⟩
    · exact .inr (.await hended)
  | select =>
    by_cases hstopping : w.buffer.ticker = .stopping
    · exact .inl ⟨.stop, by simp, by simp [Buffer.step, Buffer.stepSelect, hstopping]⟩
    · exact .inr (.select hstopping)
  | append | enter | join | call | record | recheck | launch | inspect =>
    exact .inl ⟨.nothing, by simp, _, rfl⟩

/-- A thread can take a step, or is held up. -/
theorem moves_or_heldUp (w : Writer α) (now : Instant) (position : Position α)
    (outcome : SinkOutcome) :
    (∃ input ∈ [Buffer.Input.nothing, .outcome outcome, .stop],
      ∃ move, (monitor α).step w now position input = some move) ∨ HeldUp w position := by
  cases position with
  | buffer task p =>
    refine (moves_or_heldUp_of_buffer w now task p outcome).imp_left ?_
    rintro ⟨input, hinput, move, moves⟩
    exact ⟨input, hinput, _, Option.map_eq_some_iff.2 ⟨move, moves, rfl⟩⟩
  | lock =>
    cases hlocked : w.locked with
    | true => exact .inr (.lock hlocked)
    | false => exact .inl ⟨.nothing, by simp, _, by simp only [step, stepLock, hlocked]; rfl⟩
  | join =>
    cases hended : w.pumpEnded with
    | true => exact .inl ⟨.nothing, by simp, _, by simp only [step, hended]; rfl⟩
    | false => exact .inr (.join hended)
  | channel | release | drained | inspect => exact .inl ⟨.nothing, by simp, _, rfl⟩

/-- A step wakes one thread, or all that sleep on some conditions. -/
theorem signals_of_effect {w : Writer α} {now : Instant} {position : Position α} {move : Step α}
    (h : Effect w now position move) :
    (∃ condition, move.signals = [.one condition]) ∨
      ∀ signal ∈ move.signals, ∃ condition, signal = .all condition := by
  cases h with
  | channel moves =>
    cases Channel.effect_of_moves moves with
    | add => exact .inl ⟨.channel .notEmpty, rfl⟩
    | take => exact .inl ⟨.channel .notFull, rfl⟩
    | _ => exact .inr (by simp [Move.embed, Signal.map, Move.reply])
  | buffer moves =>
    right
    simp only [Move.embed]
    rcases Buffer.signals_of_moves moves with hsignals | hsignals <;> simp [hsignals, Signal.map]
  | lock | join | release | drained | inspect => exact .inr (by rintro _ ⟨⟩)

/-- A thread that is awake within a call can go on, or is held up. -/
theorem goesOn_or_heldUp {s : System (monitor α)} {thread : Nat} {phase : Phase (monitor α)}
    {position : Position α} (here : s.threads[thread]? = some phase)
    (awake : phase.position? = some position) :
    GoesOn s thread ∨ HeldUp s.state position := by
  by_cases hheld : HeldUp s.state position
  · exact .inr hheld
  · left
    intro outcome
    obtain ⟨input, hinput, move, moves⟩ :=
      (moves_or_heldUp s.state s.now position outcome).resolve_right hheld
    obtain ⟨wakee, hwakee⟩ :=
      exists_deliverAll_of (signals_of_effect (effect_of_moves moves)) s.threads
    obtain ⟨threads, wakes⟩ := Option.isSome_iff_exists.1 hwakee
    have hnext := System.next_eq_some_iff.2 (.step here awake moves wakes)
    exact ⟨input, hinput, wakee, Option.isSome_iff_exists.2 ⟨_, hnext⟩⟩

/-! ### What is known of a writer in use -/

/-- What a thread does in the channel does not depend on what its last call returned. -/
theorem map_still_inChannel (threads : List (Phase (monitor α))) :
    (threads.map .still).map inChannel = threads.map inChannel := by
  simp [Function.comp_def]

theorem map_still_inBuffer (threads : List (Phase (monitor α))) :
    (threads.map .still).map inBuffer = threads.map inBuffer := by
  simp [Function.comp_def]

/-- At the beginning, only the periodic trigger and the pump are there, and both are awake. -/
theorem mem_threads_system {w : Writer α} {now : Instant} {phase : Phase (monitor α)}
    (h : phase ∈ (system w now).view.threads) :
    phase = .ready (.buffer .own .launch) ∨ phase = .ready (.channel .pump (.poll none)) := by
  simpa [system, System.initial, System.view, Phase.still] using h

/-- At the beginning the threads are tidy. -/
theorem tidy_system {M : Monitor} (part : Part (monitor α) M) {w : Writer α} {now : Instant} :
    ∀ phase ∈ (system w now).view.threads, part.Tidy phase := by
  intro phase hmem
  rcases mem_threads_system hmem with rfl | rfl <;> trivial

section Start

variable {w : Writer α} {now : Instant} {s : System (monitor α)}
  (h : (system w now).ReachableBy (Client fun _ => True) s)
include h

theorem watched_of_reachable : Channel.Watched s.state.channel (s.threads.map inChannel) := by
  have hstart : Channel.Watched w.channel
      ((system w now).view.threads.map (channelPart α).phase) := by
    constructor
    · intro phase hmem
      obtain ⟨before, hbefore, rfl⟩ := List.mem_map.1 hmem
      rcases mem_threads_system hbefore with rfl | rfl <;> trivial
    · intro condition hsleeping
      contradiction
  have hwatched := Channel.Watched.of_reachable
    ((channelPart α).reachable_view h.view (tidy_system _)).1 hstart
  rw [← map_still_inChannel]
  exact hwatched

theorem attended_of_reachable : Buffer.Attended s.state.buffer (s.threads.map inBuffer) := by
  have hstart : Buffer.Attended w.buffer
      ((system w now).view.threads.map (bufferPart α).phase) := by
    constructor
    · intro phase hmem position hplace
      obtain ⟨before, hbefore, rfl⟩ := List.mem_map.1 hmem
      rcases mem_threads_system hbefore with rfl | rfl <;> cases hplace
      trivial
    · intro phase hmem
      obtain ⟨before, hbefore, rfl⟩ := List.mem_map.1 hmem
      rcases mem_threads_system hbefore with rfl | rfl <;> trivial
  have hattended := Buffer.Attended.of_reachable
    ((bufferPart α).reachable_view h.view (tidy_system _)).1 hstart
  rw [← map_still_inBuffer]
  exact hattended

theorem awaited_of_reachable (hticker : w.buffer.ticker = .running) :
    Buffer.Awaited ((bufferPart α).layout s.layout) := by
  have hstart : ∀ {thread}, ((bufferPart α).layout (system w now).layout).place thread ≠
      some .await := by
    intro thread hplace
    obtain ⟨position, hposition, hinside⟩ := Option.bind_eq_some_iff.1 hplace
    rw [System.place_layout] at hposition
    have hown := placeIn_initial hposition
    simp only [List.mem_cons, List.not_mem_nil, or_false] at hown
    rcases hown with rfl | rfl <;> cases hinside
  refine Buffer.Awaited.of_reachable ((bufferPart α).reachable h.layout) ⟨?_, ?_, ?_⟩
  · exact fun hplace => absurd hplace hstart
  · exact fun hplace => absurd hplace hstart
  · intro hwaits
    rw [show ((bufferPart α).layout (system w now).layout).state.ticker = .running from hticker]
      at hwaits
    rcases hwaits with hold | hold <;> contradiction

/-- A thread that sleeps on a condition of the channel is in a call on the channel. -/
theorem exists_channel_of_asleep {thread : Nat} {k : Channel.Condition} {wakeAt : Deadline}
    {position : Position α}
    (here : s.threads[thread]? = some (.asleep (.channel k) wakeAt position)) :
    ∃ task p, position = .channel task p := by
  have hmem : Phase.asleep (M := monitor α) (.channel k) wakeAt position ∈ s.view.threads :=
    System.still_mem_view here
  have htidy := ((channelPart α).reachable_view h.view (tidy_system _)).2 _ hmem rfl
  cases position <;> first | exact ⟨_, _, rfl⟩ | contradiction

/-- A thread that sleeps on a condition of the buffer is in a call on the buffer. -/
theorem exists_buffer_of_asleep {thread : Nat} {k : Buffer.Condition} {wakeAt : Deadline}
    {position : Position α}
    (here : s.threads[thread]? = some (.asleep (.buffer k) wakeAt position)) :
    ∃ task p, position = .buffer task p := by
  have hmem : Phase.asleep (M := monitor α) (.buffer k) wakeAt position ∈ s.view.threads :=
    System.still_mem_view here
  have htidy := ((bufferPart α).reachable_view h.view (tidy_system _)).2 _ hmem rfl
  cases position <;> first | exact ⟨_, _, rfl⟩ | contradiction

end Start

/-- What is known of every system that the use of a new writer leads to. -/
structure Overseen (s : System (monitor α)) : Prop where
  posts : Posts (fun _ => True) s.layout
  manned : Manned s.layout
  ordered : Ordered s.layout
  ledger : Buffer.Ledger ((bufferPart α).layout s.layout)
  awaited : Buffer.Awaited ((bufferPart α).layout s.layout)
  watched : Channel.Watched s.state.channel (s.threads.map inChannel)
  attended : Buffer.Attended s.state.buffer (s.threads.map inBuffer)
  /-- Threads sleep on the conditions of the channel in a call on the channel only. -/
  atChannel : ∀ {thread : Nat} {k : Channel.Condition} {wakeAt : Deadline}
    {position : Position α}, s.threads[thread]? = some (.asleep (.channel k) wakeAt position) →
      ∃ task p, position = .channel task p
  /-- Threads sleep on the conditions of the buffer in a call on the buffer only. -/
  atBuffer : ∀ {thread : Nat} {k : Buffer.Condition} {wakeAt : Deadline}
    {position : Position α}, s.threads[thread]? = some (.asleep (.buffer k) wakeAt position) →
      ∃ task p, position = .buffer task p

/-- All this is known of every use of a new writer that leaves the polls to the pump. -/
theorem Overseen.of_reachable {w : Writer α} {now : Instant} {s : System (monitor α)}
    (hfresh : Fresh w) (hlocked : w.locked = false)
    (h : (system w now).ReachableBy (Client fun _ => True) s) : Overseen s where
  posts := Posts.of_reachable h.layout
  manned := Manned.of_reachable hlocked h.layout
  ordered := Ordered.of_reachable hfresh.pumpEnded h.layout
  ledger := Writer.ledger h.layout hfresh.pending hfresh.flushing
  awaited := awaited_of_reachable h hfresh.ticker
  watched := watched_of_reachable h
  attended := attended_of_reachable h
  atChannel := exists_channel_of_asleep h
  atBuffer := exists_buffer_of_asleep h

/-! ### Where nobody can go on -/

section Stuck

variable {s : System (monitor α)} (h : Overseen s) (hstuck : ∀ thread, ¬ GoesOn s thread)
  {thread : Nat} {position : Position α} {task : Task}
include h hstuck

omit h in
/-- Every thread that is in a call sleeps or is held up. -/
theorem asleep_or_heldUp (hplace : s.layout.place thread = some position) :
    (∃ condition wakeAt, s.threads[thread]? = some (.asleep condition wakeAt position)) ∨
      HeldUp s.state position := by
  rw [System.place_layout] at hplace
  obtain ⟨phase, here, hphase⟩ := Option.bind_eq_some_iff.1 hplace
  have hawake : phase.position? = some position → HeldUp s.state position :=
    fun awake => (goesOn_or_heldUp here awake).resolve_left (hstuck thread)
  cases phase with
  | asleep condition wakeAt there =>
    cases hphase
    exact .inl ⟨condition, wakeAt, here⟩
  | ready | woken =>
    cases hphase
    exact .inr (hawake rfl)
  | _ => contradiction

/-- A thread in a call on the channel sleeps, and waits for what its call needs. -/
theorem asleep_of_channel {p : Channel.Position α}
    (hplace : s.layout.place thread = some (.channel task p)) :
    ∃ k wakeAt, s.threads[thread]? = some (.asleep (.channel k) wakeAt (.channel task p)) ∧
      p.awaits? = some k := by
  rcases asleep_or_heldUp hstuck hplace with ⟨condition, wakeAt, here⟩ | hheld
  · cases condition with
    | channel k =>
      have hmem := List.mem_map_of_mem (f := inChannel) (List.mem_of_getElem? here)
      exact ⟨k, wakeAt, here, h.watched.inLine _ hmem⟩
    | buffer k =>
      obtain ⟨_, _, hother⟩ := h.atBuffer here
      contradiction
  · contradiction

/-- No batch is on its way, for its thread could go on with it. -/
theorem resting_of_stuck : s.state.buffer.flushing = false := by
  cases h.ledger.flight with
  | resting resting => exact resting
  | @busy carrier p batch flushing there alone carried underway =>
    exfalso
    have hcarries := underway.carries
    obtain ⟨position, hposition, hinside⟩ := Option.bind_eq_some_iff.1 there
    cases position with
    | buffer task p' =>
      cases hinside
      rcases asleep_or_heldUp hstuck hposition with ⟨condition, wakeAt, here⟩ | hheld
      · cases condition with
        | channel k =>
          obtain ⟨_, _, hother⟩ := h.atChannel here
          contradiction
        | buffer k =>
          have hmem := List.mem_map_of_mem (f := inBuffer) (List.mem_of_getElem? here)
          obtain ⟨_, errand, hjoin⟩ := h.attended.asleep _ hmem
          rw [hjoin] at hcarries
          contradiction
      · cases hheld <;> contradiction
    | _ => contradiction

/-- A thread in a call on the buffer is held up, for there is no delivery to wait for. -/
theorem heldUp_of_buffer {p : Buffer.Position α}
    (hplace : s.layout.place thread = some (.buffer task p)) :
    HeldUp s.state (.buffer task p) := by
  rcases asleep_or_heldUp hstuck hplace with ⟨condition, wakeAt, here⟩ | hheld
  · cases condition with
    | channel k =>
      obtain ⟨_, _, hother⟩ := h.atChannel here
      contradiction
    | buffer k =>
      have hmem := List.mem_map_of_mem (f := inBuffer) (List.mem_of_getElem? here)
      obtain ⟨hbusy, _⟩ := h.attended.asleep _ hmem
      rw [resting_of_stuck h hstuck] at hbusy
      contradiction
  · exact hheld

/-- The periodic trigger, while it runs, waits at its select. -/
theorem select_of_stuck
    (hruns : ¬ (s.state.buffer.ticker = .ended ∨ s.state.buffer.ticker = .stopped)) :
    s.state.buffer.ticker ≠ .stopping := by
  obtain ⟨thread, position, hplace, hrole⟩ := h.manned .ticker hruns
  cases position with
  | buffer task p =>
    cases task with
    | own =>
      simp only [Position.role] at hrole
      split at hrole
      · rename_i htick
        cases heldUp_of_buffer h hstuck hplace with
        | select untold => exact untold
        | stop | await => contradiction
      · contradiction
    | close | pump => contradiction
  | channel task => cases task <;> contradiction
  | _ => contradiction

/-- Nobody waits for the end of the periodic trigger. -/
theorem ticker_of_stuck :
    ¬ (s.state.buffer.ticker = .stopping ∨ s.state.buffer.ticker = .ended) := by
  intro hwaits
  obtain ⟨thread, hthere⟩ := h.awaited.noticed hwaits
  obtain ⟨position, hplace, hinside⟩ := Option.bind_eq_some_iff.1 hthere
  cases position with
  | buffer task p =>
    cases hinside
    cases heldUp_of_buffer h hstuck hplace with
    | await runs =>
      have hstopping := hwaits.resolve_right runs
      refine select_of_stuck h hstuck ?_ hstopping
      rw [hstopping]
      nofun
  | _ => contradiction

/-- Of the threads in calls on the buffer, only the periodic trigger is left. -/
theorem eq_select_of_stuck {p : Buffer.Position α}
    (hplace : s.layout.place thread = some (.buffer task p)) : p = .select := by
  cases heldUp_of_buffer h hstuck hplace with
  | select => rfl
  | stop busy => exact absurd busy (ticker_of_stuck h hstuck)
  | await =>
    have hthere : ((bufferPart α).layout s.layout).place thread = some .await :=
      Option.bind_eq_some_iff.2 ⟨_, hplace, rfl⟩
    exact absurd (h.awaited.told hthere) (ticker_of_stuck h hstuck)

/-- A thread that is in no call on the channel or on the buffer is held up. -/
theorem heldUp_of_outside (hplace : s.layout.place thread = some position)
    (hchannel : position.inChannel? = none) (hbuffer : position.inBuffer? = none) :
    HeldUp s.state position := by
  rcases asleep_or_heldUp hstuck hplace with ⟨condition, wakeAt, here⟩ | hheld
  · cases condition with
    | channel k =>
      obtain ⟨_, _, rfl⟩ := h.atChannel here
      contradiction
    | buffer k =>
      obtain ⟨_, _, rfl⟩ := h.atBuffer here
      contradiction
  · exact hheld

omit h in
/-- Nobody has been woken in the channel, for he could go on. -/
theorem onTheWay_of_stuck (k : Channel.Condition) :
    onTheWay (M := Channel.monitor α) k (s.threads.map inChannel) = 0 := by
  rw [onTheWay, List.countP_eq_zero]
  intro phase hmem hwoken
  obtain ⟨before, hbefore, rfl⟩ := List.mem_map.1 hmem
  obtain ⟨t, here⟩ := List.getElem?_of_mem hbefore
  cases before with
  | woken condition position =>
    have hheld := (goesOn_or_heldUp here rfl).resolve_left (hstuck t)
    cases hheld <;> contradiction
  | ready position =>
    simp only [Phase.within] at hwoken
    cases hinside : position.inChannel? <;> rw [hinside] at hwoken <;> contradiction
  | asleep condition wakeAt position =>
    simp only [Phase.within] at hwoken
    split at hwoken
    · contradiction
    · cases hinside : position.inChannel? <;> rw [hinside] at hwoken <;> contradiction
  | _ => contradiction

/-- Who sleeps in the channel sleeps in an open one, with nothing for him. -/
theorem due_of_asleep {k : Channel.Condition} {wakeAt : Deadline} {p : Channel.Position α}
    (here : s.threads[thread]? = some (.asleep (.channel k) wakeAt (.channel task p))) :
    s.state.channel.closed = false ∧ Channel.due s.state.channel k = 0 := by
  have hsleeping : 0 < sleeping (M := Channel.monitor α) k (s.threads.map inChannel) := by
    have hmem := List.mem_map_of_mem (f := inChannel) (List.mem_of_getElem? here)
    exact List.countP_pos_iff.2 ⟨_, hmem, decide_eq_true rfl⟩
  obtain ⟨hopen, hdue⟩ := h.watched.covered k hsleeping
  rw [onTheWay_of_stuck hstuck] at hdue
  exact ⟨hopen, Nat.le_zero.1 hdue⟩

/-- The pump, while it lasts, waits for items in an open channel without any. -/
theorem empty_of_stuck (hruns : s.state.pumpEnded = false) :
    s.state.channel.closed = false ∧ s.state.channel.queue = [] := by
  have hlasts : ¬ Role.pump.Over s.state := by
    rw [Role.Over, hruns]
    nofun
  obtain ⟨thread, position, hplace, hrole⟩ := h.manned .pump hlasts
  have hsuits := h.posts.suits hplace
  cases position with
  | channel task p =>
    cases task with
    | pump =>
      obtain rfl : p = .poll none := hsuits
      obtain ⟨k, wakeAt, here, hawaits⟩ := asleep_of_channel h hstuck hplace
      cases hawaits
      obtain ⟨hopen, hdue⟩ := due_of_asleep h hstuck here
      exact ⟨hopen, List.length_eq_zero_iff.1 hdue⟩
    | own | close => contradiction
  | buffer task p =>
    obtain rfl := eq_select_of_stuck h hstuck hplace
    cases task <;> contradiction
  | drained => cases heldUp_of_outside h hstuck hplace rfl rfl
  | _ => contradiction

/-- Nobody waits for the end of the pump. -/
theorem ne_join_of_stuck : s.layout.place thread ≠ some .join := by
  intro hplace
  cases heldUp_of_outside h hstuck hplace rfl rfl with
  | join runs =>
    have hopen := (empty_of_stuck h hstuck runs).1
    have hclosed : s.state.channel.closed = true := h.ordered.closed hplace rfl
    rw [hopen] at hclosed
    contradiction

/-- The lock on the pump is free. -/
theorem unlocked_of_stuck : s.state.locked = false := by
  by_contra hlocked
  obtain ⟨thread, position, hplace, hrole⟩ := h.manned .closer hlocked
  have hsuits := h.posts.suits hplace
  cases position with
  | buffer task p =>
    obtain rfl := eq_select_of_stuck h hstuck hplace
    cases task <;> contradiction
  | join => exact ne_join_of_stuck h hstuck hplace
  | release flush => cases heldUp_of_outside h hstuck hplace rfl rfl
  | channel task => cases task <;> contradiction
  | _ => contradiction

/-- Nobody waits for room, for the pump takes every item that there is. -/
theorem ne_push_of_stuck {p : Channel.Position α}
    (hplace : s.layout.place thread = some (.channel task p)) : p.awaits? ≠ some .notFull := by
  intro hpush
  obtain ⟨k, wakeAt, here, hawaits⟩ := asleep_of_channel h hstuck hplace
  obtain rfl : k = .notFull := Option.some.inj (hawaits.symm.trans hpush)
  obtain ⟨hopen, hdue⟩ := due_of_asleep h hstuck here
  have hruns : s.state.pumpEnded = false := by
    by_contra hended
    have hclosed : s.state.channel.closed = true :=
      h.ordered.ended (eq_true_of_ne_false hended)
    rw [hopen] at hclosed
    contradiction
  have hqueue := (empty_of_stuck h hstuck hruns).2
  have hroom := s.state.channel.capacity_pos
  simp only [Channel.due, hqueue, List.length_nil, Nat.sub_zero] at hdue
  omega

/-- Only the pump and the periodic trigger are left. -/
theorem role_of_stuck (hplace : s.layout.place thread = some position) :
    position.role = .pump ∨ position.role = .ticker := by
  have hsuits := h.posts.suits hplace
  cases position with
  | channel task p =>
    obtain ⟨k, wakeAt, here, hawaits⟩ := asleep_of_channel h hstuck hplace
    have hnotFull := ne_push_of_stuck h hstuck hplace
    cases task with
    | pump => exact .inl rfl
    | close =>
      obtain rfl : p = .close := hsuits
      contradiction
    | own =>
      have hpolls : p.isPoll = false := hsuits
      cases p with
      | push => exact absurd rfl hnotFull
      | _ => contradiction
  | buffer task p =>
    obtain rfl := eq_select_of_stuck h hstuck hplace
    cases task with
    | own => exact .inr rfl
    | close | pump => contradiction
  | lock =>
    cases heldUp_of_outside h hstuck hplace rfl rfl with
    | lock taken =>
      rw [unlocked_of_stuck h hstuck] at taken
      contradiction
  | join => exact absurd hplace (ne_join_of_stuck h hstuck)
  | release | inspect => cases heldUp_of_outside h hstuck hplace rfl rfl
  | drained => exact .inl rfl

end Stuck

/-! ### Threads in calls -/

/-- Can a thread be at this place for a call? The pump and the periodic trigger are there for
none. -/
def Position.isForCall : Position α → Bool
  | .channel .pump _ | .buffer .pump _ | .drained => false
  | .buffer _ position => position.purpose ≠ .tick
  | _ => true

theorem role_of_isForCall {position : Position α} (h : position.isForCall = true) :
    position.role ≠ .pump ∧ position.role ≠ .ticker := by
  cases position with
  | channel task p =>
    cases task with
    | own | close => simp [Position.role]
    | pump => contradiction
  | buffer task p =>
    cases task with
    | own =>
      have htick : p.purpose ≠ .tick := of_decide_eq_true h
      simp [Position.role, htick]
    | close => simp [Position.role]
    | pump => contradiction
  | drained => contradiction
  | lock | join | release | inspect => simp [Position.role]

theorem isForCall_start (request : Request α) (now : Instant) :
    (start request now).isForCall = true := by
  cases request with
  | buffer request => cases request <;> rfl
  | _ => rfl

section Effect

variable {w : Writer α} {now : Instant} {position place : Position α} {move : Step α}

/-- A call that goes on does not become the pump or the periodic trigger. -/
theorem isForCall_of_effect (h : Effect w now position move) (hfor : position.isForCall = true)
    (hplace : (Phase.ofOutcome (M := monitor α) move.outcome).place? = some place) :
    place.isForCall = true := by
  cases h with
  | @channel task p channelMove moves =>
    rcases cases_of_embed (W := monitor α) (M := Channel.monitor α) hplace
      with ⟨p', rfl, _⟩ | ⟨reply, _, hover⟩
    · cases task <;> first | rfl | contradiction
    · cases task with
      | own => contradiction
      | close =>
        cases hover
        rfl
      | pump => contradiction
  | @buffer task p input bufferMove moves =>
    rcases cases_of_embed (W := monitor α) (M := Buffer.monitor α) hplace
      with ⟨p', rfl, hstays⟩ | ⟨reply, _, hover⟩
    · have hpurpose := (Buffer.effect_of_moves moves).purpose hstays
      cases task <;> simp_all [Position.isForCall]
    · cases task with
      | own => contradiction
      | close =>
        simp only [afterBuffer] at hover
        split at hover <;> cases hover <;> first | rfl | contradiction
      | pump => contradiction
  | lock free =>
    simp only [Move.proceed] at hplace
    split at hplace <;> cases hplace <;> rfl
  | join ended =>
    cases hplace
    rfl
  | release | drained | inspect => contradiction

/-- No call ends its thread. -/
theorem ne_exit_of_effect (h : Effect w now position move) (hfor : position.isForCall = true) :
    move.outcome ≠ .exit := by
  intro hexit
  cases h with
  | @channel task p channelMove moves =>
    simp only [Move.embed] at hexit
    cases houtcome : channelMove.outcome with
    | exit => exact ne_exit_of_channel moves houtcome
    | reply reply =>
      simp only [houtcome, afterChannel] at hexit
      split at hexit <;> contradiction
    | proceed | sleep =>
      rw [houtcome] at hexit
      contradiction
  | @buffer task p input bufferMove moves =>
    simp only [Move.embed] at hexit
    cases houtcome : bufferMove.outcome with
    | exit =>
      have hleads := Buffer.leads_of_moves moves
      rw [houtcome] at hleads
      cases hleads with
      | exit select =>
        subst select
        cases task <;> contradiction
    | reply reply =>
      simp only [houtcome, afterBuffer] at hexit
      split at hexit <;> contradiction
    | proceed | sleep =>
      rw [houtcome] at hexit
      contradiction
  | drained => contradiction
  | lock | join | release | inspect => contradiction

end Effect

/-- A call is not at the place of the pump or of the periodic trigger. -/
def placeRule (α : Type) : CallRule (monitor α) where
  stands call? position := call?.isSome = true → position.isForCall = true
  comes _ _ := True
  start _ request now _ := isForCall_start request now
  step := by
    intro call? position state now input move hstands moves
    constructor
    · intro place hplace hsome
      rw [Option.isSome_map] at hsome
      exact isForCall_of_effect (effect_of_moves moves) (hstands hsome) hplace
    · intros
      trivial

/-- A thread in a call is somewhere, and is neither the pump nor the periodic trigger. -/
theorem place_of_openCall {w : Writer α} {now : Instant} {s : System (monitor α)}
    (h : (system w now).Reachable s) {thread : Nat} {call : Call (monitor α)}
    (hopen : openCall thread s.journal = some call) :
    ∃ position, s.layout.place thread = some position ∧
      position.role ≠ .pump ∧ position.role ≠ .ticker := by
  have hbackground : ∀ position ∈ [Position.buffer .own .launch, .channel .pump (.poll none)],
      (placeRule α).stands none position := by
    intro position _ hsome
    contradiction
  obtain ⟨position, hplace⟩ := CallRule.exists_place h hbackground
    (fun hstands moves => ne_exit_of_effect (effect_of_moves moves) (hstands rfl)) hopen
  have hstands := (CallRule.holds h hbackground).stands hplace
  rw [hopen] at hstands
  refine ⟨position, ?_, role_of_isForCall (hstands rfl)⟩
  rw [System.place_layout]
  exact hplace

/-- A writer never gets stuck. Its clients may do anything but take items from its channel. Then, as
long as any call has not returned, some thread can take a step with nothing to wait for: whatever
the sink's call comes to that it may be in, and without a tick, a deadline or an unfounded
wake-up. -/
theorem never_stuck {config : WriterConfig} (hvalid : config.validate = .ok ()) :
    ∃ w : Writer α, ofConfig config = .ok w ∧
      ∀ now s, (system w now).ReachableBy (Client fun _ => True) s →
        ∀ thread call, openCall thread s.journal = some call → ∃ t, GoesOn s t := by
  obtain ⟨hcapacity, herrors, hlimit, hinterval, hmade⟩ := ofConfig_eq_ok (α := α) hvalid
  refine ⟨_, hmade, ?_⟩
  intro now s h thread call hopen
  by_contra hnobody
  have hstuck : ∀ t, ¬ GoesOn s t := fun t hgoes => hnobody ⟨t, hgoes⟩
  have hoverseen := Overseen.of_reachable ⟨rfl, rfl, rfl, rfl, rfl, rfl⟩ rfl h
  obtain ⟨position, hplace, hpump, hticker⟩ := place_of_openCall h.reachable hopen
  rcases role_of_stuck hoverseen hstuck hplace with hrole | hrole
  · exact hpump hrole
  · exact hticker hrole

/-- A thread that flushes is at the sink. The pump, with a full buffer, and the periodic trigger
wait for that delivery, a close waits for the pump, and another one for the lock. -/
def oneAtTheSink : List (Event (monitor Nat)) :=
  [.arrive, .arrive, .arrive, .arrive, .step 0 .nothing 0, .call 2 (.write 1), .step 2 .nothing 0,
    .step 1 .nothing 0, .step 1 .nothing 0, .call 3 (.buffer .flush), .step 3 .nothing 0,
    .step 3 .nothing 0, .call 2 (.write 2), .step 2 .nothing 0, .step 1 .nothing 0,
    .step 1 .nothing 0, .call 2 (.write 3), .step 2 .nothing 0, .step 1 .nothing 0,
    .step 1 .nothing 0, .step 1 .nothing 0, .step 0 .tick 0, .step 0 .nothing 0, .call 4 .close,
    .step 4 .nothing 0, .step 4 .nothing 0, .call 5 .close, .step 5 .nothing 0]

theorem never_stuck_oneAtTheSink :
    ∃ w s call, ofConfig { buffer := { limit := 2 } } = .ok w ∧
      (system w .midrange).run oneAtTheSink = some s ∧
      openCall 5 s.journal = some call ∧ call.request.isClose = true ∧
      s.threads.map (fun phase => decide (phase.position?.isSome = true)) =
        [false, false, false, true, true, true] ∧
      ∃ t, GoesOn s t := by
  obtain ⟨w, hmade, hall⟩ := never_stuck (α := Nat)
    (show ({ buffer := { limit := 2 } } : WriterConfig).validate = .ok () from rfl)
  have hruns : ((ofConfig (α := Nat) { buffer := { limit := 2 } }).toOption.bind fun w =>
      ((system w .midrange).run oneAtTheSink).map fun s =>
        decide ((openCall 5 s.journal).any
            (fun call : Call (monitor Nat) => call.request.isClose) = true ∧
          s.threads.map (fun phase => decide (phase.position?.isSome = true)) =
            [false, false, false, true, true, true])) = some true := by
    decide +kernel
  rw [hmade] at hruns
  simp only [Except.toOption, Option.bind_some, Option.map_eq_some_iff,
    decide_eq_true_eq] at hruns
  obtain ⟨s, hrun, hclose, hawake⟩ := hruns
  obtain ⟨call, hopen, hcall⟩ := (Option.any_eq_true _ _).1 hclose
  have hallowed : ∀ event ∈ oneAtTheSink, Client (fun _ => True) event := by
    simp [oneAtTheSink, Client]
  exact ⟨w, s, call, hmade, hrun, hopen, hcall, hawake,
    hall .midrange s (.run .start hallowed hrun) 5 call hopen⟩

end Backpressure.Writer
