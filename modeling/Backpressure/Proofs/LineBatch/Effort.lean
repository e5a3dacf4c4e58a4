import Backpressure.Proofs.LineBatch.Progress
import Backpressure.Proofs.LineBatch.Settings
import Backpressure.Proofs.Writer.Effort

/-!
# The batcher comes to its end

Every step of the batcher takes away some of the effort that is left, which is in proportion to the
lines that are left. Only a tick of the periodic trigger and a wake-up without a signal bring some
along. So, apart from these, a run of the batcher is not longer than its input allows.
-/

namespace Backpressure

/-- A step of a call on a limiter wakes others only if its own thread stays awake. -/
theorem Bucket.left_step (b : Bucket) (now : Instant) (position : Position) (reading : Instant) :
    (step b now position reading).left (fun _ => 10) (fun _ => 0) (fun _ => 0) ≤ 10 := by
  have heffect := effect b now position reading
  generalize step b now position reading = move at heffect
  have htoll : ∀ signals : List (Signal Condition), (if signals.isEmpty then 0 else 8) ≤ 8 := by
    intro signals
    split <;> omega
  cases heffect with
  | wait waits spent early =>
    have hsignals : windowSignals b reading = [] := by
      unfold windowSignals
      split
      · rename_i hover
        rw [take?_eq_none_iff, refill_of_isOver hover] at spent
        exact absurd spent (Nat.ne_of_gt b.threshold_pos)
      · rfl
    simp [hsignals]
  | inspect => simp
  | _ =>
    have hbound := htoll (windowSignals b reading)
    simp only [Move.left, Move.toll, Outcome.effort]
    omega

/-- A reading that begins a window leaves nobody waiting. -/
theorem Bucket.exists_reply_of_isOver {b : Bucket} {reading : Instant}
    (h : b.isOver reading = true) (now : Instant) (position : Position) :
    ∃ reply, (step b now position reading).outcome = .reply reply := by
  have heffect := effect b now position reading
  generalize step b now position reading = move at heffect
  cases heffect with
  | wait waits spent early =>
    rw [take?_eq_none_iff, refill_of_isOver h] at spent
    exact absurd spent (Nat.ne_of_gt b.threshold_pos)
  | _ => exact ⟨_, rfl⟩

/-- A step of a call on a limiter begins no window but at its reading. -/
theorem Bucket.checkpoint_of_step (b : Bucket) (now : Instant) (position : Position)
    (reading : Instant) :
    (step b now position reading).state.period = b.period ∧
      ((step b now position reading).state.checkpoint = b.checkpoint ∨
        (step b now position reading).state.checkpoint = reading) := by
  have hrefill : (b.refill reading).period = b.period ∧
      ((b.refill reading).checkpoint = b.checkpoint ∨
        (b.refill reading).checkpoint = reading) := by
    unfold refill
    split
    · exact ⟨rfl, .inr rfl⟩
    · exact ⟨rfl, .inl rfl⟩
  have heffect := effect b now position reading
  generalize step b now position reading = move at heffect
  cases heffect with
  | grant asks left =>
    obtain ⟨_, rfl⟩ := take?_eq_some_iff.1 left
    exact hrefill
  | inspect => exact ⟨rfl, .inl rfl⟩
  | _ => exact hrefill

namespace LineBatch

/-- What is left for the main thread after a call on the writer. -/
@[simp]
def Task.rest : Task → Nat
  | .own | .errors _ => 0
  | .write rest => 35 + 46 * rest.lines.length
  | .report => 31
  | .close => 3
  | .count => 2

/-- The effort that is left of a thread at a place, in a round of the buffer. -/
@[simp]
def Position.effort (round : Nat) : Position → Nat
  | .read input => 35 + 46 * input.lines.length
  | .permit _ rest _ => 80 + 46 * rest.lines.length
  | .write _ rest => 70 + 46 * rest.lines.length
  | .writer task p => task.rest + p.effort round
  | .sumUp _ | .tell _ => 2

/-- The effort that a step leaves. -/
abbrev left (move : Step) : Nat :=
  Move.left (Position.effort move.state.writer.buffer.round) (fun _ => 0)
    (·.writer.channel.effort) move

/-- The round that is going on makes little difference to the effort. -/
theorem Position.effort_le (position : Position) (round round' : Nat) :
    position.effort round' ≤ position.effort round + 3 := by
  cases position with
  | writer task p => exact Nat.add_le_add_left (p.effort_le round round') task.rest
  | _ => exact Nat.le_add_right _ 3

theorem effort_afterWriter (now : Instant) (task : Task) (reply : Writer.Reply String)
    (round : Nat) :
    (afterWriter now task reply).effort (Position.effort round) (fun _ => 0) ≤
      task.rest + reply.effort + 1 := by
  unfold afterWriter
  split <;>
    simp [ask, Writer.start, Channel.start, Buffer.start, Writer.Reply.effort,
      Channel.Reply.effort]
  omega

variable {job : Job} {now : Instant} {position : Position} {input : Input} {move : Step}

theorem left_ofWriter (task : Task) (move : Writer.Step String) :
    left (ofWriter job now task move) ≤ task.rest + Writer.left move :=
  Move.left_embed 0 move _ _ (Nat.zero_add _).symm (fun _ => Nat.le_refl _)
    fun reply => effort_afterWriter now task reply _

theorem left_ofLimiter (line : String) (rest : Reading) (move : Bucket.Step) :
    left (ofLimiter job line rest move) ≤
      70 + 46 * rest.lines.length + job.writer.channel.effort +
        move.left (fun _ => 10) (fun _ => 0) (fun _ => 0) := by
  refine Move.left_embed job.writer.channel.effort move _ _ (Nat.add_zero _).symm (fun _ => ?_)
    (fun _ => ?_)
  · simp only [Position.effort]
    omega
  · simp

/-- A step of the batcher takes effort away, unless it is a tick. -/
theorem left_step (h : step job now position input = some move) :
    left move < position.effort job.writer.buffer.round + 1 + job.writer.channel.effort +
      input.buffer.effort := by
  cases position with
  | read reading =>
    cases h
    simp only [stepRead]
    split
    · rename_i line lines hlines
      split <;> simp [hlines] <;> omega
    · split <;> simp [ask, Writer.start, Channel.start] <;> omega
  | permit line rest p =>
    cases h
    simp only [stepPermit]
    split
    · rename_i limiter hlimiter
      have hstep := Bucket.left_step limiter now p input.reading
      refine Nat.lt_of_le_of_lt (left_ofLimiter line rest _) ?_
      simp only [Position.effort]
      omega
    · simp
      omega
  | write line rest =>
    cases h
    simp [ask, Writer.start, Channel.start]
    omega
  | writer task p =>
    obtain ⟨writerMove, hmoves, rfl⟩ := Option.map_eq_some_iff.1 h
    have hstep := Writer.left_step hmoves
    refine Nat.lt_of_le_of_lt (left_ofWriter task writerMove) ?_
    simp only [Position.effort]
    omega
  | sumUp tally =>
    cases h
    simp [ask, Writer.start, Channel.start]
    omega
  | tell error =>
    cases h
    simp [ask, Writer.start, Channel.start]
    omega

/-! ### Whole runs -/

/-- Who wakes nobody leaves the round as it is. -/
theorem round_of_silent (h : step job now position input = some move)
    (hsilent : move.signals = []) :
    move.state.writer.buffer.round = job.writer.buffer.round := by
  cases effect_of_moves h with
  | writer moves =>
    exact Writer.round_of_silent (Writer.effect_of_moves moves) (List.map_eq_nil_iff.1 hsilent)
  | _ => rfl

/-- The effort that is left of a thread, in a round of the buffer. -/
def phaseEffort (round : Nat) : Phase monitor → Nat
  | .ready position | .woken _ position => position.effort round + 1
  | .asleep _ _ position => position.effort round
  | _ => 0

/-- The effort that is left of the thread with a number. -/
def effortAt (s : System monitor) (thread : Nat) : Nat :=
  (s.threads[thread]?.map (phaseEffort s.state.writer.buffer.round)).getD 0

/-- The effort that is left in the batcher. -/
def effort (s : System monitor) : Nat :=
  effortAt s 0 + effortAt s 1 + effortAt s mainThread + s.state.writer.channel.effort

/-- Is this a step of a thread? -/
def isStep : Event monitor → Bool
  | .step _ _ _ => true
  | _ => false

/-- Does this bring along some effort: a tick of the periodic trigger, or a wake-up without a
signal? -/
def stirs : Event monitor → Bool
  | .step _ input _ => input.buffer = .tick
  | .rouse _ => true
  | _ => false

/-- Nobody but the first three threads is in a call. -/
def Few (s : System monitor) : Prop := ∀ thread, mainThread < thread → s.layout.place thread = none

variable {s s' : System monitor} {thread t : Nat}

theorem phaseEffort_ofOutcome (round : Nat) (outcome : Outcome Position Nat Condition) :
    phaseEffort round (.ofOutcome outcome) ≤
      outcome.effort (Position.effort round) fun _ => 0 := by
  cases outcome <;> simp [phaseEffort, Phase.ofOutcome, Outcome.effort]

/-- A phase has the effort of its place, or one more. -/
theorem phaseEffort_le (round : Nat) (phase : Phase monitor) :
    phaseEffort round phase ≤ (phase.place?.map (·.effort round + 1)).getD 0 ∧
      (phase.place?.map (·.effort round)).getD 0 ≤ phaseEffort round phase := by
  cases phase <;> simp [phaseEffort]

/-- Wake-ups and a new round add little to the effort of a thread. -/
theorem phaseEffort_le_of_place {phase phase' : Phase monitor} (h : phase'.place? = phase.place?)
    (round round' : Nat) : phaseEffort round' phase' ≤ phaseEffort round phase + 4 := by
  have hafter := (phaseEffort_le round' phase').1
  have hbefore := (phaseEffort_le round phase).2
  rw [h] at hafter
  cases hplace : phase.place? with
  | none =>
    rw [hplace] at hafter
    exact Nat.le_trans hafter (Nat.zero_le _)
  | some position =>
    rw [hplace] at hafter hbefore
    have hround := position.effort_le round round'
    simp only [Option.map_some, Option.getD_some] at hafter hbefore
    omega

/-- A step adds at most half of its toll to the effort of any other thread. -/
theorem effortAt_step_of_ne {wakee : Nat} {threads : List (Phase monitor)} {after : Phase monitor}
    {journal : List (Entry monitor)} (ht : t ≠ thread)
    (moves : step s.state s.now position input = some move)
    (wakes : System.deliverAll wakee move.signals s.threads = some threads) :
    effortAt (System.mk s.now move.state (threads.set thread after) journal) t ≤
      effortAt s t + move.toll / 2 := by
  simp only [effortAt, List.getElem?_set_ne (Ne.symm ht)]
  cases hsignals : move.signals with
  | nil =>
    rw [hsignals] at wakes
    cases wakes
    rw [round_of_silent moves hsignals]
    exact Nat.le_add_right _ _
  | cons signal rest =>
    have htoll : move.toll / 2 = 4 := by simp [Move.toll, hsignals]
    have hplaces := congrArg (·[t]?) (System.map_place?_deliverAll wakes)
    simp only [List.getElem?_map] at hplaces
    rw [htoll]
    cases hbefore : s.threads[t]? with
    | none =>
      rw [hbefore, Option.map_none, Option.map_eq_none_iff] at hplaces
      rw [hplaces]
      exact Nat.zero_le _
    | some phase =>
      rw [hbefore, Option.map_some, Option.map_eq_some_iff] at hplaces
      obtain ⟨phase', hafter, hplace⟩ := hplaces
      rw [hafter]
      exact phaseEffort_le_of_place hplace _ _

/-- Where the efforts of the other two threads grow by little, so does the sum of all three, apart
from the one thread. -/
theorem sum_le_of_others {before after : Nat → Nat} {growth : Nat} (hthread : thread ≤ mainThread)
    (h : ∀ t, t ≠ thread → after t ≤ before t + growth) :
    after 0 + after 1 + after mainThread + before thread ≤
      before 0 + before 1 + before mainThread + after thread + 2 * growth := by
  have hcases : thread = 0 ∨ thread = 1 ∨ thread = mainThread := by
    simp only [mainThread] at hthread ⊢
    omega
  rcases hcases with rfl | rfl | rfl
  · have hpump := h 1 (by decide)
    have hmain := h mainThread (by decide)
    omega
  · have hticker := h 0 (by decide)
    have hmain := h mainThread (by decide)
    omega
  · have hticker := h 0 (by decide)
    have hpump := h 1 (by decide)
    omega

/-- A step of one of the three threads leaves what it leaves, in place of the effort of its thread
and of the state. -/
theorem effort_after {wakee : Nat} {phase : Phase monitor} {threads : List (Phase monitor)}
    (hthread : thread ≤ mainThread) (here : s.threads[thread]? = some phase)
    (moves : step s.state s.now position input = some move)
    (wakes : System.deliverAll wakee move.signals s.threads = some threads) :
    effort (System.mk s.now move.state (threads.set thread (.ofOutcome move.outcome))
      ((System.entries thread move).reverse ++ s.journal)) +
        (effortAt s thread + s.state.writer.channel.effort) ≤ effort s + left move := by
  have hafter : effortAt (System.mk s.now move.state (threads.set thread (.ofOutcome move.outcome))
      ((System.entries thread move).reverse ++ s.journal)) thread ≤
        move.outcome.effort (Position.effort move.state.writer.buffer.round) fun _ => 0 := by
    simp only [effortAt, List.getElem?_set_self (System.lt_of_deliverAll here wakes)]
    exact phaseEffort_ofOutcome _ _
  have hothers : ∀ t, t ≠ thread → effortAt (System.mk s.now move.state
      (threads.set thread (.ofOutcome move.outcome))
        ((System.entries thread move).reverse ++ s.journal)) t ≤ effortAt s t + move.toll / 2 :=
    fun t ht => effortAt_step_of_ne ht moves wakes
  have hsum := sum_le_of_others hthread hothers
  simp only [left, Move.left, effort]
  omega

/-- A thread that is awake at a place has the effort of the place, and one more. -/
theorem effortAt_of_awake {phase : Phase monitor} (here : s.threads[thread]? = some phase)
    (awake : phase.position? = some position) :
    effortAt s thread = position.effort s.state.writer.buffer.round + 1 := by
  cases phase <;> cases awake <;> simp [effortAt, here, phaseEffort]

/-- A new thread has no effort before it. -/
theorem effortAt_arrive (s : System monitor) (t : Nat) :
    effortAt { s with threads := s.threads ++ [.idle] } t = effortAt s t := by
  simp only [effortAt]
  rcases Nat.lt_trichotomy t s.threads.length with hlt | rfl | hgt
  · rw [List.getElem?_append_left hlt]
  · simp [phaseEffort]
  · rw [List.getElem?_eq_none (by simp; omega), List.getElem?_eq_none (by omega)]

/-- A wake-up brings a little effort along. -/
theorem effortAt_rouse {condition : Condition} {wakeAt : Deadline} {place : Position}
    (here : s.threads[thread]? = some (.asleep condition wakeAt place)) :
    effortAt { s with threads := s.threads.set thread (.woken condition place) } thread =
      effortAt s thread + 1 := by
  simp [effortAt, List.getElem?_set_self (List.getElem?_eq_some_iff.1 here).1, here, phaseEffort]

theorem effort_rouse {condition : Condition} {wakeAt : Deadline} {place : Position}
    (hthread : thread ≤ mainThread)
    (here : s.threads[thread]? = some (.asleep condition wakeAt place)) :
    effort { s with threads := s.threads.set thread (.woken condition place) } ≤ effort s + 1 := by
  have hself := effortAt_rouse here
  have hothers : ∀ t, t ≠ thread →
      effortAt { s with threads := s.threads.set thread (.woken condition place) } t ≤
        effortAt s t + 0 := by
    intro t ht
    simp only [effortAt, List.getElem?_set_ne (Ne.symm ht)]
    exact Nat.le_refl _
  have hsum := sum_le_of_others hthread hothers
  simp only [effort]
  omega

theorem Few.le_mainThread (h : Few s) {place : Position} (here : s.layout.place t = some place) :
    t ≤ mainThread := by
  by_contra hlarge
  rw [h t (Nat.lt_of_not_le hlarge)] at here
  contradiction

/-- An event that is not a call brings along a little effort where it stirs, and a step takes some
away. -/
theorem effort_next {fits : Buffer.Input → Prop} {event : Event monitor} (hfew : Few s)
    (hworking : Working fits event) (h : s.next event = some s') :
    effort s' + (if isStep event then 1 else 0) ≤ effort s + (if stirs event then 14 else 0) ∧
      Few s' := by
  cases System.next_eq_some_iff.1 h with
  | elapse => exact ⟨Nat.le_refl _, hfew⟩
  | arrive =>
    have hlayout := (layout_of_aside (.arrive (s := s)) nofun nofun).1
    refine ⟨?_, fun t ht => hlayout ▸ hfew t ht⟩
    simp only [effort, effortAt_arrive]
    exact Nat.le_refl _
  | call => exact hworking.elim
  | @rouse t condition wakeAt place here =>
    have hlayout := (layout_of_aside (.rouse here) nofun nofun).1
    have hplace : s.layout.place t = some place := by
      simp [System.place_layout, placeIn, here, Phase.place?]
    have hrouse := effort_rouse (hfew.le_mainThread hplace) here
    refine ⟨Nat.le_trans hrouse ?_, fun u hu => hlayout ▸ hfew u hu⟩
    exact Nat.add_le_add_left (by simp [stirs]) _
  | @step t wakee input phase place move threads here awake moves wakes =>
    have hplace : s.layout.place t = some place := by
      rw [System.place_layout]
      exact placeIn_of_awake here awake
    have hthread := hfew.le_mainThread hplace
    refine ⟨?_, ?_⟩
    · have hstep := left_step moves
      have hafter := effort_after hthread here moves wakes
      rw [effortAt_of_awake here awake] at hafter
      have hinput : input.buffer.effort ≤ if stirs (.step t input wakee) then 14 else 0 := by
        cases hbuffer : input.buffer <;> simp [stirs, hbuffer, Buffer.Input.effort]
      simp only [isStep, if_true]
      omega
    · intro u hu
      rw [System.layout_step here wakes]
      exact (Function.update_of_ne (by omega) _ _).trans (hfew u hu)

/-- The steps of a run take away what is left in the beginning and what is brought along. -/
theorem effort_run {fits : Buffer.Input → Prop} {events : List (Event monitor)} (hfew : Few s)
    (hworking : ∀ event ∈ events, Working fits event) (h : s.run events = some s') :
    effort s' + events.countP isStep ≤ effort s + 14 * events.countP stirs := by
  induction events generalizing s with
  | nil =>
    cases h
    exact Nat.le_refl _
  | cons event rest ih =>
    obtain ⟨between, hnext, hrest⟩ := Option.bind_eq_some_iff.1 h
    rw [List.forall_mem_cons] at hworking
    obtain ⟨hfirst, hfew'⟩ := effort_next hfew hworking.1 hnext
    have hlater := ih hfew' hworking.2 hrest
    rw [List.countP_cons, List.countP_cons]
    cases hstep : isStep event <;> cases hstirs : stirs event <;>
      simp only [hstep, hstirs, if_true, if_false, Bool.false_eq_true] at hfirst ⊢ <;>
      omega

theorem few_underway (job : Job) (now : Instant) (input : Reading) :
    Few (underway job now input) := by
  intro thread hthread
  have hlength : (underway job now input).threads.length ≤ thread := hthread
  rw [System.place_layout, placeIn, List.getElem?_eq_none hlength]
  rfl

/-- The most steps that a run with some events can have: a number in proportion to the lines, and
some more for every tick and every wake-up without a signal. -/
def allowance (input : Reading) (events : List (Event monitor)) : Nat :=
  42 + 46 * input.lines.length + 14 * events.countP stirs

/-- The steps of a run, and the effort that is left after it, keep to the allowance. -/
theorem steps_le {fits : Buffer.Input → Prop} {events : List (Event monitor)} {job : Job}
    {now : Instant} {input : Reading} (hbegun : Begun job)
    (hworking : ∀ event ∈ events, Working fits event)
    (h : (underway job now input).run events = some s) :
    effort s + events.countP isStep ≤ allowance input events := by
  have hrun := effort_run (few_underway job now input) hworking h
  have hstart : effort (underway job now input) = 42 + 46 * input.lines.length := by
    simp [effort, effortAt, underway, system, System.initial, phaseEffort, start, Channel.effort,
      hbegun.fresh.queue, hbegun.clean]
    omega
  unfold allowance
  omega

theorem few_of_reachable {fits : Buffer.Input → Prop} {job : Job} {now : Instant} {input : Reading}
    (h : (underway job now input).ReachableBy (Working fits) s) : Few s := by
  induction h with
  | start => exact few_underway job now input
  | next _ hworking hnext ih => exact (effort_next ih hworking hnext).2

/-! ### Coming to the end -/

/-- The limiter is left alone, or takes a step at the reading of the clock. -/
theorem limiter_of_moves (h : monitor.step job now position input = some move) :
    move.state.limiter = job.limiter ∨ ∃ limiter p, job.limiter = some limiter ∧
      move.state.limiter = some (Bucket.step limiter now p input.reading).state := by
  cases position with
  | permit line rest p =>
    cases h
    unfold stepPermit
    split
    · rename_i limiter hlimiter
      exact .inr ⟨limiter, p, hlimiter, rfl⟩
    · exact .inl rfl
  | read | write | writer | sumUp | tell => cases effect_of_moves h <;> exact .inl rfl

/-- A step takes one window at most, where it reads the clock as the next one begins. -/
theorem HasWindows.step {n : Nat} (h : HasWindows job.limiter (n + 1))
    (hreading : BeginsWindow job.limiter input.reading)
    (moves : LineBatch.step job now position input = some move) :
    HasWindows move.state.limiter n := by
  rcases limiter_of_moves moves with hsame | ⟨limiter, p, hlimiter, hafter⟩
  · rw [hsame]
    exact h.mono (Nat.le_succ n)
  · intro bucket hbucket
    rw [hafter] at hbucket
    cases hbucket
    obtain ⟨hperiod, hcheckpoint⟩ := Bucket.checkpoint_of_step limiter now p input.reading
    have hclock := h limiter hlimiter
    have hbegins := hreading limiter hlimiter
    rw [Nat.succ_mul] at hclock
    rw [hperiod]
    rcases hcheckpoint with hsame | hnew
    · rw [hsame]
      omega
    · rw [hnew]
      omega

/-- The batcher can come closer to its end. -/
def Advances (fits : Buffer.Input → Prop) (s : System monitor) : Prop :=
  ∃ s', s.ReachableBy (Working fits) s' ∧ effort s' < effort s ∧
    HasWindows s'.state.limiter (effort s')

variable {fits : Buffer.Input → Prop}

/-- A thread that goes on takes effort away, whatever it reads on the clock. -/
theorem GoesOn.exists_step (h : GoesOn s thread) (hfew : Few s) (hfits : Suffices fits)
    (reading : Instant) :
    ∃ s' buffer wakee, Working fits (.step thread { reading, buffer } wakee) ∧
      s.next (.step thread { reading, buffer } wakee) = some s' ∧ effort s' < effort s := by
  obtain ⟨buffer, hbuffer, wakee, hnext⟩ := h reading .accepted
  obtain ⟨s', hs'⟩ := Option.isSome_iff_exists.1 hnext
  have hgiven : fits buffer ∧ buffer ≠ .tick := by
    simp only [List.mem_cons, List.not_mem_nil, or_false] at hbuffer
    rcases hbuffer with rfl | rfl | rfl
    · exact ⟨hfits.nothing, nofun⟩
    · exact ⟨hfits.accepted, nofun⟩
    · exact ⟨hfits.stop, nofun⟩
  have hworking : Working fits (.step thread { reading, buffer } wakee) := hgiven.1
  have heffort := (effort_next hfew hworking hs').1
  simp only [isStep, stirs, hgiven.2, decide_false, if_true, Bool.false_eq_true, if_false]
    at heffort
  exact ⟨s', buffer, wakee, hworking, hs', heffort⟩

/-- Where some thread goes on, the batcher comes closer to its end. -/
theorem GoesOn.advances (h : GoesOn s thread) (hfew : Few s) (hfits : Suffices fits)
    (hwindows : HasWindows s.state.limiter (effort s)) : Advances fits s := by
  have hpos : effort s ≠ 0 := by
    obtain ⟨_, _, _, _, _, hless⟩ := h.exists_step hfew hfits s.now
    omega
  obtain ⟨n, hn⟩ := Nat.exists_eq_succ_of_ne_zero hpos
  rw [hn] at hwindows
  obtain ⟨reading, hreading⟩ := hwindows.exists_reading
  obtain ⟨s', buffer, wakee, hworking, hs', hless⟩ := h.exists_step hfew hfits reading
  refine ⟨s', .next .start hworking hs', hless, ?_⟩
  cases System.next_eq_some_iff.1 hs' with
  | step here awake moves wakes => exact (hwindows.step hreading moves).mono (by omega)

/-- A line that is let through leaves less effort than one that waits. -/
theorem left_of_admitted {reading : Instant} (h : BeginsWindow job.limiter reading) (now : Instant)
    (line : String) (rest : Reading) (p : Bucket.Position) :
    left (stepPermit job now line rest p reading) <
      80 + 46 * rest.lines.length + job.writer.channel.effort := by
  unfold stepPermit
  split
  · rename_i limiter hlimiter
    have hover : limiter.isOver reading = true :=
      Bucket.isOver_iff.2 (Nat.le_of_eq (h limiter hlimiter).symm)
    obtain ⟨reply, hreply⟩ := Bucket.exists_reply_of_isOver hover now p
    simp only [left, Move.left, Move.embed, hreply, Outcome.effort, Position.effort, Move.toll]
    split <;> omega
  · simp only [left, Move.left_proceed, Position.effort]
    omega

/-- A line that has waited for its window is let through as that begins. -/
theorem next_of_admitted {condition : Bucket.Condition} {line : String} {rest : Reading}
    {p : Bucket.Position} {reading : Instant} {wakee n : Nat}
    (here : s.threads[mainThread]? = some (.woken (.limiter condition) (.permit line rest p)))
    (hreading : BeginsWindow s.state.limiter reading)
    (hwindows : HasWindows s.state.limiter (n + 1))
    (h : s.next (.step mainThread ⟨reading, .nothing⟩ wakee) = some s') :
    effort s' + 1 < effort s ∧ HasWindows s'.state.limiter n := by
  cases System.next_eq_some_iff.1 h with
  | step here' awake moves wakes =>
    cases here.symm.trans here'
    cases awake
    have hstep : step s.state s.now (.permit line rest p) ⟨reading, .nothing⟩ =
      some (stepPermit s.state s.now line rest p reading) := rfl
    cases moves
    have hafter := effort_after (Nat.le_refl _) here hstep wakes
    have hleft := left_of_admitted hreading s.now line rest p
    rw [effortAt_of_awake here rfl] at hafter
    simp only [Position.effort] at hafter
    refine ⟨?_, hwindows.step hreading hstep⟩
    dsimp only
    omega

/-- Where the main thread waits for the limiter, the batcher comes closer to its end with the next
window. -/
theorem Waits.advances {now : Instant} {input : Reading} (h : Waits s)
    (hreached : (underway job now input).ReachableBy (Working fits) s) (hfits : Suffices fits)
    (hwindows : HasWindows s.state.limiter (effort s)) : Advances fits s := by
  obtain ⟨condition, wakeAt, position, here⟩ := h
  obtain ⟨⟨line, rest, p, rfl⟩, _⟩ := outside_of_asleep hreached here
  have hpos : effort s ≠ 0 := by
    have hmain : effortAt s mainThread = 80 + 46 * rest.lines.length := by
      simp [effortAt, here, phaseEffort, Position.effort]
    unfold effort
    omega
  obtain ⟨n, hn⟩ := Nat.exists_eq_succ_of_ne_zero hpos
  rw [hn] at hwindows
  obtain ⟨reading, hreading⟩ := hwindows.exists_reading
  let woken : Phase monitor := .woken (.limiter condition) (.permit line rest p)
  let roused : System monitor := { s with threads := s.threads.set mainThread woken }
  have hrouse : s.next (.rouse mainThread) = some roused := System.next_eq_some_iff.2 (.rouse here)
  have hthere : roused.threads[mainThread]? = some woken :=
    List.getElem?_set_self (List.getElem?_eq_some_iff.1 here).1
  have hmoves : monitor.step roused.state roused.now (.permit line rest p) ⟨reading, .nothing⟩ =
      some (stepPermit s.state s.now line rest p reading) := rfl
  obtain ⟨wakee, hsome⟩ := LineBatch.exists_next hthere rfl hmoves
  obtain ⟨s', hs'⟩ := Option.isSome_iff_exists.1 hsome
  obtain ⟨hless, hlater⟩ := next_of_admitted hthere hreading hwindows hs'
  have hrouses : effort roused ≤ effort s + 1 := effort_rouse (Nat.le_refl _) here
  have hworking : Working fits (.rouse mainThread) ∧
      Working fits (.step mainThread ⟨reading, .nothing⟩ wakee) := ⟨trivial, hfits.nothing⟩
  refine ⟨s', .next (.next .start hworking.1 hrouse) hworking.2 hs', by omega, ?_⟩
  exact hlater.mono (by omega)

/-- Wherever it is, the batcher can come to its end, if there is time for enough windows of its
limiter. -/
theorem comes_to_end {job : Job} {now : Instant} {input : Reading} (hbegun : Begun job)
    (hfits : ∀ input, fits input → input.Accepts) (hsuffices : Suffices fits)
    (h : (underway job now input).ReachableBy (Working fits) s)
    (hwindows : HasWindows s.state.limiter (effort s)) :
    ∃ s' status, s.ReachableBy (Working fits) s' ∧
      s'.threads[mainThread]? = some (.returned status) := by
  induction heffort : effort s using Nat.strongRecOn generalizing s with
  | ind _ ih =>
    by_cases hreturned : ∃ status, s.threads[mainThread]? = some (.returned status)
    · obtain ⟨status, hstatus⟩ := hreturned
      exact ⟨s, status, .start, hstatus⟩
    · have hadvances : Advances fits s := by
        rcases goesOn_or_waits hbegun hfits h (not_exists.1 hreturned) with ⟨thread, hgoes⟩ | hwaits
        · exact hgoes.advances (few_of_reachable h) hsuffices hwindows
        · exact hwaits.2.advances h hsuffices hwindows
      obtain ⟨next, hnext, hless, hlater⟩ := hadvances
      obtain ⟨s', status, hs', hend⟩ := ih _ (heffort ▸ hless) (h.trans hnext) hlater rfl
      exact ⟨s', status, hnext.trans hs', hend⟩

end LineBatch

end Backpressure
