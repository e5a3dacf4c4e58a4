import Backpressure.Proofs.Writer.Parts

/-!
# The effort that is left in a writer

Every place of a call on a writer is given an effort: a bound on the steps that are left of the
call, and of what it leaves for others to do. An item in the channel stands for the effort of the
pump for it, and a delivery for the wake-ups of those who wait for its end. Then every step takes
effort away, save a tick of the periodic trigger.
-/

namespace Backpressure

namespace Outcome

variable {Position Reply Condition : Type}

/-- The effort that a thread has before it after a step. To be awake is an effort in itself. -/
@[simp]
def effort (place : Position → Nat) (reply : Reply → Nat) : Outcome Position Reply Condition → Nat
  | .proceed p => place p + 1
  | .sleep _ _ p => place p
  | .reply r => reply r + 1
  | .exit => 0

end Outcome

namespace Move

variable {State Position Reply Condition Note : Type}

/-- What a step may add to the efforts of two other threads, where it wakes any of them. -/
def toll (move : Move State Position Reply Condition Note) : Nat :=
  if move.signals.isEmpty then 0 else 8

/-- The effort that a step leaves: that of its thread, that of the state, and what it may add to the
efforts of others. -/
def left (place : Position → Nat) (reply : Reply → Nat) (state : State → Nat)
    (move : Move State Position Reply Condition Note) : Nat :=
  move.outcome.effort place reply + move.toll + state move.state

variable {place : Position → Nat} {reply : Reply → Nat} {effort : State → Nat}

/-- Who wakes nobody adds nothing to the efforts of others. -/
@[simp]
theorem left_silent (state : State) (outcome : Outcome Position Reply Condition)
    (notes : List Note) :
    (Move.mk state outcome [] notes).left place reply effort =
      outcome.effort place reply + effort state := rfl

@[simp]
theorem left_signal (state : State) (outcome : Outcome Position Reply Condition)
    (signal : Signal Condition) (rest : List (Signal Condition)) (notes : List Note) :
    (Move.mk state outcome (signal :: rest) notes).left place reply effort =
      outcome.effort place reply + 8 + effort state := rfl

@[simp]
theorem left_proceed (state : State) (p : Position) :
    (proceed state p : Move State Position Reply Condition Note).left place reply effort =
      place p + 1 + effort state := rfl

@[simp]
theorem left_reply (state : State) (r : Reply) :
    (Move.reply state r : Move State Position Reply Condition Note).left place reply effort =
      reply r + 1 + effort state := rfl

variable {State' Position' Reply' Condition' Note' : Type} {place' : Position' → Nat}
  {reply' : Reply' → Nat} {effort' : State' → Nat} {rest : Nat}

/-- Within a larger call, what is left of that call is added, and within a larger state, what other
parts of it stand for. -/
theorem left_embed (others : Nat) (move : Move State Position Reply Condition Note)
    {state : State → State'} {position : Position → Position'} (condition : Condition → Condition')
    (note : Note → Note')
    {finish : Reply → Outcome Position' Reply' Condition'}
    (hstate : effort' (state move.state) = others + effort move.state)
    (hposition : ∀ p, place' (position p) ≤ rest + place p)
    (hfinish : ∀ r, (finish r).effort place' reply' ≤ rest + reply r + 1) :
    (move.embed state position condition note finish).left place' reply' effort' ≤
      rest + others + move.left place reply effort := by
  have htoll : (move.embed state position condition note finish).toll = move.toll := by
    simp [toll, embed]
  have houtcome : (move.embed state position condition note finish).outcome.effort place' reply' ≤
      rest + move.outcome.effort place reply := by
    simp only [embed]
    cases move.outcome with
    | proceed p => exact Nat.add_le_add_right (hposition p) 1
    | sleep condition wakeAt p => exact hposition p
    | reply r => exact hfinish r
    | exit => exact Nat.zero_le _
  have hafter : effort' (move.embed state position condition note finish).state =
      others + effort move.state := hstate
  unfold left
  omega

end Move

/-! ### Channels -/

namespace Channel

variable {α : Type}

/-- The effort that a channel stands for: that of the pump for every item, and that of telling of
every error. -/
@[simp]
def effort (c : Channel α) : Nat := 25 * c.queue.length + 2 * c.errors.unread.length

/-- The effort that is left of a call on a channel. -/
@[simp]
def Position.effort : Position α → Nat
  | .push _ _ | .tryPush _ => 34
  | .close => 9
  | .reportError _ => 3
  | _ => 1

/-- The effort that the caller owes for a reply: that of the pump for its item, and that of telling
of an error. -/
def Reply.effort : Reply α → Nat
  | .polled (.ok _) => 17
  | .error (some _) => 2
  | _ => 0

/-- The effort that a step of a call on a channel leaves. -/
abbrev left (move : Step α) : Nat := Move.left Position.effort Reply.effort effort move

variable {c : Channel α} {now : Instant}

theorem left_pushed {c' : Channel α} {item : α} {reply : Reply α} (h : c.tryPush item = .ok c')
    (hreply : reply.effort = 0) :
    left (pushed c' item reply) = 34 + c.effort := by
  obtain ⟨_, _, rfl⟩ := tryPush_eq_ok_iff.1 h
  simp [pushed, hreply]
  omega

theorem left_polled {c' : Channel α} {item : α} (h : c.tryPoll = .ok (item, c')) (reply : Reply α)
    (hreply : reply.effort ≤ 17) :
    left (polled c' item reply) ≤ 1 + c.effort := by
  obtain ⟨hqueue, hsame⟩ := tryPoll_eq_ok_iff.1 h
  have herrors : c'.errors = c.errors := by rw [hsame]
  simp [polled, hqueue, herrors]
  omega

/-- A step of a call on a channel takes effort away. -/
theorem left_step (c : Channel α) (now : Instant) (position : Position α) :
    left (step c now position) < position.effort + 1 + c.effort := by
  cases position with
  | push item deadline =>
    simp only [step, stepPush]
    split
    · rename_i hpush
      rw [left_pushed hpush rfl]
      simp
    · simp [Reply.effort]
    · split <;> simp [Reply.effort]
  | tryPush item =>
    simp only [step, stepTryPush]
    split
    · rename_i hpush
      rw [left_pushed hpush rfl]
      simp
    · simp [Reply.effort]
  | poll deadline =>
    simp only [step, stepPoll]
    split
    · rename_i item _ hpoll
      have hleft := left_polled hpoll (.polled (.ok item)) (Nat.le_refl 17)
      simp only [Position.effort]
      omega
    · simp [Reply.effort]
    · split <;> simp [Reply.effort]
  | tryPoll =>
    simp only [step, stepTryPoll]
    split
    · rename_i item _ hpoll
      have hleft := left_polled hpoll (.triedPoll (.ok item)) (Nat.zero_le 17)
      simp only [Position.effort]
      omega
    · simp [Reply.effort]
  | close =>
    simp only [step, stepClose]
    split <;> simp [Reply.effort, close]
  | reportError error =>
    simp only [step, stepReportError, Sideband.report]
    split <;> simp [Reply.effort] <;> omega
  | pollError =>
    simp only [step, stepPollError, Sideband.rest, Sideband.oldest?]
    cases herrors : c.errors.unread with
    | nil => simp [Reply.effort, herrors]
    | cons error rest =>
      simp [Reply.effort, herrors]
      omega
  | errorCount | droppedErrors | inspect => simp [Reply.effort, step]

end Channel

/-! ### Buffers -/

namespace Buffer

variable {α : Type}

/-- The effort that is left of a call on a buffer in a round. A flush that waits has more of it once
that round is over, as an add looks again then. -/
@[simp]
def Position.effort (round : Nat) : Position α → Nat
  | .append _ | .stop => 16
  | .recheck | .await => 15
  | .enter _ => 14
  | .join _ waitsFor => if waitsFor = round then 13 else 16
  | .call _ _ => 12
  | .deliver _ _ => 11
  | .record _ _ _ => 10
  | .launch => 2
  | .select | .inspect => 1

/-- What a tick of the periodic trigger brings with it. -/
def Input.effort : Input → Nat
  | .tick => 14
  | _ => 0

/-- The effort that a step of a call on a buffer leaves. -/
abbrev left (move : Step α) : Nat :=
  Move.left (Position.effort move.state.round) (fun _ => 0) (fun _ => 0) move

/-- The round that is going on makes little difference to the effort. -/
theorem Position.effort_le (position : Position α) (round round' : Nat) :
    position.effort round' ≤ position.effort round + 3 := by
  cases position with
  | join errand waitsFor =>
    simp only [effort]
    split <;> split <;> omega
  | _ => exact Nat.le_add_right _ 3

variable {b : Buffer α} {now : Instant}

theorem effort_finish (errand : Errand) {flush : Flush} (h : flush ≠ .joined) (round : Nat) :
    (finish errand flush : Outcome (Position α) (Reply α) Condition).effort
      (Position.effort round) (fun _ => 0) ≤ 2 := by
  cases errand <;> simp [finish, h]

theorem left_wait (b : Buffer α) (now : Instant) (errand : Errand) :
    left (wait b now errand b.round) ≤ 13 := by
  unfold wait
  split <;> simp

/-- A step of a call on a buffer, or of its periodic trigger, takes effort away, unless it is a
tick. -/
theorem left_step {position : Position α} {input : Input} {move : Step α}
    (h : step b now position input = some move) :
    left move < position.effort b.round + 1 + input.effort := by
  cases position with
  | append item =>
    cases h
    simp only [stepAppend]
    split <;> simp <;> omega
  | enter errand =>
    cases h
    have hwait := left_wait b now errand
    have hfinish := effort_finish (α := α) errand (show Flush.empty ≠ .joined by rintro ⟨⟩) b.round
    simp only [stepEnter, Position.effort]
    split
    · omega
    · split
      · simp only [Move.left_silent]
        omega
      · simp
        omega
  | join errand round =>
    cases h
    simp only [stepJoin, Position.effort]
    split
    · rename_i hround
      subst hround
      have hwait := left_wait b now errand
      rw [if_pos rfl]
      omega
    · rename_i hround
      rw [if_neg (Ne.symm hround)]
      cases errand <;> simp [finish] <;> omega
  | record errand size accepted =>
    cases h
    have hflush : Flush.ofDelivery size accepted ≠ .joined := by
      cases accepted <;> rintro ⟨⟩
    have hfinish := effort_finish (α := α) errand hflush (b.round + 1)
    simp only [stepRecord, complete, Position.effort, Move.left_signal]
    omega
  | deliver errand batch =>
    cases input with
    | outcome outcome =>
      cases h
      simp [stepDeliver]
      omega
    | _ => contradiction
  | call errand batch =>
    cases h
    simp [stepCall]
    omega
  | recheck =>
    cases h
    simp only [stepRecheck]
    split <;> simp <;> omega
  | stop =>
    simp only [step, stepStop] at h
    split at h <;> cases h <;> simp <;> omega
  | await =>
    simp only [step, stepAwait] at h
    split at h <;> cases h
    simp
    omega
  | launch =>
    cases h
    simp
    omega
  | select =>
    cases input with
    | tick =>
      cases h
      simp [Input.effort]
    | stop =>
      simp only [step, stepSelect] at h
      split at h <;> cases h
      simp [Input.effort]
    | _ => contradiction
  | inspect =>
    cases h
    simp
    omega

/-- Who wakes nobody leaves the round as it is. -/
theorem round_of_silent {position : Position α} {move : Step α} (h : Effect b now position move)
    (hsilent : move.signals = []) : move.state.round = b.round := by
  cases h with
  | record => contradiction
  | aside _ _ _ _ sameRound => exact sameRound
  | _ => rfl

end Buffer

/-! ### Writers -/

namespace Writer

variable {α : Type}

/-- What is left of a call on a writer after its call on the channel. -/
@[simp]
def Task.channelRest : Task → Nat
  | .own => 0
  | .close => 19
  | .pump => 1

/-- What is left of a call on a writer after its call on the buffer. -/
@[simp]
def Task.bufferRest : Task → Nat
  | .own => 0
  | .close => 1
  | .pump => 2

/-- The effort that is left of a call on a writer, in a round of its buffer. -/
@[simp]
def Position.effort (round : Nat) : Position α → Nat
  | .channel task p => task.channelRest + p.effort
  | .buffer task p => task.bufferRest + p.effort round
  | .lock => 19
  | .join => 18
  | .release _ | .drained | .inspect => 1

/-- The effort that the caller owes for a reply. -/
def Reply.effort : Reply α → Nat
  | .channel reply => reply.effort
  | _ => 0

/-- The effort that a step of a call on a writer leaves. -/
abbrev left (move : Step α) : Nat :=
  Move.left (Position.effort move.state.buffer.round) Reply.effort (·.channel.effort) move

/-- The round that is going on makes little difference to the effort. -/
theorem Position.effort_le (position : Position α) (round round' : Nat) :
    position.effort round' ≤ position.effort round + 3 := by
  cases position with
  | buffer task p => exact Nat.add_le_add_left (p.effort_le round round') task.bufferRest
  | _ => exact Nat.le_add_right _ 3

theorem effort_afterChannel (task : Task) (reply : Channel.Reply α) (round : Nat) :
    (afterChannel task reply).effort (Position.effort round) Reply.effort ≤
      task.channelRest + reply.effort + 1 := by
  unfold afterChannel
  split <;> simp [Reply.effort, Channel.Reply.effort]

theorem effort_afterBuffer (task : Task) (reply : Buffer.Reply α) (round : Nat) :
    (afterBuffer task reply).effort (Position.effort round) Reply.effort ≤
      task.bufferRest + 0 + 1 := by
  unfold afterBuffer
  split <;> simp [Reply.effort]

variable {w : Writer α} {now : Instant}

theorem left_ofChannel (task : Task) (move : Channel.Step α) :
    left (ofChannel w task move) ≤ task.channelRest + Channel.left move := by
  refine Move.left_embed 0 move _ _ (Nat.zero_add _).symm (fun _ => Nat.le_refl _) ?_
  exact fun reply => effort_afterChannel task reply _

theorem left_ofBuffer (task : Task) (move : Buffer.Step α) :
    left (ofBuffer w task move) ≤ task.bufferRest + w.channel.effort + Buffer.left move :=
  Move.left_embed w.channel.effort move _ _ (Nat.add_zero _).symm (fun _ => Nat.le_refl _)
    fun reply => effort_afterBuffer task reply _

/-- A step of a call on a writer, of its pump, or of its periodic trigger takes effort away, unless
it is a tick. -/
theorem left_step {position : Position α} {input : Buffer.Input} {move : Step α}
    (h : step w now position input = some move) :
    left move < position.effort w.buffer.round + 1 + w.channel.effort + input.effort := by
  cases position with
  | channel task p =>
    cases h
    have hstep := Channel.left_step w.channel now p
    refine Nat.lt_of_le_of_lt (left_ofChannel task _) ?_
    simp only [Position.effort]
    omega
  | buffer task p =>
    obtain ⟨bufferMove, hmoves, rfl⟩ := Option.map_eq_some_iff.1 h
    have hstep := Buffer.left_step hmoves
    refine Nat.lt_of_le_of_lt (left_ofBuffer task bufferMove) ?_
    simp only [Position.effort]
    omega
  | lock =>
    simp only [step, stepLock] at h
    split at h <;> cases h
    split <;> simp <;> omega
  | join =>
    simp only [step] at h
    split at h <;> cases h
    simp
    omega
  | release flush =>
    cases h
    simp [Reply.effort]
    omega
  | drained =>
    cases h
    simp
    omega
  | inspect =>
    cases h
    simp [Reply.effort]
    omega

/-- Who wakes nobody leaves the round as it is. -/
theorem round_of_silent {position : Position α} {move : Step α} (h : Effect w now position move)
    (hsilent : move.signals = []) : move.state.buffer.round = w.buffer.round := by
  cases h with
  | buffer moves =>
    exact Buffer.round_of_silent (Buffer.effect_of_moves moves) (List.map_eq_nil_iff.1 hsilent)
  | _ => rfl

end Writer

end Backpressure
