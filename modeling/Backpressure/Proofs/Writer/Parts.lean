import Backpressure.Proofs.Buffer.Ledger
import Backpressure.Proofs.Channel.Handoff
import Backpressure.Proofs.Part
import Backpressure.Writer.Monitor

/-!
# The channel and the buffer of a writer

A step of a writer is a step of its channel, a step of its buffer, or a step of a close or of the
pump between the two. So the channel of a writer is a channel in use, and its buffer is a buffer in
use.
-/

namespace Backpressure.Writer

variable {α : Type}

/-- A step of the channel as a step of the writer. -/
abbrev ofChannel (w : Writer α) (task : Task) (move : Channel.Step α) : Step α :=
  move.embed (fun channel => { w with channel }) (.channel task) .channel .channel
    (afterChannel task)

/-- A step of the buffer as a step of the writer. -/
abbrev ofBuffer (w : Writer α) (task : Task) (move : Buffer.Step α) : Step α :=
  move.embed (fun buffer => { w with buffer }) (.buffer task) .buffer .buffer (afterBuffer task)

/-- What a step at a place does to a writer. -/
inductive Effect (w : Writer α) (now : Instant) : Position α → Step α → Prop
  /-- A step in a call on the channel. -/
  | channel {task p} {move : Channel.Step α}
      (moves : (Channel.monitor α).step w.channel now p () = some move) :
      Effect w now (.channel task p) (ofChannel w task move)
  /-- A step in a call on the buffer, or of its periodic trigger. -/
  | buffer {task p input} {move : Buffer.Step α}
      (moves : (Buffer.monitor α).step w.buffer now p input = some move) :
      Effect w now (.buffer task p) (ofBuffer w task move)
  /-- A close takes the lock on the pump. -/
  | lock (free : w.locked = false) :
      Effect w now .lock
        (.proceed { w with locked := true, claimed := true }
          (if w.claimed then .buffer .close .stop else .join))
  /-- The close that waited for the pump goes on to the buffer. -/
  | join (ended : w.pumpEnded = true) : Effect w now .join (.proceed w (.buffer .close .stop))
  /-- A close gives the lock back and returns. -/
  | release {flush} :
      Effect w now (.release flush) (.reply { w with locked := false } (.closed flush))
  /-- The pump ends. -/
  | drained :
      Effect w now .drained
        { state := { w with pumpEnded := true }, outcome := .exit, signals := []
          notes := [.drained] }
  /-- A caller looks at the writer. -/
  | inspect : Effect w now .inspect (.reply w (.snapshot w))

/-- Every move of a thread on a shared writer has one of the effects. -/
theorem effect_of_moves {w : Writer α} {now : Instant} {position : Position α}
    {input : Buffer.Input} {move : Step α}
    (h : (monitor α).step w now position input = some move) : Effect w now position move := by
  cases position with
  | channel task p =>
    cases h
    exact .channel rfl
  | buffer task p =>
    obtain ⟨bufferMove, hmoves, rfl⟩ := Option.map_eq_some_iff.1 h
    exact .buffer hmoves
  | lock =>
    simp only [step, stepLock] at h
    split at h
    · contradiction
    · rename_i hfree
      cases h
      exact .lock (eq_false_of_ne_true hfree)
  | join =>
    simp only [step] at h
    split at h
    · rename_i hended
      cases h
      exact .join hended
    · contradiction
  | release flush =>
    cases h
    exact .release
  | drained =>
    cases h
    exact .drained
  | inspect =>
    cases h
    exact .inspect

/-- The place of a thread within a call on the channel. -/
def Position.inChannel? : Position α → Option (Channel.Position α)
  | .channel _ position => some position
  | _ => none

/-- The place of a thread within a call on the buffer. -/
def Position.inBuffer? : Position α → Option (Buffer.Position α)
  | .buffer _ position => some position
  | _ => none

/-- A condition of the channel. -/
def Condition.ofChannel? : Condition → Option Channel.Condition
  | .channel condition => some condition
  | .buffer _ => none

/-- A condition of the buffer. -/
def Condition.ofBuffer? : Condition → Option Buffer.Condition
  | .buffer condition => some condition
  | .channel _ => none

/-- What a note says of the channel. -/
def Note.ofChannel? : Note α → Option (Channel.Note α)
  | .channel note => some note
  | _ => none

/-- What a note says of the buffer. -/
def Note.ofBuffer? : Note α → Option (Buffer.Note α)
  | .buffer note => some note
  | _ => none

section Notes

variable (channelNotes : List (Channel.Note α)) (bufferNotes : List (Buffer.Note α))

@[simp]
theorem filterMap_ofChannel?_channel :
    (channelNotes.map Note.channel).filterMap Note.ofChannel? = channelNotes := by
  simp [List.filterMap_map, Function.comp_def, Note.ofChannel?]

@[simp]
theorem filterMap_ofBuffer?_channel :
    (channelNotes.map Note.channel).filterMap Note.ofBuffer? = [] := by
  simp [List.filterMap_map, Function.comp_def, Note.ofBuffer?]

@[simp]
theorem filterMap_ofChannel?_buffer :
    (bufferNotes.map Note.buffer).filterMap Note.ofChannel? = [] := by
  simp [List.filterMap_map, Function.comp_def, Note.ofChannel?]

@[simp]
theorem filterMap_ofBuffer?_buffer :
    (bufferNotes.map Note.buffer).filterMap Note.ofBuffer? = bufferNotes := by
  simp [List.filterMap_map, Function.comp_def, Note.ofBuffer?]

end Notes

/-- What a thread of a writer does in the channel. -/
abbrev inChannel (phase : Phase (monitor α)) : Phase (Channel.monitor α) :=
  phase.within Position.inChannel? Condition.ofChannel?

/-- What a thread of a writer does in the buffer. -/
abbrev inBuffer (phase : Phase (monitor α)) : Phase (Buffer.monitor α) :=
  phase.within Position.inBuffer? Condition.ofBuffer?

section Embed

variable (w : Writer α) (task : Task) (channelMove : Channel.Step α) (bufferMove : Buffer.Step α)

/-- A thread in a call on the channel stays in it until it returns. -/
theorem inChannel_ofChannel :
    inChannel (Phase.ofOutcome (M := monitor α) (ofChannel w task channelMove).outcome) =
      (Phase.ofOutcome (M := Channel.monitor α) channelMove.outcome).still ∨
    ∃ reply, channelMove.outcome = .reply reply ∧
      (ofChannel w task channelMove).outcome = afterChannel task reply :=
  within_embed (fun _ => rfl) (fun _ => rfl)

theorem inBuffer_ofChannel :
    inBuffer (Phase.ofOutcome (M := monitor α) (ofChannel w task channelMove).outcome) =
      .awake none ∨
    ∃ reply, channelMove.outcome = .reply reply ∧
      (ofChannel w task channelMove).outcome = afterChannel task reply :=
  within_embed_other (W := monitor α) (M := Channel.monitor α) (N := Buffer.monitor α)
    (fun _ => rfl)

/-- A thread in a call on the buffer stays in it until it returns. -/
theorem inBuffer_ofBuffer :
    inBuffer (Phase.ofOutcome (M := monitor α) (ofBuffer w task bufferMove).outcome) =
      (Phase.ofOutcome (M := Buffer.monitor α) bufferMove.outcome).still ∨
    ∃ reply, bufferMove.outcome = .reply reply ∧
      (ofBuffer w task bufferMove).outcome = afterBuffer task reply :=
  within_embed (fun _ => rfl) (fun _ => rfl)

theorem inChannel_ofBuffer :
    inChannel (Phase.ofOutcome (M := monitor α) (ofBuffer w task bufferMove).outcome) =
      .awake none ∨
    ∃ reply, bufferMove.outcome = .reply reply ∧
      (ofBuffer w task bufferMove).outcome = afterBuffer task reply :=
  within_embed_other (W := monitor α) (M := Buffer.monitor α) (N := Channel.monitor α)
    (fun _ => rfl)

end Embed

/-- After a call on the channel a thread is not in another one. -/
theorem inChannel_afterChannel (task : Task) (reply : Channel.Reply α) :
    inChannel (Phase.ofOutcome (M := monitor α) (afterChannel task reply)) = .awake none := by
  unfold afterChannel
  split <;> rfl

/-- After a call on the channel a thread is outside the buffer, or about to add an item to it. -/
theorem inBuffer_afterChannel (task : Task) (reply : Channel.Reply α) (now : Instant) :
    ∃ begun?, (Buffer.monitor α).Begins begun? ∧
      inBuffer (Phase.ofOutcome (M := monitor α) (afterChannel task reply)) = .awake begun? := by
  unfold afterChannel
  split
  · exact ⟨none, .inl rfl, rfl⟩
  · exact ⟨none, .inl rfl, rfl⟩
  · rename_i item
    exact ⟨some (.append item), .inr ⟨.add item, now, rfl⟩, rfl⟩
  · exact ⟨none, .inl rfl, rfl⟩

/-- After a call on the buffer a thread is not in another one. -/
theorem inBuffer_afterBuffer (task : Task) (reply : Buffer.Reply α) :
    inBuffer (Phase.ofOutcome (M := monitor α) (afterBuffer task reply)) = .awake none := by
  unfold afterBuffer
  split <;> rfl

/-- After a call on the buffer a thread is outside the channel, or about to take the next item. -/
theorem inChannel_afterBuffer (task : Task) (reply : Buffer.Reply α) (now : Instant) :
    ∃ begun?, (Channel.monitor α).Begins begun? ∧
      inChannel (Phase.ofOutcome (M := monitor α) (afterBuffer task reply)) = .awake begun? := by
  unfold afterBuffer
  split
  · exact ⟨none, .inl rfl, rfl⟩
  · exact ⟨none, .inl rfl, rfl⟩
  · exact ⟨none, .inl rfl, rfl⟩
  · exact ⟨some (.poll none), .inr ⟨.poll, now, rfl⟩, rfl⟩

/-- A thread falls asleep in a call on the channel, on a condition of the channel, or in a call on
the buffer, on a condition of the buffer. -/
theorem cases_of_sleep {w : Writer α} {now : Instant} {position place : Position α}
    {move : Step α} {condition : Condition} {wakeAt : Deadline} (h : Effect w now position move)
    (hsleep : move.outcome = .sleep condition wakeAt place) :
    (∃ k task p, condition = .channel k ∧ place = .channel task p) ∨
      ∃ k task p, condition = .buffer k ∧ place = .buffer task p := by
  cases h with
  | @channel task p channelMove moves =>
    simp only [Move.embed] at hsleep
    cases houtcome : channelMove.outcome with
    | sleep k _ p' =>
      rw [houtcome] at hsleep
      cases hsleep
      exact .inl ⟨k, task, p', rfl, rfl⟩
    | reply reply =>
      simp only [houtcome, afterChannel] at hsleep
      split at hsleep <;> contradiction
    | proceed | exit => simp [houtcome] at hsleep
  | @buffer task p input bufferMove moves =>
    simp only [Move.embed] at hsleep
    cases houtcome : bufferMove.outcome with
    | sleep k _ p' =>
      rw [houtcome] at hsleep
      cases hsleep
      exact .inr ⟨k, task, p', rfl, rfl⟩
    | reply reply =>
      simp only [houtcome, afterBuffer] at hsleep
      split at hsleep <;> contradiction
    | proceed | exit => simp [houtcome] at hsleep
  | lock | join | release | drained | inspect => contradiction

/-- The channel as a part of the writer. -/
def channelPart (α : Type) : Part (monitor α) (Channel.monitor α) where
  state := Writer.channel
  place? := Position.inChannel?
  condition? := Condition.ofChannel?
  note? := Note.ofChannel?
  apart := by
    rintro (_ | _) (_ | _) k ⟨⟩ ⟨⟩
    rfl
  starts request now := by
    cases request with
    | write item => exact .inr ⟨.push item, now, rfl⟩
    | writeTimeout item timeout => exact .inr ⟨.pushTimeout item timeout, now, rfl⟩
    | close => exact .inr ⟨.close, now, rfl⟩
    | channel request => exact .inr ⟨request, now, rfl⟩
    | buffer | inspect => exact .inl rfl
  sleeps := by
    intro w now position input move condition wakeAt place h hsleep hcondition
    rcases cases_of_sleep (effect_of_moves h) hsleep with ⟨_, _, _, rfl, rfl⟩ | ⟨_, _, _, rfl, rfl⟩
    · rfl
    · contradiction
  inside := by
    intro w now position input move p h hplace
    cases effect_of_moves h with
    | @channel task p' channelMove moves =>
      cases hplace
      have hsignals := filterMap_through_map Condition.channel Condition.ofChannel? (fun _ => rfl)
        channelMove.signals
      refine ⟨(), channelMove, moves, rfl, hsignals, filterMap_ofChannel?_channel _, ?_⟩
      rcases inChannel_ofChannel w task channelMove with hstays | ⟨reply, hreply, hover⟩
      · exact .inl hstays
      · rw [hreply, hover]
        exact .inr ⟨rfl, none, .inl rfl, inChannel_afterChannel task reply⟩
    | _ => contradiction
  outside := by
    intro w now position input move h hplace
    cases effect_of_moves h with
    | channel => contradiction
    | @buffer task p input bufferMove moves =>
      have hsignals := filterMap_through_map_other Condition.buffer Condition.ofChannel?
        (fun _ => rfl) bufferMove.signals
      refine ⟨rfl, hsignals, filterMap_ofChannel?_buffer _, ?_⟩
      rcases inChannel_ofBuffer w task bufferMove with hstays | ⟨reply, _, hover⟩
      · exact ⟨none, .inl rfl, hstays⟩
      · rw [hover]
        exact inChannel_afterBuffer task reply now
    | lock =>
      refine ⟨rfl, rfl, rfl, none, .inl rfl, ?_⟩
      simp only [Move.proceed]
      split <;> rfl
    | join | release | drained | inspect => exact ⟨rfl, rfl, rfl, none, .inl rfl, rfl⟩

/-- The buffer as a part of the writer. -/
def bufferPart (α : Type) : Part (monitor α) (Buffer.monitor α) where
  state := Writer.buffer
  place? := Position.inBuffer?
  condition? := Condition.ofBuffer?
  note? := Note.ofBuffer?
  apart := by
    rintro (_ | _) (_ | _) k ⟨⟩ ⟨⟩
    rfl
  starts request now := by
    cases request with
    | buffer request => exact .inr ⟨request, now, rfl⟩
    | _ => exact .inl rfl
  sleeps := by
    intro w now position input move condition wakeAt place h hsleep hcondition
    rcases cases_of_sleep (effect_of_moves h) hsleep with ⟨_, _, _, rfl, rfl⟩ | ⟨_, _, _, rfl, rfl⟩
    · contradiction
    · rfl
  inside := by
    intro w now position input move p h hplace
    cases effect_of_moves h with
    | @buffer task p' input' bufferMove moves =>
      cases hplace
      have hsignals := filterMap_through_map Condition.buffer Condition.ofBuffer? (fun _ => rfl)
        bufferMove.signals
      refine ⟨input', bufferMove, moves, rfl, hsignals, filterMap_ofBuffer?_buffer _, ?_⟩
      rcases inBuffer_ofBuffer w task bufferMove with hstays | ⟨reply, hreply, hover⟩
      · exact .inl hstays
      · rw [hreply, hover]
        exact .inr ⟨rfl, none, .inl rfl, inBuffer_afterBuffer task reply⟩
    | _ => contradiction
  outside := by
    intro w now position input move h hplace
    cases effect_of_moves h with
    | buffer => contradiction
    | @channel task p channelMove moves =>
      have hsignals := filterMap_through_map_other Condition.channel Condition.ofBuffer?
        (fun _ => rfl) channelMove.signals
      refine ⟨rfl, hsignals, filterMap_ofBuffer?_channel _, ?_⟩
      rcases inBuffer_ofChannel w task channelMove with hstays | ⟨reply, _, hover⟩
      · exact ⟨none, .inl rfl, hstays⟩
      · rw [hover]
        exact inBuffer_afterChannel task reply now
    | lock =>
      refine ⟨rfl, rfl, rfl, ?_⟩
      simp only [Move.proceed]
      split
      · exact ⟨some .stop, .inr ⟨.shutdown, now, rfl⟩, rfl⟩
      · exact ⟨none, .inl rfl, rfl⟩
    | join => exact ⟨rfl, rfl, rfl, some .stop, .inr ⟨.shutdown, now, rfl⟩, rfl⟩
    | release | drained | inspect => exact ⟨rfl, rfl, rfl, none, .inl rfl, rfl⟩

section Reachable

variable {w : Writer α} {now : Instant} {allowed : Event (monitor α) → Prop}
  {l : Layout (monitor α)}

/-- Inside a writer the channel keeps its items in order. -/
theorem conserved (h : (system w now).layout.Reachable allowed l) (hqueue : w.channel.queue = []) :
    Channel.Conserved w.channel.capacity ((channelPart α).layout l) := by
  have hchannel := (channelPart α).reachable h
  exact Channel.Conserved.of_reachable hchannel hqueue rfl

/-- Inside a writer the buffer keeps its ledger. -/
theorem ledger (h : (system w now).layout.Reachable allowed l) (hpending : w.buffer.pending = [])
    (hresting : w.buffer.flushing = false) : Buffer.Ledger ((bufferPart α).layout l) := by
  have hbuffer := (bufferPart α).reachable h
  refine Buffer.Ledger.of_reachable hbuffer hpending hresting ?_ rfl
  intro thread position hplace
  obtain ⟨there, hthere, hposition⟩ := Option.bind_eq_some_iff.1 hplace
  rw [System.place_layout] at hthere
  have hown := placeIn_initial hthere
  simp only [List.mem_cons, List.not_mem_nil, or_false] at hown
  rcases hown with rfl | rfl
  · cases hposition
    rfl
  · contradiction

end Reachable

end Backpressure.Writer
