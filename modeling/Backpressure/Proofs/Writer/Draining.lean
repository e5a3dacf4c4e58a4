import Backpressure.Proofs.Writer.Roles

/-!
# The pump leaves nothing behind

The pump takes an item from the channel and adds it to the buffer before it takes the next one, and
nobody else takes or adds any. It ends only where the channel is closed and has no items left.
-/

namespace Backpressure.Writer

variable {α : Type}

/-- The item that a thread at this place carries from the channel to the buffer. -/
def Position.inHand? : Position α → Option α
  | .buffer .pump position => position.offered?
  | _ => none

/-- The item in the pump's hand, if there is one. -/
def hand (place : Nat → Option (Position α)) : List α := ((place 1).bind Position.inHand?).toList

/-- Only the pump has an item in its hand. -/
theorem inHand?_of_role {position : Position α} (h : position.role ≠ .pump) :
    position.inHand? = none := by
  unfold Position.inHand?
  split
  · exact absurd rfl h
  · rfl

theorem hand_update {place : Nat → Option (Position α)} {thread : Nat}
    {place? : Option (Position α)} (hbefore : (place thread).bind Position.inHand? = none)
    (hafter : place?.bind Position.inHand? = none) :
    hand (Function.update place thread place?) = hand place := by
  unfold hand
  by_cases h : 1 = thread
  · subst h
    rw [Function.update_self, hbefore, hafter]
  · rw [Function.update_of_ne h]

/-- Items leave the channel by the pump's hand only, and the pump ends when there are no more. -/
structure Drain (l : Layout (monitor α)) : Prop where
  /-- What was taken from the channel was added to the buffer, or is in the pump's hand. -/
  moved : told Channel.taken? ((channelPart α).layout l).notes =
    told Buffer.added? ((bufferPart α).layout l).notes ++ hand l.place
  /-- A pump that has come to the end has left nothing in the channel. -/
  drained : ∀ {thread}, l.place thread = some .drained →
    l.state.channel.closed = true ∧ l.state.channel.queue = []
  /-- Once the pump has ended, nothing is left in the channel and nobody is the pump. -/
  ended : l.state.pumpEnded = true →
    (l.state.channel.closed = true ∧ l.state.channel.queue = []) ∧
      ∀ {thread position}, l.place thread = some position → position.role ≠ .pump

namespace Drain

variable {purposes : Buffer.Purpose → Prop} {l l' : Layout (monitor α)} {thread : Nat}
  {position : Position α} {now : Instant} {move : Step α}

/-- A move keeps the items together, where it adds to the buffer what was in the pump's hand, or
takes from the channel what is in the pump's hand afterwards. -/
theorem update {place? : Option (Position α)} (h : Drain l) (here : l.place thread = some position)
    (hmoved : hand l.place ++
        (move.notes.filterMap Note.ofChannel?).filterMap Channel.Note.removed? =
      (move.notes.filterMap Note.ofBuffer?).filterMap Buffer.Note.added? ++
        hand (Function.update l.place thread place?))
    (hspent : l.state.channel.closed = true → l.state.channel.queue = [] →
      move.state.channel.closed = true ∧ move.state.channel.queue = [])
    (hended : move.state.pumpEnded = l.state.pumpEnded)
    (hdrained : place? = some .drained →
      move.state.channel.closed = true ∧ move.state.channel.queue = [])
    (hrole : ∀ p, place? = some p → p.role = .pump → position.role = .pump) :
    Drain ⟨move.state, Function.update l.place thread place?, move.record thread ++ l.notes⟩ := by
  refine ⟨?_, ?_, ?_⟩
  · have hchannel := (channelPart α).told_layout Channel.taken? thread move l.place l.notes
      l.state move.state (Function.update l.place thread place?)
    have hbuffer := (bufferPart α).told_layout Buffer.added? thread move l.place l.notes
      l.state move.state (Function.update l.place thread place?)
    have hbefore : told Channel.taken? ((channelPart α).layout l).notes =
        told Buffer.added? ((bufferPart α).layout l).notes ++ hand l.place := h.moved
    refine hchannel.trans ?_
    rw [hbuffer, hbefore, List.append_assoc, List.append_assoc]
    exact congrArg _ hmoved
  · intro t hplace
    rcases cases_of_update hplace with ⟨_, hnew⟩ | ⟨_, hold⟩
    · exact hdrained hnew
    · obtain ⟨hclosed, hqueue⟩ := h.drained hold
      exact hspent hclosed hqueue
  · intro hended'
    obtain ⟨⟨hclosed, hqueue⟩, hnobody⟩ := h.ended (hended.symm.trans hended')
    refine ⟨hspent hclosed hqueue, ?_⟩
    intro t p hplace hpump
    rcases cases_of_update hplace with ⟨_, hnew⟩ | ⟨_, hold⟩
    · exact hnobody here (hrole p hnew hpump)
    · exact hnobody hold hpump

/-- A thread that is not the pump, and stays so, moves nothing. -/
theorem of_other {place? : Option (Position α)} (h : Drain l)
    (here : l.place thread = some position)
    (hother : position.role ≠ .pump) (hstays : ∀ p, place? = some p → p.role ≠ .pump)
    (htaken : (move.notes.filterMap Note.ofChannel?).filterMap Channel.Note.removed? = [])
    (hadded : (move.notes.filterMap Note.ofBuffer?).filterMap Buffer.Note.added? = [])
    (hspent : l.state.channel.closed = true → l.state.channel.queue = [] →
      move.state.channel.closed = true ∧ move.state.channel.queue = [])
    (hended : move.state.pumpEnded = l.state.pumpEnded) :
    Drain ⟨move.state, Function.update l.place thread place?, move.record thread ++ l.notes⟩ := by
  refine h.update here ?_ hspent hended ?_ ?_
  · have hhand : hand (Function.update l.place thread place?) = hand l.place := by
      apply hand_update
      · rw [here]
        exact inHand?_of_role hother
      · cases place? with
        | none => rfl
        | some p => exact inHand?_of_role (hstays p rfl)
    rw [htaken, hadded, hhand, List.append_nil, List.nil_append]
  · intro hplace
    exact absurd rfl (hstays _ hplace)
  · intro p hplace hpump
    exact absurd hpump (hstays p hplace)

/-- The pump takes an item into its hand, comes to the end, or sleeps. -/
theorem poll {channelMove : Channel.Step α} (h : Drain l)
    (here : l.place 1 = some (.channel .pump (.poll none)))
    (moves : (Channel.monitor α).step l.state.channel now (.poll none) () = some channelMove) :
    Drain (l.after 1 (ofChannel l.state .pump channelMove)) := by
  have hspent := (Channel.effect_of_moves moves).spent
  have hempty : hand l.place = [] := by
    rw [hand, here]
    rfl
  rcases Channel.cases_of_poll moves with ⟨item, rest, hqueue, rfl⟩ | ⟨hqueue, hclosed, rfl⟩ | rfl
  · refine h.update here ?_ hspent rfl ?_ ?_
    · rw [hempty, hand, Function.update_self]
      rfl
    · rintro ⟨⟩
    · intro _ _ _
      rfl
  · refine h.update here ?_ hspent rfl ?_ ?_
    · rw [hempty, hand, Function.update_self]
      rfl
    · intro _
      exact ⟨hclosed, hqueue⟩
    · intro _ _ _
      rfl
  · refine h.update here ?_ hspent rfl ?_ ?_
    · rw [hempty, hand, Function.update_self]
      rfl
    · rintro ⟨⟩
    · intro _ _ _
      rfl

/-- A step in a call on the channel. -/
theorem channel {task : Task} {p : Channel.Position α} {channelMove : Channel.Step α}
    (h : Drain l) (hposts : Posts purposes l) (here : l.place thread = some (.channel task p))
    (moves : (Channel.monitor α).step l.state.channel now p () = some channelMove) :
    Drain (l.after thread (ofChannel l.state task channelMove)) := by
  have heffect := Channel.effect_of_moves moves
  have hsuits := hposts.suits here
  by_cases hpump : (Position.channel task p).role = .pump
  · cases task with
    | pump =>
      obtain rfl := hposts.pump here rfl
      cases hsuits
      exact h.poll here moves
    | own | close => contradiction
  · have hpoll : p.isPoll = false := by
      cases task with
      | own => exact hsuits
      | close =>
        cases hsuits
        rfl
      | pump => exact absurd rfl hpump
    refine h.of_other here hpump ?_ ?_ ?_ heffect.spent rfl
    · intro place hplace
      rcases (role_of_effect (.channel moves) hsuits hplace).2 with hsame | ⟨hlock, _⟩
      · rw [hsame]
        exact hpump
      · contradiction
    · simp only [Move.embed, filterMap_ofChannel?_channel]
      exact heffect.removes_nothing hpoll
    · simp only [Move.embed, filterMap_ofBuffer?_channel, List.filterMap_nil]

/-- What a step in a call on the buffer takes from the channel and adds to the buffer. -/
theorem moved_of_buffer (task : Task) {p : Buffer.Position α} {input : Buffer.Input}
    {bufferMove : Buffer.Step α}
    (moves : (Buffer.monitor α).step l.state.buffer now p input = some bufferMove) :
    ((ofBuffer l.state task bufferMove).notes.filterMap
        Note.ofChannel?).filterMap Channel.Note.removed? = [] ∧
      ((ofBuffer l.state task bufferMove).notes.filterMap
        Note.ofBuffer?).filterMap Buffer.Note.added? = p.offered?.toList := by
  constructor
  · simp only [Move.embed, filterMap_ofChannel?_buffer, List.filterMap_nil]
  · simp only [Move.embed, filterMap_ofBuffer?_buffer]
    exact (Buffer.effect_of_moves moves).adds.1

/-- The pump adds the item in its hand to the buffer, and goes on with an empty hand. -/
theorem append {p : Buffer.Position α} {input : Buffer.Input} {bufferMove : Buffer.Step α}
    (h : Drain l) (here : l.place 1 = some (.buffer .pump p))
    (moves : (Buffer.monitor α).step l.state.buffer now p input = some bufferMove) :
    Drain (l.after 1 (ofBuffer l.state .pump bufferMove)) := by
  obtain ⟨htaken, hadded⟩ := moved_of_buffer .pump moves
  have hafter : ∀ place, (Phase.ofOutcome (M := monitor α)
      (ofBuffer l.state .pump bufferMove).outcome).place? = some place →
        place.inHand? = none ∧ place ≠ .drained := by
    intro place hplace
    rcases cases_of_embed (W := monitor α) (M := Buffer.monitor α) hplace
      with ⟨p', rfl, hstays⟩ | ⟨reply, _, hover⟩
    · refine ⟨(Buffer.effect_of_moves moves).adds.2 p' hstays, ?_⟩
      rintro ⟨⟩
    · cases hover
      refine ⟨rfl, ?_⟩
      rintro ⟨⟩
  refine h.update here ?_ (fun hclosed hqueue => ⟨hclosed, hqueue⟩) rfl ?_ ?_
  · have hbefore : hand l.place = p.offered?.toList := by
      rw [hand, here]
      rfl
    have hempty : hand (Function.update l.place 1 (Phase.ofOutcome (M := monitor α)
        (ofBuffer l.state .pump bufferMove).outcome).place?) = [] := by
      rw [hand, Function.update_self]
      cases hplace : (Phase.ofOutcome (M := monitor α)
          (ofBuffer l.state .pump bufferMove).outcome).place? with
      | none => rfl
      | some place => simp [(hafter place hplace).1]
    rw [htaken, hadded, hbefore, hempty]
  · intro hplace
    exact absurd rfl (hafter _ hplace).2
  · intro _ _ _
    rfl

/-- A step in a call on the buffer. -/
theorem buffer {task : Task} {p : Buffer.Position α} {input : Buffer.Input}
    {bufferMove : Buffer.Step α} (h : Drain l) (hposts : Posts purposes l)
    (hpurposes : ¬ purposes .add) (here : l.place thread = some (.buffer task p))
    (moves : (Buffer.monitor α).step l.state.buffer now p input = some bufferMove) :
    Drain (l.after thread (ofBuffer l.state task bufferMove)) := by
  have hsuits := hposts.suits here
  by_cases hpump : (Position.buffer task p).role = .pump
  · cases task with
    | pump =>
      obtain rfl := hposts.pump here rfl
      exact h.append here moves
    | own =>
      simp only [Position.role] at hpump
      split at hpump <;> contradiction
    | close => contradiction
  · have hpurpose : p.purpose ≠ .add := by
      intro hadd
      obtain rfl := eq_pump_of_add hsuits hpurposes hadd
      exact hpump rfl
    obtain ⟨htaken, hadded⟩ := moved_of_buffer task moves
    refine h.of_other here hpump ?_ htaken ?_ (fun hclosed hqueue => ⟨hclosed, hqueue⟩) rfl
    · intro place hplace
      rcases (role_of_effect (.buffer moves) hsuits hplace).2 with hsame | ⟨hlock, _⟩
      · rw [hsame]
        exact hpump
      · contradiction
    · rw [hadded, Buffer.offered?_of_purpose hpurpose]
      rfl

/-- The pump ends, and leaves nothing behind. -/
theorem finish (h : Drain l) (hposts : Posts purposes l)
    (here : l.place thread = some .drained) :
    Drain (l.after thread { state := { l.state with pumpEnded := true }, outcome := .exit,
                            signals := [], notes := [.drained] }) := by
  obtain ⟨hclosed, hqueue⟩ := h.drained here
  obtain rfl := hposts.pump here rfl
  refine ⟨?_, ?_, ?_⟩
  · have hhand : hand (Function.update l.place 1 none) = hand l.place := by
      apply hand_update
      · rw [here]
        rfl
      · rfl
    have hmoved := h.moved
    rw [← hhand] at hmoved
    exact hmoved
  · intro t hplace
    rcases cases_of_update hplace with ⟨_, hnew⟩ | ⟨_, hold⟩
    · contradiction
    · exact h.drained hold
  · intro _
    refine ⟨⟨hclosed, hqueue⟩, ?_⟩
    intro t p hplace hpump
    rcases cases_of_update hplace with ⟨_, hnew⟩ | ⟨ht, hold⟩
    · contradiction
    · exact ht (hposts.pump hold hpump)

/-- Every step keeps the items together. -/
theorem step (h : Drain l) (hposts : Posts purposes l) (hpurposes : ¬ purposes .add)
    (hstep : l.Step (Client purposes) l') : Drain l' := by
  cases hstep with
  | @call thread request now asked free =>
    have hclient : (start request now).role ≠ .pump := by
      rw [role_start]
      decide
    refine ⟨?_, ?_, ?_⟩
    · have hhand : hand (Function.update l.place thread (some (start request now))) =
          hand l.place := by
        apply hand_update
        · rw [free]
          rfl
        · exact inHand?_of_role hclient
      rw [hhand]
      exact h.moved
    · intro t hplace
      rcases cases_of_update hplace with ⟨_, hnew⟩ | ⟨_, hold⟩
      · have hstart : start request now = .drained := Option.some.inj hnew
        rw [hstart] at hclient
        exact absurd rfl hclient
      · exact h.drained hold
    · intro hended
      obtain ⟨hspent, hnobody⟩ := h.ended hended
      refine ⟨hspent, ?_⟩
      intro t p hplace
      rcases cases_of_update hplace with ⟨_, hnew⟩ | ⟨_, hold⟩
      · cases hnew
        exact hclient
      · exact hnobody hold
  | @move thread wakee input position now move asked here moves =>
    have heffect := effect_of_moves moves
    have hroles : ∀ p, (Phase.ofOutcome (M := monitor α) move.outcome).place? = some p →
        p.role = position.role ∨ position = .lock ∧ p.role = .closer :=
      fun p hplace => (role_of_effect heffect (hposts.suits here) hplace).2
    cases heffect with
    | channel channelMoves => exact h.channel hposts here channelMoves
    | buffer bufferMoves => exact h.buffer hposts hpurposes here bufferMoves
    | drained => exact h.finish hposts here
    | lock free =>
      refine h.of_other here nofun ?_ rfl rfl (fun hclosed hqueue => ⟨hclosed, hqueue⟩) rfl
      intro p hplace
      rcases hroles p hplace with hsame | ⟨_, hcloser⟩
      · rw [hsame]
        nofun
      · rw [hcloser]
        nofun
    | join ended =>
      refine h.of_other here nofun ?_ rfl rfl (fun hclosed hqueue => ⟨hclosed, hqueue⟩) rfl
      rintro p ⟨⟩
      nofun
    | release | inspect =>
      exact h.of_other here nofun nofun rfl rfl (fun hclosed hqueue => ⟨hclosed, hqueue⟩) rfl

/-- The items are together in every use of a new writer in which nobody but the pump polls the
channel or adds to the buffer. -/
theorem of_reachable {w : Writer α} {now : Instant} (hended : w.pumpEnded = false)
    (hpurposes : ¬ purposes .add) (h : (system w now).layout.Reachable (Client purposes) l) :
    Drain l := by
  induction h with
  | start =>
    refine ⟨rfl, ?_, ?_⟩
    · intro thread hplace
      rw [System.place_layout] at hplace
      have hbackground := placeIn_initial hplace
      simp at hbackground
    · intro hended'
      rw [show (system w now).layout.state.pumpEnded = w.pumpEnded from rfl, hended] at hended'
      contradiction
  | step hreachable hstep ih =>
    exact ih.step (Posts.of_reachable hreachable) hpurposes hstep

end Drain

end Backpressure.Writer
