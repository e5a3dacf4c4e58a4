import Backpressure.Proofs.Writer.Parts

/-!
# Who does what in a writer

The threads of a writer have roles. One of them is the pump, one is the periodic trigger of the
buffer, and a close that holds the lock on the pump is alone in that. Nobody takes a role over but
a close that takes the lock.
-/

namespace Backpressure.Writer

variable {α : Type}

/-- What a thread is to the writer. -/
inductive Role where
  /-- It uses the writer. -/
  | client
  /-- It is the periodic trigger of the buffer. -/
  | ticker
  /-- It moves items from the channel to the buffer. -/
  | pump
  /-- It holds the lock on the pump. -/
  | closer
  deriving DecidableEq, Repr

/-- The role of a thread at this place. -/
def Position.role : Position α → Role
  | .channel .pump _ | .buffer .pump _ | .drained => .pump
  | .buffer .own position => if position.purpose = .tick then .ticker else .client
  | .buffer .close _ | .join | .release _ => .closer
  | .channel .own _ | .channel .close _ | .lock | .inspect => .client

/-- Does the part of a thread's call that it is in suit its task? The purposes are those for which
clients may use the buffer. -/
def Position.Suits (purposes : Buffer.Purpose → Prop) : Position α → Prop
  | .channel .own position => position.isPoll = false
  | .channel .close position => position = .close
  | .channel .pump position => position = .poll none
  | .buffer .own position => position.purpose = .tick ∨ purposes position.purpose
  | .buffer .close position => position.purpose = .shutdown
  | .buffer .pump position => position.purpose = .add
  | .lock | .join | .release _ | .drained | .inspect => True

variable {purposes : Buffer.Purpose → Prop}

/-- Where clients add nothing to the buffer, only the pump does. -/
theorem eq_pump_of_add {task : Task} {p : Buffer.Position α}
    (h : (Position.buffer task p).Suits purposes) (hpurposes : ¬ purposes .add)
    (hadd : p.purpose = .add) : task = .pump := by
  cases task with
  | own =>
    rcases h with htick | hpurpose
    · rw [hadd] at htick
      contradiction
    · exact absurd (hadd ▸ hpurpose) hpurposes
  | close =>
    rw [show p.purpose = .shutdown from h] at hadd
    contradiction
  | pump => rfl

/-- What clients may do with a writer: anything but take items from its channel, or use its buffer
for other purposes than these. -/
def Client (purposes : Buffer.Purpose → Prop) : Event (monitor α) → Prop
  | .call _ (.channel request) => request.isPoll = false
  | .call _ (.buffer request) => purposes request.purpose
  | _ => True

/-- Clients that keep to some purposes keep to wider ones. -/
theorem Client.mono {purposes' : Buffer.Purpose → Prop} {event : Event (monitor α)}
    (h : Client purposes event) (hwider : ∀ purpose, purposes purpose → purposes' purpose) :
    Client purposes' event := by
  cases event with
  | call thread request =>
    cases request with
    | channel request => exact h
    | buffer request => exact hwider _ h
    | write | writeTimeout | close | inspect => trivial
  | elapse | arrive | rouse | step => trivial

theorem suits_start {thread : Nat} {request : Request α}
    (h : Client purposes (.call thread request)) (now : Instant) :
    (start request now).Suits purposes := by
  cases request with
  | write | writeTimeout | close | inspect => trivial
  | channel request => exact (Channel.isPoll_start request now).trans h
  | buffer request =>
    right
    rw [Buffer.purpose_start]
    exact h

@[simp]
theorem role_start (request : Request α) (now : Instant) : (start request now).role = .client := by
  cases request with
  | buffer request => cases request <;> rfl
  | _ => rfl

theorem role_afterChannel {task : Task} {reply : Channel.Reply α} {place : Position α}
    (p : Channel.Position α)
    (h : (Phase.ofOutcome (M := monitor α) (afterChannel task reply)).place? = some place) :
    place.Suits purposes ∧ place.role = (Position.channel task p).role := by
  unfold afterChannel at h
  split at h
  · contradiction
  all_goals
    cases h
    exact ⟨by trivial, rfl⟩

theorem role_afterBuffer {task : Task} {reply : Buffer.Reply α} {place : Position α}
    (p : Buffer.Position α)
    (h : (Phase.ofOutcome (M := monitor α) (afterBuffer task reply)).place? = some place) :
    place.Suits purposes ∧ place.role = (Position.buffer task p).role := by
  unfold afterBuffer at h
  split at h
  · contradiction
  all_goals
    cases h
    exact ⟨by trivial, rfl⟩

/-- A part of a call that goes on keeps its task and its purpose. -/
theorem role_buffer {task : Task} {p p' : Buffer.Position α} (h : p'.purpose = p.purpose)
    (hsuits : (Position.buffer task p).Suits purposes) :
    (Position.buffer task p').Suits purposes ∧
      (Position.buffer task p').role = (Position.buffer task p).role := by
  cases task <;> simp_all [Position.Suits, Position.role]

variable {w : Writer α} {now : Instant} {position place : Position α} {move : Step α}

/-- A thread keeps its role, except that it may take the lock. -/
theorem role_of_effect (h : Effect w now position move) (hsuits : position.Suits purposes)
    (hplace : (Phase.ofOutcome (M := monitor α) move.outcome).place? = some place) :
    place.Suits purposes ∧
      (place.role = position.role ∨ position = .lock ∧ place.role = .closer) := by
  cases h with
  | @channel task p channelMove moves =>
    rcases cases_of_embed (W := monitor α) (M := Channel.monitor α) hplace
      with ⟨p', rfl, hstays⟩ | ⟨reply, _, hafter⟩
    · obtain ⟨rfl, _⟩ := (Channel.effect_of_moves moves).stay hstays
      exact ⟨hsuits, .inl rfl⟩
    · obtain ⟨hsuits', hrole⟩ := role_afterChannel p hafter
      exact ⟨hsuits', .inl hrole⟩
  | @buffer task p input bufferMove moves =>
    rcases cases_of_embed (W := monitor α) (M := Buffer.monitor α) hplace
      with ⟨p', rfl, hstays⟩ | ⟨reply, _, hafter⟩
    · have hpurpose := (Buffer.effect_of_moves moves).purpose hstays
      obtain ⟨hsuits', hrole⟩ := role_buffer hpurpose hsuits
      exact ⟨hsuits', .inl hrole⟩
    · obtain ⟨hsuits', hrole⟩ := role_afterBuffer p hafter
      exact ⟨hsuits', .inl hrole⟩
  | lock free =>
    simp only [Move.proceed] at hplace
    split at hplace
    · cases hplace
      exact ⟨rfl, .inr ⟨rfl, rfl⟩⟩
    · cases hplace
      exact ⟨trivial, .inr ⟨rfl, rfl⟩⟩
  | join ended =>
    cases hplace
    exact ⟨rfl, .inl rfl⟩
  | release | drained | inspect => contradiction

/-- The lock stays taken until the thread that holds it gives it back. -/
theorem locked_of_effect (h : Effect w now position move) (hlocked : w.locked = true) :
    move.state.locked = true ∨ ∃ flush, position = .release flush := by
  cases h with
  | @release flush => exact .inr ⟨flush, rfl⟩
  | lock free =>
    rw [hlocked] at free
    contradiction
  | _ => exact .inl hlocked

/-- Everybody is at his post. -/
structure Posts (purposes : Buffer.Purpose → Prop) (l : Layout (monitor α)) : Prop where
  /-- Every part of a call suits its task. -/
  suits : ∀ {thread position}, l.place thread = some position → position.Suits purposes
  /-- Only one thread is the pump. -/
  pump : ∀ {thread position}, l.place thread = some position → position.role = .pump →
    thread = 1
  /-- Only one thread is the periodic trigger. -/
  ticker : ∀ {thread position}, l.place thread = some position → position.role = .ticker →
    thread = 0
  /-- Only one thread holds the lock. -/
  closer : ∀ {thread thread' position position'}, l.place thread = some position →
    l.place thread' = some position' → position.role = .closer → position'.role = .closer →
    thread = thread'
  /-- While a thread holds the lock, the lock is taken. -/
  locked : ∀ {thread position}, l.place thread = some position → position.role = .closer →
    l.state.locked = true

namespace Posts

variable {l l' : Layout (monitor α)}

/-- One thread at another place leaves everybody at his post, where it keeps its role, has none, or
takes the free lock. -/
theorem update {thread : Nat} {place? : Option (Position α)} {state : Writer α}
    {notes : List (Nat × Note α)} (h : Posts purposes l)
    (hsuits : ∀ p, place? = some p → p.Suits purposes)
    (hrole : ∀ p, place? = some p → p.role = .client ∨
      (∃ q, l.place thread = some q ∧ p.role = q.role) ∨ p.role = .closer ∧ l.state.locked = false)
    (hlocked : ∀ t p, Function.update l.place thread place? t = some p → p.role = .closer →
      state.locked = true) :
    Posts purposes ⟨state, Function.update l.place thread place?, notes⟩ := by
  -- A role that no client has, and that is not got by the lock, was there before.
  have hbefore : ∀ role, role ≠ .client → role ≠ .closer → ∀ t p,
      Function.update l.place thread place? t = some p → p.role = role →
        ∃ q, l.place t = some q ∧ q.role = role := by
    rintro role hclient hcloser t p hplace rfl
    rcases cases_of_update hplace with ⟨rfl, hnew⟩ | ⟨_, hold⟩
    · rcases hrole p hnew with hnone | ⟨q, hq, hsame⟩ | ⟨hlock, _⟩
      · exact absurd hnone hclient
      · exact ⟨q, hq, hsame.symm⟩
      · exact absurd hlock hcloser
    · exact ⟨p, hold, rfl⟩
  -- A thread that gets the lock is alone with it.
  have halone : ∀ p, place? = some p → p.role = .closer → ∀ t q, l.place t = some q →
      q.role = .closer → t = thread := by
    intro p hnew hcloser t q hplace hq
    rcases hrole p hnew with hnone | ⟨there, hthere, hsame⟩ | ⟨_, hfree⟩
    · rw [hcloser] at hnone
      contradiction
    · exact h.closer hplace hthere hq (hsame.symm.trans hcloser)
    · rw [h.locked hplace hq] at hfree
      contradiction
  constructor
  · intro t p hplace
    rcases cases_of_update hplace with ⟨_, hnew⟩ | ⟨_, hold⟩
    · exact hsuits p hnew
    · exact h.suits hold
  · intro t p hplace hpump
    obtain ⟨q, hq, hrole'⟩ := hbefore .pump (by decide) (by decide) t p hplace hpump
    exact h.pump hq hrole'
  · intro t p hplace hticker
    obtain ⟨q, hq, hrole'⟩ := hbefore .ticker (by decide) (by decide) t p hplace hticker
    exact h.ticker hq hrole'
  · intro t t' p p' hplace hplace' hp hp'
    rcases cases_of_update hplace with ⟨ht, hnew⟩ | ⟨_, hold⟩
    · rcases cases_of_update hplace' with ⟨ht', _⟩ | ⟨_, hold'⟩
      · rw [ht, ht']
      · rw [ht, halone p hnew hp t' p' hold' hp']
    · rcases cases_of_update hplace' with ⟨ht', hnew'⟩ | ⟨_, hold'⟩
      · rw [ht', halone p' hnew' hp' t p hold hp]
      · exact h.closer hold hold' hp hp'
  · intro t p hplace hp
    exact hlocked t p hplace hp

/-- Every step leaves everybody at his post. -/
theorem step (h : Posts purposes l) (hstep : l.Step (Client purposes) l') : Posts purposes l' := by
  cases hstep with
  | @call thread request now asked free =>
    have hclient := role_start request now
    refine h.update ?_ ?_ ?_
    · rintro p ⟨⟩
      exact suits_start asked now
    · rintro p ⟨⟩
      exact .inl hclient
    · intro t p hplace hcloser
      rcases cases_of_update hplace with ⟨_, hnew⟩ | ⟨_, hold⟩
      · cases hnew
        rw [hclient] at hcloser
        contradiction
      · exact h.locked hold hcloser
  | @move thread wakee input position now move asked here moves =>
    have heffect := effect_of_moves moves
    have hroles : ∀ p, (Phase.ofOutcome (M := monitor α) move.outcome).place? = some p →
        p.Suits purposes ∧ (p.role = position.role ∨ position = .lock ∧ p.role = .closer) :=
      fun p hplace => role_of_effect heffect (h.suits here) hplace
    refine h.update ?_ ?_ ?_
    · intro p hplace
      exact (hroles p hplace).1
    · intro p hplace
      rcases (hroles p hplace).2 with hsame | ⟨rfl, hcloser⟩
      · exact .inr (.inl ⟨position, here, hsame⟩)
      · cases heffect with
        | lock free => exact .inr (.inr ⟨hcloser, free⟩)
    · intro t p hplace hcloser
      rcases cases_of_update hplace with ⟨_, hnew⟩ | ⟨ht, hold⟩
      · rcases (hroles p hnew).2 with hsame | ⟨rfl, _⟩
        · have hbefore := h.locked here (hsame.symm.trans hcloser)
          rcases locked_of_effect heffect hbefore with hafter | ⟨flush, rfl⟩
          · exact hafter
          · cases heffect
            contradiction
        · cases heffect
          rfl
      · rcases locked_of_effect heffect (h.locked hold hcloser) with hafter | ⟨flush, rfl⟩
        · exact hafter
        · exact absurd (h.closer hold here hcloser rfl) ht

/-- Everybody is at his post in every use of a writer that leaves the polls to the pump. -/
theorem of_reachable {w : Writer α} {now : Instant}
    (h : (system w now).layout.Reachable (Client purposes) l) : Posts purposes l := by
  refine h.invariant ?_ fun hposts hstep => hposts.step hstep
  -- At the beginning the periodic trigger and the pump are there, and nobody else.
  have hplaces : ∀ {thread position}, (system w now).layout.place thread = some position →
      thread = 0 ∧ position = .buffer .own .launch ∨
        thread = 1 ∧ position = .channel .pump (.poll none) := by
    intro thread position hplace
    rw [System.place_layout] at hplace
    match thread, hplace with
    | 0, hplace =>
      cases hplace
      exact .inl ⟨rfl, rfl⟩
    | 1, hplace =>
      cases hplace
      exact .inr ⟨rfl, rfl⟩
  constructor
  · intro thread position hplace
    rcases hplaces hplace with ⟨rfl, rfl⟩ | ⟨rfl, rfl⟩
    · exact .inl rfl
    · rfl
  · intro thread position hplace hrole
    rcases hplaces hplace with ⟨rfl, rfl⟩ | ⟨rfl, rfl⟩
    · contradiction
    · rfl
  · intro thread position hplace hrole
    rcases hplaces hplace with ⟨rfl, rfl⟩ | ⟨rfl, rfl⟩
    · rfl
    · contradiction
  · intro thread thread' position position' hplace hplace' hrole hrole'
    rcases hplaces hplace with ⟨rfl, rfl⟩ | ⟨rfl, rfl⟩ <;> contradiction
  · intro thread position hplace hrole
    rcases hplaces hplace with ⟨rfl, rfl⟩ | ⟨rfl, rfl⟩ <;> contradiction

end Posts

end Backpressure.Writer
