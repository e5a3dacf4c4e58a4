import Backpressure.Proofs.Buffer.Calls
import Backpressure.Proofs.Buffer.Waking
import Backpressure.Proofs.Writer.Calls

/-!
# No post is left early

A thread with a role leaves it only once what the role is for is over: the pump once it has noted
its end, the periodic trigger once it is told to stop, a close once it has given the lock back. And
what comes after the close of the channel does come after it: the wait for the pump, the lock, and
the end of the pump.
-/

namespace Backpressure.Writer

variable {α : Type} {purposes : Buffer.Purpose → Prop} {w : Writer α} {now : Instant}
  {position place : Position α} {move : Step α}

/-! ### Roles -/

/-- Is what a role is for over? -/
def Role.Over (w : Writer α) : Role → Prop
  | .client => True
  | .ticker => w.buffer.ticker = .ended ∨ w.buffer.ticker = .stopped
  | .pump => w.pumpEnded = true
  | .closer => w.locked = false

/-- A step in a call on the channel ends no thread. -/
theorem ne_exit_of_channel {c : Channel α} {p : Channel.Position α} {channelMove : Channel.Step α}
    (moves : (Channel.monitor α).step c now p () = some channelMove) :
    channelMove.outcome ≠ .exit := by
  cases Channel.effect_of_moves moves <;> nofun

/-- A thread leaves its role only once what the role is for is over. -/
theorem over_of_effect (h : Effect w now position move) (hsuits : position.Suits purposes)
    (hgone : (Phase.ofOutcome (M := monitor α) move.outcome).place? = none) :
    position.role.Over move.state := by
  cases h with
  | @channel task p channelMove moves =>
    cases task with
    | own | close => trivial
    | pump =>
      simp only [Move.embed] at hgone
      cases houtcome : channelMove.outcome with
      | proceed | sleep =>
        rw [houtcome] at hgone
        contradiction
      | reply reply =>
        simp only [houtcome, afterChannel] at hgone
        split at hgone <;> contradiction
      | exit => exact absurd houtcome (ne_exit_of_channel moves)
  | @buffer task p input bufferMove moves =>
    have hleads := Buffer.leads_of_moves moves
    simp only [Move.embed] at hgone ⊢
    cases houtcome : bufferMove.outcome with
    | proceed | sleep =>
      rw [houtcome] at hgone
      contradiction
    | reply reply =>
      rw [houtcome] at hgone
      cases task with
      | own =>
        have hallows := Buffer.allows_of_moves moves houtcome
        simp only [Position.role]
        split
        · rename_i htick
          rw [htick] at hallows
          exact absurd hallows id
        · trivial
      | close =>
        simp only [afterBuffer] at hgone
        split at hgone <;> contradiction
      | pump => contradiction
    | exit =>
      rw [houtcome] at hleads
      cases hleads with
      | exit select ended =>
        subst select
        cases task with
        | own => exact .inl ended
        | close | pump => contradiction
  | lock | inspect => trivial
  | join => contradiction
  | release | drained => rfl

/-- What a role is for stays over, except that a close takes the lock. -/
theorem over_mono (h : Effect w now position move) {role : Role} (hover : role.Over w) :
    role.Over move.state ∨ role = .closer ∧
      ∃ place, (Phase.ofOutcome (M := monitor α) move.outcome).place? = some place ∧
        place.role = .closer := by
  cases role with
  | client => exact .inl trivial
  | ticker =>
    left
    cases h with
    | @buffer task p input bufferMove moves =>
      rcases Buffer.ticker_of_moves moves with hsame | ⟨_, hrunning, _⟩ | ⟨_, _, hstopped⟩ |
        ⟨_, _, hended, _⟩
      · exact hover.imp hsame.trans hsame.trans
      · rcases hover with hold | hold <;> rw [hrunning] at hold <;> contradiction
      · exact .inr hstopped
      · exact .inl hended
    | _ => exact hover
  | pump =>
    left
    cases h with
    | drained => rfl
    | _ => exact hover
  | closer =>
    cases h with
    | lock free =>
      refine .inr ⟨rfl, ?_⟩
      simp only [Move.proceed]
      split
      · exact ⟨_, rfl, rfl⟩
      · exact ⟨_, rfl, rfl⟩
    | release => exact .inl rfl
    | _ => exact .inl hover

/-- Every role has a thread until what it is for is over. -/
def Manned (l : Layout (monitor α)) : Prop :=
  ∀ role : Role, ¬ role.Over l.state →
    ∃ thread position, l.place thread = some position ∧ position.role = role

namespace Manned

variable {l l' : Layout (monitor α)}

/-- Every step leaves the roles manned. -/
theorem step (h : Manned l) (hposts : Posts purposes l) (hstep : l.Step (Client purposes) l') :
    Manned l' := by
  intro role hlasts
  cases hstep with
  | @call thread request now asked free =>
    obtain ⟨t, p, hplace, hrole⟩ := h role hlasts
    have hne : t ≠ thread := by
      rintro rfl
      rw [free] at hplace
      contradiction
    exact ⟨t, p, (Function.update_of_ne hne _ _).trans hplace, hrole⟩
  | @move thread wakee input position now move asked here moves =>
    have heffect := effect_of_moves moves
    by_cases hover : role.Over l.state
    · rcases over_mono heffect hover with hstays | ⟨rfl, place, hplace, hrole⟩
      · exact absurd hstays hlasts
      · exact ⟨thread, place, (Function.update_self _ _ _).trans hplace, hrole⟩
    · obtain ⟨t, p, hplace, rfl⟩ := h role hover
      by_cases ht : t = thread
      · subst ht
        obtain rfl : position = p := Option.some.inj (here.symm.trans hplace)
        have hsuits := hposts.suits here
        cases hgoes : (Phase.ofOutcome (M := monitor α) move.outcome).place? with
        | none => exact absurd (over_of_effect heffect hsuits hgoes) hlasts
        | some place =>
          refine ⟨t, place, (Function.update_self _ _ _).trans hgoes, ?_⟩
          rcases (role_of_effect heffect hsuits hgoes).2 with hsame | ⟨rfl, _⟩
          · exact hsame
          · exact absurd trivial hover
      · exact ⟨t, p, (Function.update_of_ne ht _ _).trans hplace, rfl⟩

/-- The roles are manned in every use of a new writer. -/
theorem of_reachable (hlocked : w.locked = false)
    (h : (system w now).layout.Reachable (Client purposes) l) : Manned l := by
  induction h with
  | start =>
    intro role hlasts
    cases role with
    | client => exact absurd trivial hlasts
    | ticker => exact ⟨0, .buffer .own .launch, rfl, rfl⟩
    | pump => exact ⟨1, .channel .pump (.poll none), rfl, rfl⟩
    | closer => exact absurd hlocked hlasts
  | step hreachable hstep ih => exact ih.step (Posts.of_reachable hreachable) hstep

end Manned

/-! ### After the close of the channel -/

/-- Does a thread come to this place only once the channel is closed? -/
def Position.afterClose : Position α → Bool
  | .lock | .join | .release _ | .drained | .buffer .close _ => true
  | _ => false

/-- The channel is closed before a thread comes to a place after its close. -/
theorem closed_of_afterClose (h : Effect w now position move) (hsuits : position.Suits purposes)
    (hbefore : position.afterClose = true → w.channel.closed = true)
    (hplace : (Phase.ofOutcome (M := monitor α) move.outcome).place? = some place)
    (hafter : place.afterClose = true) : move.state.channel.closed = true := by
  cases h with
  | @channel task p channelMove moves =>
    cases task with
    | own =>
      rcases cases_of_embed (W := monitor α) (M := Channel.monitor α) hplace
        with ⟨p', rfl, _⟩ | ⟨reply, _, hover⟩
      · contradiction
      · contradiction
    | close =>
      obtain rfl : p = .close := hsuits
      cases moves
      simp only [Move.embed, Channel.step, Channel.stepClose]
      split
      · assumption
      · rfl
    | pump =>
      obtain rfl : p = .poll none := hsuits
      rcases Channel.cases_of_poll moves with ⟨item, rest, _, rfl⟩ | ⟨_, hclosed, rfl⟩ | rfl
      · cases hplace
        contradiction
      · exact hclosed
      · cases hplace
        contradiction
  | @buffer task p input bufferMove moves =>
    cases task with
    | close => exact hbefore rfl
    | own | pump =>
      rcases cases_of_embed (W := monitor α) (M := Buffer.monitor α) hplace
        with ⟨p', rfl, _⟩ | ⟨reply, _, hover⟩
      · contradiction
      · cases hover <;> contradiction
  | lock | join | release | drained => exact hbefore rfl
  | inspect => contradiction

/-- What comes after the close of the channel comes after it. -/
structure Ordered (l : Layout (monitor α)) : Prop where
  /-- Nobody is further than the close of the channel while it is open. -/
  closed : ∀ {thread position}, l.place thread = some position → position.afterClose = true →
    l.state.channel.closed = true
  /-- The pump ends after the channel is closed. -/
  ended : l.state.pumpEnded = true → l.state.channel.closed = true

namespace Ordered

variable {l l' : Layout (monitor α)}

/-- Every step keeps the order. -/
theorem step (h : Ordered l) (hposts : Posts purposes l) (hstep : l.Step (Client purposes) l') :
    Ordered l' := by
  cases hstep with
  | @call thread request now asked free =>
    refine ⟨?_, h.ended⟩
    intro t p hplace hafter
    rcases cases_of_update hplace with ⟨_, hnew⟩ | ⟨_, hold⟩
    · cases hnew
      cases request <;> contradiction
    · exact h.closed hold hafter
  | @move thread wakee input position now move asked here moves =>
    have heffect := effect_of_moves moves
    have hstays : l.state.channel.closed = true → move.state.channel.closed = true :=
      fun hclosed => (closed_of_effect heffect hclosed).1
    constructor
    · intro t p hplace hafter
      rcases cases_of_update hplace with ⟨_, hnew⟩ | ⟨_, hold⟩
      · exact closed_of_afterClose heffect (hposts.suits here) (h.closed here) hnew hafter
      · exact hstays (h.closed hold hafter)
    · intro hended
      cases heffect with
      | drained => exact h.closed here rfl
      | _ => exact hstays (h.ended hended)

/-- The order is kept in every use of a new writer. -/
theorem of_reachable (hpump : w.pumpEnded = false)
    (h : (system w now).layout.Reachable (Client purposes) l) : Ordered l := by
  induction h with
  | start =>
    constructor
    · intro thread position hplace hafter
      rw [System.place_layout] at hplace
      have hown := placeIn_initial hplace
      simp only [List.mem_cons, List.not_mem_nil, or_false] at hown
      rcases hown with rfl | rfl <;> contradiction
    · intro hended
      have hnever : (system w now).layout.state.pumpEnded = false := hpump
      rw [hended] at hnever
      contradiction
  | step hreachable hstep ih => exact ih.step (Posts.of_reachable hreachable) hstep

end Ordered

end Backpressure.Writer
