import Backpressure.Proofs.Buffer.Shutdown
import Backpressure.Proofs.Writer.Draining

/-!
# Closing a writer

A close holds the lock on the pump from the moment it may wait for the pump until it returns. By
then the pump and the periodic trigger are over and nobody else flushes, so that its shutdown of the
buffer is undisturbed, and leaves nothing to be done for a later one.
-/

namespace Backpressure.Writer

variable {α : Type} {w w' : Writer α} {now : Instant} {position place : Position α} {move : Step α}

/-- How things stand for a thread at this place of a close that holds the lock. -/
def Standing (w : Writer α) : Position α → Prop
  | .buffer .close position => w.pumpEnded = true ∧ Buffer.Undisturbed w.buffer position
  | .release flush => w.pumpEnded = true ∧ Buffer.Settled w.buffer ∧ flush ≠ .joined
  | _ => True

theorem standing_of_role (h : position.role ≠ .closer) : Standing w position := by
  unfold Standing
  split
  · exact absurd rfl h
  · exact absurd rfl h
  · trivial

/-- What is over stays over, and a buffer that is at rest for a close stays as it is. -/
theorem Standing.mono (h : Standing w position)
    (hended : w.pumpEnded = true → w'.pumpEnded = true)
    (hbuffer : w.pumpEnded = true → w.buffer.ticker = .stopped → w'.buffer = w.buffer) :
    Standing w' position := by
  match position, h with
  | .buffer .close p, ⟨hpump, hundisturbed⟩ =>
    refine ⟨hended hpump, ?_⟩
    cases p with
    | enter errand =>
      rw [hbuffer hpump hundisturbed]
      exact hundisturbed
    | call | deliver | record =>
      rw [hbuffer hpump hundisturbed.1]
      exact hundisturbed
    | join => exact hundisturbed
    | append | recheck | stop | await | launch | select | inspect => trivial
  | .release flush, ⟨hpump, hsettled, hflush⟩ =>
    rw [Standing, hbuffer hpump hsettled.ticker]
    exact ⟨hended hpump, hsettled, hflush⟩
  | .buffer .own _, _ | .buffer .pump _, _ | .channel _ _, _ | .lock, _ | .join, _
  | .drained, _ | .inspect, _ => trivial

/-! ### What a step leaves alone -/

theorem pumpEnded_of_effect (h : Effect w now position move) (hended : w.pumpEnded = true) :
    move.state.pumpEnded = true := by
  cases h with
  | drained => rfl
  | _ => exact hended

theorem claimed_of_effect (h : Effect w now position move) (hclaimed : w.claimed = true) :
    move.state.claimed = true := by
  cases h with
  | lock => rfl
  | _ => exact hclaimed

/-- The lock and the claim on the pump change only as a close takes the lock or gives it back. -/
theorem flags_of_effect (h : Effect w now position move) :
    position = .lock ∨ (∃ flush, position = .release flush) ∨
      move.state.locked = w.locked ∧ move.state.claimed = w.claimed := by
  cases h with
  | lock => exact .inl rfl
  | @release flush => exact .inr (.inl ⟨flush, rfl⟩)
  | _ => exact .inr (.inr ⟨rfl, rfl⟩)

/-- Clients that only look at the buffer leave it alone. -/
theorem buffer_of_client (h : Effect w now position move) (hsuits : position.Suits (· = .inspect))
    (hclient : position.role = .client) : move.state.buffer = w.buffer := by
  cases h with
  | @buffer task p input bufferMove moves =>
    cases task with
    | own =>
      have htick : p.purpose ≠ .tick := by
        intro htick
        simp [Position.role, htick] at hclient
      obtain rfl := Buffer.eq_inspect_of_purpose (hsuits.resolve_left htick)
      cases moves
      rfl
    | close | pump => contradiction
  | release | join | drained => contradiction
  | channel | lock | inspect => rfl

/-- The periodic trigger was over before, or the step is its last one. -/
theorem silence_of_effect {purposes : Buffer.Purpose → Prop} (h : Effect w now position move)
    (hsuits : position.Suits purposes)
    (hafter : move.state.buffer.ticker = .ended ∨ move.state.buffer.ticker = .stopped) :
    (w.buffer.ticker = .ended ∨ w.buffer.ticker = .stopped) ∨
      position.role = .ticker ∧ (Phase.ofOutcome (M := monitor α) move.outcome).place? = none := by
  cases h with
  | @buffer task p input bufferMove moves =>
    change bufferMove.state.ticker = .ended ∨ bufferMove.state.ticker = .stopped at hafter
    rcases Buffer.ticker_of_moves moves with hsame | ⟨_, _, hstopping⟩ | ⟨_, hended, _⟩ |
      ⟨rfl, _, _, hexit⟩
    · rw [hsame] at hafter
      exact .inl hafter
    · rw [hstopping] at hafter
      rcases hafter with hended | hstopped <;> contradiction
    · exact .inl (.inl hended)
    · right
      refine ⟨?_, ?_⟩
      · cases task with
        | own => rfl
        | close | pump => contradiction
      · simp only [Move.embed, hexit]
        rfl
  | _ => exact .inl hafter

/-- A step of a close that holds the lock, or takes it, leads on with the close. -/
theorem standing_of_effect {purposes : Buffer.Purpose → Prop} (h : Effect w now position move)
    (hsuits : position.Suits purposes) (hstanding : Standing w position)
    (hresting : ∀ errand, position = .buffer .close (.enter errand) → w.buffer.flushing = false)
    (hclaimed : w.claimed = true → w.locked = false → w.pumpEnded = true)
    (hplace : (Phase.ofOutcome (M := monitor α) move.outcome).place? = some place) :
    Standing move.state place := by
  have hrole := (role_of_effect h hsuits hplace).2
  cases h with
  | @channel task p channelMove moves =>
    apply standing_of_role
    rcases hrole with hsame | ⟨hlock, _⟩
    · rw [hsame]
      cases task <;> nofun
    · contradiction
  | @buffer task p input bufferMove moves =>
    by_cases htask : task = .close
    · subst htask
      obtain ⟨hended, hundisturbed⟩ := hstanding
      obtain ⟨hstays, hreturns⟩ := Buffer.undisturbed_of_moves hundisturbed hsuits
        (fun errand herrand => hresting errand (herrand ▸ rfl)) moves
      rcases cases_of_embed (W := monitor α) (M := Buffer.monitor α) hplace
        with ⟨p', rfl, hp'⟩ | ⟨reply, hreply, hover⟩
      · exact ⟨hended, hstays p' hp'⟩
      · obtain ⟨hsettled, flush, rfl, hflush⟩ := hreturns reply hreply
        cases hover
        exact ⟨hended, hsettled, hflush⟩
    · apply standing_of_role
      rcases hrole with hsame | ⟨hlock, _⟩
      · rw [hsame]
        cases task with
        | own =>
          simp only [Position.role]
          split <;> rintro ⟨⟩
        | pump => rintro ⟨⟩
        | close => exact absurd rfl htask
      · contradiction
  | lock free =>
    simp only [Move.proceed] at hplace
    split at hplace
    · rename_i hclaim
      cases hplace
      exact ⟨hclaimed hclaim free, trivial⟩
    · cases hplace
      trivial
  | join ended =>
    cases hplace
    exact ⟨ended, trivial⟩
  | release | drained | inspect => contradiction

/-! ### The state of the close -/

/-- How far the closing of the writer has come. -/
structure Closing (l : Layout (monitor α)) : Prop where
  /-- Once the periodic trigger is over, nobody is it. -/
  silent : l.state.buffer.ticker = .ended ∨ l.state.buffer.ticker = .stopped →
    ∀ {thread position}, l.place thread = some position → position.role ≠ .ticker
  /-- Things stand for every close as they should. -/
  standing : ∀ {thread position}, l.place thread = some position → Standing l.state position
  /-- Once a close that had the lock has given it back, nothing is left to be done. -/
  settled : l.state.claimed = true → l.state.locked = false →
    l.state.pumpEnded = true ∧ Buffer.Settled l.state.buffer
  /-- Until the pump is claimed, no close has had the lock. -/
  unclaimed : l.state.claimed = false →
    ∀ {thread position}, l.place thread = some position → position.role ≠ .closer

/-- What is known of every use of a writer whose clients only look at the buffer. -/
structure Known (l : Layout (monitor α)) : Prop where
  posts : Posts (· = .inspect) l
  drain : Drain l
  ledger : Buffer.Ledger ((bufferPart α).layout l)
  closing : Closing l

namespace Known

variable {l l' : Layout (monitor α)} {thread : Nat}

/-- While a close is at the buffer and the periodic trigger is over, nobody else uses the buffer. -/
theorem buffer_of_other (h : Known l) (here : l.place thread = some position)
    (heffect : Effect l.state now position move) (hother : position.role ≠ .closer)
    (hended : l.state.pumpEnded = true) (hticker : l.state.buffer.ticker = .stopped) :
    move.state.buffer = l.state.buffer := by
  apply buffer_of_client heffect (h.posts.suits here)
  cases hrole : position.role with
  | client => rfl
  | ticker => exact absurd hrole (h.closing.silent (.inr hticker) here)
  | pump => exact absurd hrole ((h.drain.ended hended).2 here)
  | closer => exact absurd hrole hother

/-- A close that is about to flush finds no batch on its way. -/
theorem resting_of_enter (h : Known l) {errand : Buffer.Errand}
    (here : l.place thread = some (.buffer .close (.enter errand))) :
    l.state.buffer.flushing = false := by
  obtain ⟨hended, hticker⟩ := h.closing.standing here
  cases h.ledger.flight with
  | resting resting => exact resting
  | @busy carrier p batch flushing there alone carried underway =>
    exfalso
    have hcarries := underway.carries
    obtain ⟨position, hposition, hinside⟩ := Option.bind_eq_some_iff.1 there
    cases position with
    | buffer task p' =>
      cases hinside
      cases task with
      | pump => exact (h.drain.ended hended).2 hposition rfl
      | close =>
        obtain rfl := h.posts.closer hposition here rfl rfl
        rw [here] at hposition
        cases hposition
        contradiction
      | own =>
        rcases h.posts.suits hposition with htick | hinspect
        · exact h.closing.silent (.inr hticker) hposition (if_pos htick)
        · obtain rfl := Buffer.eq_inspect_of_purpose hinspect
          contradiction
    | _ => contradiction

/-- Another thread's move leaves a close as it stands. -/
theorem standing_of_other (h : Known l) (here : l.place thread = some position)
    (heffect : Effect l.state now position move) {t : Nat} (ht : t ≠ thread)
    (hplace : l.place t = some place) : Standing move.state place := by
  by_cases hcloser : place.role = .closer
  · refine (h.closing.standing hplace).mono (pumpEnded_of_effect heffect) ?_
    intro hended hticker
    refine h.buffer_of_other here heffect ?_ hended hticker
    intro hrole
    exact ht (h.posts.closer hplace here hcloser hrole)
  · exact standing_of_role hcloser

/-- A move with the lock free leaves a settled writer settled. -/
theorem settled_of_unlocked (h : Known l) (here : l.place thread = some position)
    (heffect : Effect l.state now position move) (hfree : l.state.locked = false)
    (hclaimed : l.state.claimed = true) :
    move.state.pumpEnded = true ∧ Buffer.Settled move.state.buffer := by
  obtain ⟨hended, hsettled⟩ := h.closing.settled hclaimed hfree
  have hother : position.role ≠ .closer := by
    intro hcloser
    have hlocked := h.posts.locked here hcloser
    rw [hfree] at hlocked
    contradiction
  rw [h.buffer_of_other here heffect hother hended hsettled.ticker]
  exact ⟨pumpEnded_of_effect heffect hended, hsettled⟩

/-- Every move keeps the state of the close. -/
theorem closing_move (h : Known l) {input : Buffer.Input} (here : l.place thread = some position)
    (moves : (monitor α).step l.state now position input = some move) :
    Closing (l.after thread move) := by
  have heffect := effect_of_moves moves
  have hroles : ∀ p, (Phase.ofOutcome (M := monitor α) move.outcome).place? = some p →
      p.role = position.role ∨ position = .lock ∧ p.role = .closer :=
    fun p hplace => (role_of_effect heffect (h.posts.suits here) hplace).2
  refine ⟨?_, ?_, ?_, ?_⟩
  · intro hafter t p hplace hticker
    rcases silence_of_effect heffect (h.posts.suits here) hafter with hbefore | ⟨hrole, hends⟩
    · rcases cases_of_update hplace with ⟨_, hnew⟩ | ⟨_, hold⟩
      · rcases hroles p hnew with hsame | ⟨_, hcloser⟩
        · exact h.closing.silent hbefore here (hsame ▸ hticker)
        · rw [hcloser] at hticker
          contradiction
      · exact h.closing.silent hbefore hold hticker
    · rcases cases_of_update hplace with ⟨_, hnew⟩ | ⟨ht, hold⟩
      · rw [hends] at hnew
        contradiction
      · obtain rfl := h.posts.ticker here hrole
        exact ht (h.posts.ticker hold hticker)
  · intro t p hplace
    rcases cases_of_update hplace with ⟨_, hnew⟩ | ⟨ht, hold⟩
    · refine standing_of_effect heffect (h.posts.suits here) (h.closing.standing here) ?_ ?_ hnew
      · rintro errand rfl
        exact h.resting_of_enter here
      · exact fun hclaimed hfree => (h.closing.settled hclaimed hfree).1
    · exact h.standing_of_other here heffect ht hold
  · intro hclaimed hfree
    change move.state.claimed = true at hclaimed
    change move.state.locked = false at hfree
    rcases flags_of_effect heffect with rfl | ⟨flush, rfl⟩ | ⟨hlocked, hsame⟩
    · cases heffect
      contradiction
    · obtain ⟨hended, hsettled, _⟩ := h.closing.standing here
      cases heffect
      exact ⟨hended, hsettled⟩
    · rw [hlocked] at hfree
      rw [hsame] at hclaimed
      exact h.settled_of_unlocked here heffect hfree hclaimed
  · intro hunclaimed t p hplace hcloser
    have hbefore : l.state.claimed = false := by
      by_contra hclaimed
      have hafter := claimed_of_effect heffect (eq_true_of_ne_false hclaimed)
      rw [show move.state.claimed = false from hunclaimed] at hafter
      contradiction
    rcases cases_of_update hplace with ⟨_, hnew⟩ | ⟨_, hold⟩
    · rcases hroles p hnew with hsame | ⟨rfl, _⟩
      · exact h.closing.unclaimed hbefore here (hsame ▸ hcloser)
      · cases heffect
        contradiction
    · exact h.closing.unclaimed hbefore hold hcloser

/-- Every call keeps the state of the close. -/
theorem closing_call {request : Request α} (h : Known l) :
    Closing { l with place := Function.update l.place thread (some (start request now)) } := by
  have hclient := role_start request now
  refine ⟨?_, ?_, h.closing.settled, ?_⟩
  · intro hticker t p hplace
    rcases cases_of_update hplace with ⟨_, hnew⟩ | ⟨_, hold⟩
    · cases hnew
      rw [hclient]
      nofun
    · exact h.closing.silent hticker hold
  · intro t p hplace
    rcases cases_of_update hplace with ⟨_, hnew⟩ | ⟨_, hold⟩
    · cases hnew
      apply standing_of_role
      rw [hclient]
      nofun
    · exact h.closing.standing hold
  · intro hunclaimed t p hplace
    rcases cases_of_update hplace with ⟨_, hnew⟩ | ⟨_, hold⟩
    · cases hnew
      rw [hclient]
      nofun
    · exact h.closing.unclaimed hunclaimed hold

end Known

/-- A writer that has not been used. -/
structure Fresh (w : Writer α) : Prop where
  queue : w.channel.queue = []
  pending : w.buffer.pending = []
  flushing : w.buffer.flushing = false
  ticker : w.buffer.ticker = .running
  claimed : w.claimed = false
  pumpEnded : w.pumpEnded = false

/-- All this is known of every use of a new writer whose clients only look at the buffer. -/
theorem Known.of_reachable (hfresh : Fresh w) {l : Layout (monitor α)}
    (h : (system w now).layout.Reachable (Client (· = .inspect)) l) : Known l := by
  have hposts := Posts.of_reachable h
  have hdrain := Drain.of_reachable hfresh.pumpEnded nofun h
  have hledger := Writer.ledger h hfresh.pending hfresh.flushing
  refine ⟨hposts, hdrain, hledger, ?_⟩
  induction h with
  | start =>
    have hbackground : ∀ {thread position}, (system w now).layout.place thread = some position →
        position.role ≠ .closer := by
      intro thread position hplace
      rw [System.place_layout] at hplace
      have hown := placeIn_initial hplace
      simp only [List.mem_cons, List.not_mem_nil, or_false] at hown
      rcases hown with rfl | rfl <;> nofun
    refine ⟨?_, fun hplace => standing_of_role (hbackground hplace), ?_, fun _ => hbackground⟩
    · intro hticker
      rw [show (system w now).layout.state.buffer.ticker = .running from hfresh.ticker] at hticker
      rcases hticker with hended | hstopped <;> contradiction
    · intro hclaimed
      rw [show (system w now).layout.state.claimed = false from hfresh.claimed] at hclaimed
      contradiction
  | step hreachable hstep ih =>
    have hposts' := Posts.of_reachable hreachable
    have hdrain' := Drain.of_reachable hfresh.pumpEnded nofun hreachable
    have hledger' := Writer.ledger hreachable hfresh.pending hfresh.flushing
    have hknown : Known _ := ⟨hposts', hdrain', hledger', ih hposts' hdrain' hledger'⟩
    cases hstep with
    | call asked free => exact hknown.closing_call
    | move asked here moves => exact hknown.closing_move here moves

/-! ### After the first close -/

/-- Nothing is left to be done, and every close that is about to return says so. -/
structure Quiet (l : Layout (monitor α)) : Prop where
  claimed : l.state.claimed = true
  ended : l.state.pumpEnded = true
  settled : Buffer.Settled l.state.buffer
  empty : ∀ {thread flush}, l.place thread = some (.release flush) → flush = .empty

namespace Known

variable {l l' : Layout (monitor α)} {thread : Nat}

/-- A close that returns leaves the writer quiet. -/
theorem quiet_of_release (h : Known l) {flush : Flush}
    (here : l.place thread = some (.release flush)) :
    Quiet (l.after thread (.reply { l.state with locked := false } (.closed flush))) := by
  obtain ⟨hended, hsettled, _⟩ := h.closing.standing here
  refine ⟨?_, hended, hsettled, ?_⟩
  · by_contra hclaimed
    exact h.closing.unclaimed (eq_false_of_ne_true hclaimed) here rfl
  · intro t flush' hplace
    rcases cases_of_update hplace with ⟨_, hnew⟩ | ⟨ht, hold⟩
    · contradiction
    · exact absurd (h.posts.closer hold here rfl rfl) ht

/-- A close that takes the lock after another one finds the writer quiet. -/
theorem quiet_of_lock (h : Known l) (hclaimed : l.state.claimed = true)
    (heffect : Effect l.state now .lock move) :
    Quiet (l.after thread move) := by
  cases heffect with
  | lock free =>
    obtain ⟨hended, hsettled⟩ := h.closing.settled hclaimed free
    refine ⟨rfl, hended, hsettled, ?_⟩
    intro t flush hplace
    rcases cases_of_update hplace with ⟨_, hnew⟩ | ⟨_, hold⟩
    · simp only [Move.proceed, hclaimed, if_true] at hnew
      cases hnew
    · have hlocked := h.posts.locked hold rfl
      rw [free] at hlocked
      contradiction

/-- Nobody carries a batch where none is on its way. -/
theorem carries_of_resting (h : Known l) (hresting : l.state.buffer.flushing = false)
    {task : Task} {p : Buffer.Position α} (here : l.place thread = some (.buffer task p)) :
    p.carries = false := by
  cases h.ledger.flight with
  | resting _ nobody =>
    refine nobody thread p ?_
    exact Option.bind_eq_some_iff.2 ⟨_, here, rfl⟩
  | busy flushing =>
    rw [show ((bufferPart α).layout l).state.flushing = false from hresting] at flushing
    contradiction

end Known

namespace Quiet

variable {l l' : Layout (monitor α)}

/-- One thread at another place leaves a writer quiet that is still settled, where it is not about
to return anything else from a close. -/
theorem update {thread : Nat} {place? : Option (Position α)} {state : Writer α}
    {notes : List (Nat × Note α)} (hquiet : Quiet l) (hclaimed : state.claimed = true)
    (hended : state.pumpEnded = true) (hsettled : Buffer.Settled state.buffer)
    (hnew : ∀ flush, place? = some (.release flush) → flush = .empty) :
    Quiet ⟨state, Function.update l.place thread place?, notes⟩ := by
  refine ⟨hclaimed, hended, hsettled, ?_⟩
  intro t flush hplace
  rcases cases_of_update hplace with ⟨_, hhere⟩ | ⟨_, hold⟩
  · exact hnew flush hhere
  · exact hquiet.empty hold

/-- A close that is at the buffer of a quiet writer finds it settled, and is about to return so. -/
theorem close {p : Buffer.Position α} {thread : Nat} {input : Buffer.Input}
    {bufferMove : Buffer.Step α} (hquiet : Quiet l) (h : Known l)
    (here : l.place thread = some (.buffer .close p))
    (moves : (Buffer.monitor α).step l.state.buffer now p input = some bufferMove) :
    Quiet (l.after thread (ofBuffer l.state .close bufferMove)) := by
  have hcarries := h.carries_of_resting hquiet.settled.flushing here
  obtain ⟨hstate, hreply⟩ := Buffer.settled_of_moves hquiet.settled (h.posts.suits here) hcarries
    (h.closing.standing here).2 moves
  refine hquiet.update hquiet.claimed hquiet.ended ?_ ?_
  · rw [show (ofBuffer l.state .close bufferMove).state.buffer = l.state.buffer from hstate]
    exact hquiet.settled
  · intro flush hplace
    rcases cases_of_embed (W := monitor α) (M := Buffer.monitor α) hplace
      with ⟨p', hp', _⟩ | ⟨reply, hreplies, hover⟩
    · contradiction
    · rw [hreply reply hreplies] at hover
      cases hover
      rfl

/-- A thread that does not hold the lock leaves the buffer of a quiet writer alone. -/
theorem other {thread : Nat} (hquiet : Quiet l) (h : Known l)
    (here : l.place thread = some position) (heffect : Effect l.state now position move)
    (hother : position.role ≠ .closer) : Quiet (l.after thread move) := by
  have hbuffer := h.buffer_of_other here heffect hother hquiet.ended hquiet.settled.ticker
  refine hquiet.update (claimed_of_effect heffect hquiet.claimed)
    (pumpEnded_of_effect heffect hquiet.ended) ?_ ?_
  · rw [hbuffer]
    exact hquiet.settled
  · intro flush hplace
    rcases (role_of_effect heffect (h.posts.suits here) hplace).2 with hsame | ⟨rfl, _⟩
    · exact absurd hsame.symm hother
    · cases heffect
      simp only [Move.proceed] at hplace
      split at hplace <;> cases hplace

/-- A quiet writer stays quiet. -/
theorem step (hquiet : Quiet l) (h : Known l) (hstep : l.Step (Client (· = .inspect)) l') :
    Quiet l' := by
  cases hstep with
  | @call thread request now asked free =>
    refine hquiet.update hquiet.claimed hquiet.ended hquiet.settled ?_
    intro flush hnew
    have hclient := role_start request now
    rw [show start request now = .release flush from Option.some.inj hnew] at hclient
    contradiction
  | @move thread wakee input position now move asked here moves =>
    have heffect := effect_of_moves moves
    by_cases hcloser : position.role = .closer
    · cases heffect with
      | @buffer task p input' bufferMove bufferMoves =>
        cases task with
        | close => exact hquiet.close h here bufferMoves
        | own =>
          simp only [Position.role] at hcloser
          split at hcloser <;> contradiction
        | pump => contradiction
      | join | release =>
        refine hquiet.update hquiet.claimed hquiet.ended hquiet.settled ?_
        rintro flush ⟨⟩
      | @channel task => cases task <;> contradiction
      | lock | drained | inspect => contradiction
    · exact hquiet.other h here heffect hcloser

end Quiet

end Backpressure.Writer
