import Backpressure.Proofs.Buffer.Chunks
import Backpressure.Proofs.Course
import Backpressure.Proofs.Writer.Backlog

/-!
# Batches do not depend on the schedule

Where the periodic trigger never goes off and clients leave the buffer alone, batches are taken by
the pump, as soon as the buffer is full, and by the first close, which takes what is left. So the
batches are the chunks of what was accepted, whatever the capacity of the channel is and whoever
comes first.
-/

namespace Backpressure.Writer

variable {α : Type}

/-- What may happen to a writer whose periodic trigger never goes off and whose clients only look at
its buffer. -/
def Untimed : Event (monitor α) → Prop
  | .step _ input _ => input ≠ .tick
  | event => Client (· = .inspect) event

theorem client_of_untimed {event : Event (monitor α)} (h : Untimed event) :
    Client (· = .inspect) event := by
  cases event with
  | step => trivial
  | _ => exact h

/-- The batches that have been taken, in order. -/
def gathered (l : Layout (monitor α)) : List (List α) :=
  (told Buffer.taken? ((bufferPart α).layout l).notes).map (·.2)

/-- Does a thread at this place hold what the first close has taken, or its outcome? -/
def Position.isLast : Position α → Bool
  | .buffer .close position => position.carries
  | .release _ => true
  | _ => false

variable {l l' : Layout (monitor α)} {thread limit : Nat} {now : Instant} {position : Position α}
  {input : Buffer.Input} {move : Step α}

/-- A move adds to the batches what it takes. -/
theorem gathered_after (l : Layout (monitor α)) (thread : Nat) (move : Step α) :
    gathered (l.after thread move) = gathered l ++
      ((move.notes.filterMap Note.ofBuffer?).filterMap
        fun note => Buffer.taken? (thread, note)).map (·.2) := by
  have htold := (bufferPart α).told_layout Buffer.taken? thread move l.place l.notes l.state
    move.state (Function.update l.place thread (Phase.ofOutcome move.outcome).place?)
  exact (congrArg (List.map (·.2)) htold).trans List.map_append

/-- Nobody takes a batch while another one is on its way, or where nothing is pending. -/
theorem gathered_of_idle (heffect : Effect l.state now position move)
    (hidle : l.state.buffer.flushing = true ∨ l.state.buffer.pending = []) :
    gathered (l.after thread move) = gathered l := by
  rw [gathered_after]
  cases heffect with
  | channel =>
    simp only [Move.embed, filterMap_ofBuffer?_channel, List.filterMap_nil, List.map_nil,
      List.append_nil]
  | buffer moves =>
    simp only [Move.embed, filterMap_ofBuffer?_buffer]
    rcases Buffer.cases_of_taken thread moves with ⟨_, _, hresting, hsome, _⟩ | ⟨hnone, _⟩
    · rcases hidle with hflushing | hpending
      · rw [hresting] at hflushing
        contradiction
      · exact absurd hpending hsome
    · rw [hnone]
      exact List.append_nil _
  | lock | join | release | drained | inspect => exact List.append_nil _

/-! ### Who takes batches -/

/-- The pump takes a batch only from a full buffer, and the periodic trigger takes none. -/
structure Orderly (l : Layout (monitor α)) : Prop where
  /-- The periodic trigger only waits. -/
  ticker : ∀ {thread position}, l.place thread = some position → position.role = .ticker →
    position = .buffer .own .launch ∨ position = .buffer .own .select
  /-- When the pump is about to flush, the buffer is full. -/
  due : ∀ {thread}, l.place thread = some (.buffer .pump (.enter .add)) →
    l.state.buffer.limit ≤ l.state.buffer.pending.length

namespace Orderly

/-- The periodic trigger goes on waiting, where it does not go off. -/
theorem ticker_of_moves (h : Orderly l) (hknown : Known l) (here : l.place thread = some position)
    (moves : (monitor α).step l.state now position input = some move) (hinput : input ≠ .tick)
    {place : Position α}
    (hplace : (Phase.ofOutcome (M := monitor α) move.outcome).place? = some place)
    (hrole : place.role = .ticker) :
    place = .buffer .own .launch ∨ place = .buffer .own .select := by
  have hbefore : position.role = .ticker := by
    rcases (role_of_effect (effect_of_moves moves) (hknown.posts.suits here) hplace).2 with
      hsame | ⟨_, hcloser⟩
    · rw [← hsame, hrole]
    · rw [hrole] at hcloser
      contradiction
  rcases h.ticker here hbefore with rfl | rfl
  · cases moves
    cases hplace
    exact .inr rfl
  · exfalso
    simp only [step, stepBuffer, Buffer.step, Buffer.stepSelect] at moves
    split at moves
    · exact hinput rfl
    · split at moves
      · cases moves
        contradiction
      · contradiction
    · contradiction

/-- The pump is about to flush where it has found the buffer full. -/
theorem due_of_moves
    (heffect : Effect l.state now position move)
    (hplace : (Phase.ofOutcome (M := monitor α) move.outcome).place? =
      some (.buffer .pump (.enter .add))) :
    move.state.buffer.limit ≤ move.state.buffer.pending.length := by
  cases heffect with
  | @channel task p channelMove moves =>
    rcases cases_of_embed (W := monitor α) (M := Channel.monitor α) hplace
      with ⟨p', hp', _⟩ | ⟨reply, _, hafter⟩
    · contradiction
    · unfold afterChannel at hafter
      split at hafter <;> cases hafter
  | @buffer task p input bufferMove moves =>
    rcases cases_of_embed (W := monitor α) (M := Buffer.monitor α) hplace
      with ⟨p', hp', hstays⟩ | ⟨reply, _, hafter⟩
    · cases hp'
      exact Buffer.due_of_moves moves hstays
    · unfold afterBuffer at hafter
      split at hafter <;> cases hafter
  | lock free =>
    simp only [Move.proceed] at hplace
    split at hplace <;> cases hplace
  | join ended => cases hplace
  | release | drained | inspect => contradiction

/-- While the pump is there, nobody else changes what is pending. -/
theorem pending_of_other (h : Orderly l) (hknown : Known l) {t : Nat} {pump : Position α}
    (hpump : l.place t = some pump) (hrole : pump.role = .pump) (ht : t ≠ thread)
    (here : l.place thread = some position) (heffect : Effect l.state now position move) :
    move.state.buffer.limit = l.state.buffer.limit ∧
      move.state.buffer.pending = l.state.buffer.pending := by
  cases hother : position.role with
  | client =>
    rw [buffer_of_client heffect (hknown.posts.suits here) hother]
    exact ⟨rfl, rfl⟩
  | pump =>
    have hthread := hknown.posts.pump here hother
    exact absurd ((hknown.posts.pump hpump hrole).trans hthread.symm) ht
  | ticker =>
    cases heffect with
    | @buffer task p input bufferMove moves =>
      have hlimit := Buffer.limit_of_moves moves
      refine ⟨hlimit, ?_⟩
      rcases h.ticker here hother with hp | hp <;> cases hp
      · cases moves
        rfl
      · simp only [Buffer.step, Buffer.stepSelect] at moves
        split at moves
        · cases moves
          rfl
        · split at moves
          · cases moves
            rfl
          · contradiction
        · contradiction
    | @channel task => cases task <;> contradiction
    | lock | join | release | drained | inspect => contradiction
  | closer =>
    have hrunning : l.state.pumpEnded = false := by
      by_contra hended
      exact (hknown.drain.ended (Bool.of_not_eq_false hended)).2 hpump hrole
    cases heffect with
    | @buffer task p input bufferMove moves =>
      cases task with
      | close =>
        have hended := (hknown.closing.standing here).1
        rw [hrunning] at hended
        contradiction
      | own =>
        simp only [Position.role] at hother
        split at hother <;> contradiction
      | pump => contradiction
    | @channel task => cases task <;> contradiction
    | join | release => exact ⟨rfl, rfl⟩
    | lock | drained | inspect => contradiction

/-- Every step keeps the order. -/
theorem step (h : Orderly l) (hknown : Known l) (hstep : l.Step Untimed l') : Orderly l' := by
  cases hstep with
  | @call t request now asked free =>
    have hclient := role_start request now
    constructor
    · intro t' p hplace hrole
      rcases cases_of_update hplace with ⟨_, hnew⟩ | ⟨_, hold⟩
      · cases hnew
        rw [hclient] at hrole
        contradiction
      · exact h.ticker hold hrole
    · intro t' hplace
      rcases cases_of_update hplace with ⟨_, hnew⟩ | ⟨_, hold⟩
      · rw [show start request now = _ from Option.some.inj hnew] at hclient
        contradiction
      · exact h.due hold
  | @move t wakee input position now move asked here moves =>
    have heffect := effect_of_moves moves
    constructor
    · intro t' p hplace hrole
      rcases cases_of_update hplace with ⟨_, hnew⟩ | ⟨_, hold⟩
      · exact h.ticker_of_moves hknown here moves asked hnew hrole
      · exact h.ticker hold hrole
    · intro t' hplace
      rcases cases_of_update hplace with ⟨_, hnew⟩ | ⟨ht, hold⟩
      · exact due_of_moves heffect hnew
      · obtain ⟨hlimit, hpending⟩ := h.pending_of_other hknown hold rfl ht here heffect
        have hdue := h.due hold
        rw [← hlimit, ← hpending] at hdue
        exact hdue

end Orderly

section Takers

variable (hknown : Known l) (hbacklog : Buffer.Backlog 1 limit ((bufferPart α).layout l))
  {errand : Buffer.Errand}
include hknown hbacklog

/-- The pump flushes a full buffer. -/
theorem length_of_pump (horder : Orderly l)
    (here : l.place thread = some (.buffer .pump (.enter errand))) :
    l.state.buffer.pending.length = limit := by
  have hpurpose : errand.purpose = .add := hknown.posts.suits here
  have hlimit : l.state.buffer.limit = limit := hbacklog.limited
  have hfits : l.state.buffer.pending.length ≤ limit := hbacklog.length_pending_le
  cases errand with
  | add =>
    have hdue := horder.due here
    omega
  | flush | shutdown | tick => contradiction

/-- A close flushes a buffer that has room, because the pump has ended by then. -/
theorem length_of_close (here : l.place thread = some (.buffer .close (.enter errand))) :
    l.state.buffer.pending.length < limit := by
  apply hbacklog.length_pending_lt
  by_contra howing
  obtain ⟨p, hp, howes⟩ := (Option.any_eq_true _ _).1 (Bool.of_not_eq_false howing)
  obtain ⟨position, hposition, hpump⟩ := hknown.posts.role_of_owesFlush nofun hp howes
  exact (hknown.drain.ended (hknown.closing.standing here).1).2 hposition hpump

omit hbacklog in
/-- Nobody flushes but the pump and a close. -/
theorem task_of_enter (horder : Orderly l) {task : Task}
    (here : l.place thread = some (.buffer task (.enter errand))) : task ≠ .own := by
  rintro rfl
  rcases hknown.posts.suits here with htick | hinspect
  · have hrole : (Position.buffer .own (.enter errand) : Position α).role = .ticker := if_pos htick
    rcases horder.ticker here hrole with hp | hp <;> cases hp
  · cases errand <;> contradiction

end Takers

/-! ### The first close -/

/-- What the first close comes to, once these batches have been taken: all of them are full, or the
last one is short and the first close has delivered it. -/
inductive Last (limit : Nat) : List (List α) → Flush → Prop
  | even {batches : List (List α)} (full : ∀ batch ∈ batches, batch.length = limit) :
      Last limit batches .empty
  | odd {batches : List (List α)} {last : List α} (full : ∀ batch ∈ batches, batch.length = limit)
      (some : last ≠ []) (short : last.length < limit) (accepted : Bool) :
      Last limit (batches ++ [last]) (.ofDelivery last.length accepted)

/-- How far the first close has come. -/
inductive Chunking (limit : Nat) (l : Layout (monitor α)) :
    List (Call (monitor α) × Reply α) → Prop
  /-- It has not flushed. -/
  | gathering (full : ∀ batch ∈ gathered l, batch.length = limit)
      (early : ∀ {thread position}, l.place thread = some position → position.isLast = false) :
      Chunking limit l []
  /-- It delivers what is left. -/
  | finishing {thread : Nat} {p : Buffer.Position α} {batches : List (List α)} {last : List α}
      (here : l.place thread = some (.buffer .close p)) (carries : p.carries = true)
      (taken : gathered l = batches ++ [last])
      (full : ∀ batch ∈ batches, batch.length = limit)
      (some : last ≠ []) (short : last.length < limit) : Chunking limit l []
  /-- It is about to return. -/
  | releasing {thread : Nat} {flush : Flush} (here : l.place thread = some (.release flush))
      (last : Last limit (gathered l) flush) : Chunking limit l []
  /-- It has returned. -/
  | finished {call : Call (monitor α)} {flush : Flush} {later : List (Call (monitor α) × Reply α)}
      (quiet : Quiet l) (last : Last limit (gathered l) flush) :
      Chunking limit l ((call, .closed flush) :: later)

/-- One thread at another place leaves everybody before the last flush, where it is so itself. -/
theorem early_update {place? : Option (Position α)} {place : Nat → Option (Position α)}
    (h : ∀ {thread position}, place thread = some position → position.isLast = false)
    (hnew : ∀ position, place? = some position → position.isLast = false) {t : Nat}
    {position : Position α} (hplace : Function.update place thread place? t = some position) :
    position.isLast = false := by
  rcases cases_of_update hplace with ⟨_, hhere⟩ | ⟨_, hold⟩
  · exact hnew position hhere
  · exact h hold

namespace Chunking

variable {closed : List (Call (monitor α) × Reply α)}

section Gathering

variable (hknown : Known l) (horder : Orderly l)
  (hbacklog : Buffer.Backlog 1 limit ((bufferPart α).layout l))
  (full : ∀ batch ∈ gathered l, batch.length = limit)
  (early : ∀ {thread position}, l.place thread = some position → position.isLast = false)
  {task : Task} {p : Buffer.Position α} {bufferMove : Buffer.Step α}
include hknown horder hbacklog full early

/-- The pump takes full batches, and the first close takes what is left. -/
theorem take_of_gathering {errand : Buffer.Errand}
    (here : l.place thread = some (.buffer task (.enter errand)))
    (hsome : l.state.buffer.pending ≠ [])
    (htaken : gathered (l.after thread move) = gathered l ++ [l.state.buffer.pending])
    (hplace : (Phase.ofOutcome (M := monitor α) move.outcome).place? =
      some (.buffer task (.call errand l.state.buffer.pending))) :
    Chunking limit (l.after thread move) [] := by
  cases task with
  | own => exact absurd rfl (task_of_enter hknown horder here)
  | pump =>
    have hfull := length_of_pump hknown hbacklog horder here
    refine .gathering ?_ (early_update early ?_)
    · rw [htaken]
      intro batch hmem
      rcases List.mem_append.1 hmem with hold | hnew
      · exact full batch hold
      · rw [List.mem_singleton.1 hnew, hfull]
    · intro place hnew
      cases hplace.symm.trans hnew
      rfl
  | close =>
    have hshort := length_of_close hknown hbacklog here
    have hhere : (l.after thread move).place thread =
        some (.buffer .close (.call errand l.state.buffer.pending)) :=
      (Function.update_self _ _ _).trans hplace
    exact .finishing hhere rfl htaken full hsome hshort

omit horder hbacklog in
/-- A step of the buffer by which nobody takes a batch may lead the first close to its end. -/
theorem rest_of_gathering (here : l.place thread = some (.buffer task p))
    (moves : (Buffer.monitor α).step l.state.buffer now p input = some bufferMove)
    (hsame : gathered (l.after thread (ofBuffer l.state task bufferMove)) = gathered l)
    (hcarries : ∀ p',
      (Phase.ofOutcome (M := Buffer.monitor α) bufferMove.outcome).place? = some p' →
      p'.carries = true → p.carries = true) :
    Chunking limit (l.after thread (ofBuffer l.state task bufferMove)) [] := by
  have hfull : ∀ batch ∈ gathered (l.after thread (ofBuffer l.state task bufferMove)),
      batch.length = limit := by
    rw [hsame]
    exact full
  by_cases htask : task = .close
  · subst htask
    have hempty : p.carries = false := early here
    have hundisturbed := (hknown.closing.standing here).2
    have hresting : ∀ errand, p = .enter errand → l.state.buffer.flushing = false := by
      rintro errand rfl
      exact hknown.resting_of_enter here
    cases houtcome : bufferMove.outcome with
    | reply reply =>
      rcases Buffer.flushed_of_undisturbed hundisturbed (hknown.posts.suits here) hresting moves
        houtcome with ⟨errand, size, accepted, rfl, _⟩ | ⟨_, rfl⟩
      · contradiction
      · have hhere : (l.after thread (ofBuffer l.state .close bufferMove)).place thread =
            some (.release .empty) := by
          refine (Function.update_self _ _ _).trans ?_
          simp only [Move.embed, houtcome]
          rfl
        exact .releasing hhere (.even hfull)
    | _ =>
      refine .gathering hfull (early_update early ?_)
      intro place hplace
      rcases cases_of_embed (W := monitor α) (M := Buffer.monitor α) hplace
        with ⟨p', rfl, hstays⟩ | ⟨reply, hreply, _⟩
      · by_contra hlast
        have hbefore := hcarries p' hstays (Bool.of_not_eq_false hlast)
        rw [hempty] at hbefore
        contradiction
      · rw [houtcome] at hreply
        contradiction
  · refine .gathering hfull (early_update early ?_)
    intro place hplace
    rcases cases_of_embed (W := monitor α) (M := Buffer.monitor α) hplace
      with ⟨p', rfl, _⟩ | ⟨reply, _, hover⟩
    · cases task with
      | close => exact absurd rfl htask
      | own | pump => rfl
    · cases task with
      | close => exact absurd rfl htask
      | own => cases hover
      | pump =>
        cases hover
        rfl

/-- Where no close has flushed, a move leads at most to the flush of the first one. -/
theorem move_of_gathering (here : l.place thread = some position)
    (heffect : Effect l.state now position move) (hreturns : ∀ flush, position ≠ .release flush) :
    Chunking limit (l.after thread move) [] := by
  -- A move that takes nothing and leads to no last flush.
  have hquiet : gathered (l.after thread move) = gathered l →
      (∀ place, (Phase.ofOutcome (M := monitor α) move.outcome).place? = some place →
        place.isLast = false) → Chunking limit (l.after thread move) [] := by
    intro hsame hnew
    refine .gathering ?_ (early_update early hnew)
    rw [hsame]
    exact full
  cases heffect with
  | @channel task p channelMove moves =>
    refine hquiet ?_ ?_
    · rw [gathered_after]
      simp only [Move.embed, filterMap_ofBuffer?_channel, List.filterMap_nil, List.map_nil,
        List.append_nil]
    · intro place hplace
      rcases cases_of_embed (W := monitor α) (M := Channel.monitor α) hplace
        with ⟨p', rfl, _⟩ | ⟨reply, _, hover⟩
      · rfl
      · unfold afterChannel at hover
        split at hover <;> cases hover <;> rfl
  | @buffer task p input bufferMove moves =>
    have hgathered : gathered (l.after thread (ofBuffer l.state task bufferMove)) = gathered l ++
        (bufferMove.notes.filterMap fun note => Buffer.taken? (thread, note)).map (·.2) := by
      rw [gathered_after]
      simp only [Move.embed, filterMap_ofBuffer?_buffer]
    rcases Buffer.cases_of_taken thread moves with
      ⟨errand, rfl, _, hsome, htaken, houtcome⟩ | ⟨hnone, hcarries⟩
    · rw [htaken] at hgathered
      refine take_of_gathering hknown horder hbacklog full early here hsome hgathered ?_
      simp only [Move.embed, houtcome]
      rfl
    · rw [hnone] at hgathered
      exact rest_of_gathering hknown full early here moves
        (hgathered.trans (List.append_nil _)) hcarries
  | lock free =>
    refine hquiet ?_ ?_
    · rw [gathered_after]
      exact List.append_nil _
    · intro place hplace
      simp only [Move.proceed] at hplace
      split at hplace <;> cases hplace <;> rfl
  | join ended =>
    refine hquiet ?_ ?_
    · rw [gathered_after]
      exact List.append_nil _
    · rintro place ⟨⟩
      rfl
  | @release flush => exact absurd rfl (hreturns flush)
  | drained | inspect =>
    refine hquiet ?_ ?_
    · rw [gathered_after]
      exact List.append_nil _
    · intro place hplace
      cases hplace

end Gathering

/-- What the first close carries is what was taken last. -/
theorem carried_of_finishing (hknown : Known l) {p : Buffer.Position α} {batches : List (List α)}
    {last : List α} (here : l.place thread = some (.buffer .close p)) (carries : p.carries = true)
    (taken : gathered l = batches ++ [last]) :
    l.state.buffer.flushing = true ∧
      Buffer.Underway ((bufferPart α).layout l).notes thread last p := by
  have hinside : ((bufferPart α).layout l).place thread = some p :=
    Option.bind_eq_some_iff.2 ⟨_, here, rfl⟩
  obtain ⟨batch, hflushing, houtstanding, hunderway, _⟩ :=
    hknown.ledger.flight.of_carries hinside carries
  have hlast : gathered l =
      ((Buffer.completed ((bufferPart α).layout l).notes).map (·.batch)) ++ [batch] := by
    rw [gathered, hknown.ledger.batches, houtstanding, List.map_append, List.map_map]
    rfl
  have hsame : last = batch := by
    have hends := congrArg List.getLast? (taken.symm.trans hlast)
    rw [List.getLast?_concat, List.getLast?_concat] at hends
    exact Option.some.inj hends
  exact ⟨hflushing, hsame ▸ hunderway⟩

/-- The first close delivers what it has taken, and is about to return what became of it. -/
theorem move_of_finishing (hknown : Known l) {p : Buffer.Position α} {batches : List (List α)}
    {last : List α} (here : l.place thread = some (.buffer .close p)) (carries : p.carries = true)
    (taken : gathered l = batches ++ [last]) (full : ∀ batch ∈ batches, batch.length = limit)
    (some : last ≠ []) (short : last.length < limit)
    (heffect : Effect l.state now (.buffer .close p) move) :
    Chunking limit (l.after thread move) [] := by
  obtain ⟨hflushing, hunderway⟩ := carried_of_finishing hknown here carries taken
  have hsame : gathered (l.after thread move) = batches ++ [last] :=
    (gathered_of_idle heffect (.inl hflushing)).trans taken
  have hhere : (l.after thread move).place thread =
      (Phase.ofOutcome (M := monitor α) move.outcome).place? := Function.update_self _ _ _
  have hpurpose : p.purpose = .shutdown := hknown.posts.suits here
  cases heffect with
  | @buffer _ _ input bufferMove moves =>
    cases p with
    | call errand batch =>
      cases moves
      exact .finishing hhere rfl hsame full some short
    | deliver errand batch =>
      cases input <;> cases moves
      exact .finishing hhere rfl hsame full some short
    | record errand size accepted =>
      cases moves
      obtain ⟨rfl, _⟩ := hunderway
      have hover : (Phase.ofOutcome (M := monitor α) (ofBuffer l.state .close
          (Buffer.stepRecord l.state.buffer errand last.length accepted)).outcome).place? =
            Option.some (.release (.ofDelivery last.length accepted)) := by
        simp only [Move.embed, Buffer.stepRecord]
        rw [Buffer.finish_of_purpose hpurpose]
        rfl
      refine .releasing (hhere.trans hover) ?_
      rw [hsame]
      exact .odd full some short accepted
    | _ => contradiction

/-- A move that is not the return of a close leads the first close on. -/
theorem of_move (h : Chunking limit l closed) (hknown : Known l) (horder : Orderly l)
    (hbacklog : Buffer.Backlog 1 limit ((bufferPart α).layout l))
    (here : l.place thread = some position)
    (moves : (monitor α).step l.state now position input = some move)
    (hreturns : ∀ flush, position ≠ .release flush) :
    Chunking limit (l.after thread move) closed := by
  have heffect := effect_of_moves moves
  cases h with
  | gathering full early =>
    exact move_of_gathering hknown horder hbacklog full early here heffect hreturns
  | @finishing t p batches last there carries taken full some short =>
    by_cases ht : t = thread
    · subst ht
      cases here.symm.trans there
      exact move_of_finishing hknown there carries taken full some short heffect
    · obtain ⟨hflushing, _⟩ := carried_of_finishing hknown there carries taken
      refine .finishing ((Function.update_of_ne ht _ _).trans there) carries ?_ full some short
      rw [gathered_of_idle heffect (.inl hflushing), taken]
  | @releasing t flush there last =>
    have ht : t ≠ thread := by
      rintro rfl
      exact hreturns flush (Option.some.inj (here.symm.trans there))
    obtain ⟨_, hsettled, _⟩ := hknown.closing.standing there
    refine .releasing ((Function.update_of_ne ht _ _).trans there) ?_
    rw [gathered_of_idle heffect (.inr hsettled.pending)]
    exact last
  | finished quiet last =>
    have hstep : l.Step (Client (· = .inspect)) (l.after thread move) :=
      @Layout.Step.move (monitor α) _ l thread 0 input position now move trivial here moves
    refine .finished (quiet.step hknown hstep) ?_
    rw [gathered_of_idle heffect (.inr quiet.settled.pending)]
    exact last

/-- The first close to return is over, and a later one finds nothing. -/
theorem of_release (h : Chunking limit l closed) (hknown : Known l) {flush : Flush}
    (here : l.place thread = some (.release flush)) (call : Call (monitor α)) :
    Chunking limit (l.after thread (.reply { l.state with locked := false } (.closed flush)))
      (closed ++ [(call, .closed flush)]) := by
  have hsame : gathered (l.after thread
      (.reply { l.state with locked := false } (.closed flush))) = gathered l := by
    rw [gathered_after]
    exact List.append_nil _
  have hquiet := hknown.quiet_of_release here
  cases h with
  | gathering full early =>
    have hlast := early here
    contradiction
  | @finishing t p batches last there carries taken full some short =>
    obtain rfl := hknown.posts.closer there here rfl rfl
    cases here.symm.trans there
  | @releasing t flush' there last =>
    obtain rfl := hknown.posts.closer there here rfl rfl
    cases here.symm.trans there
    exact .finished hquiet (hsame ▸ last)
  | finished quiet last => exact .finished hquiet (hsame ▸ last)

/-- A call that begins is not yet part of the first close. -/
theorem of_call (h : Chunking limit l closed) (hknown : Known l) (free : l.place thread = none)
    (request : Request α) (hasked : Client (· = .inspect) (.call thread request)) :
    Chunking limit
      { l with place := Function.update l.place thread (some (start request now)) } closed := by
  have hclient := role_start request now
  have hother : ∀ {t position}, l.place t = some position → t ≠ thread := by
    rintro t position hplace rfl
    rw [free] at hplace
    contradiction
  cases h with
  | gathering full early =>
    refine .gathering full (early_update early ?_)
    rintro place ⟨⟩
    by_contra hlast
    have hcloser : (start request now).role = .closer := by
      cases hplace : start request now with
      | buffer task p =>
        rw [hplace] at hlast
        cases task with
        | close => rfl
        | own | pump => exact absurd rfl hlast
      | release flush => rfl
      | _ =>
        rw [hplace] at hlast
        exact absurd rfl hlast
    rw [hclient] at hcloser
    contradiction
  | finishing there carries taken full some short =>
    exact .finishing ((Function.update_of_ne (hother there) _ _).trans there) carries taken full
      some short
  | releasing there last =>
    exact .releasing ((Function.update_of_ne (hother there) _ _).trans there) last
  | finished quiet last =>
    exact .finished (quiet.step hknown (.call hasked free)) last

/-- Whatever happens, the first close is on its way. -/
theorem change {s s' : System (monitor α)} {event : Event (monitor α)}
    (h : Chunking limit s.layout (closes s)) (hrule : (rule α).Holds s) (hknown : Known s.layout)
    (horder : Orderly s.layout)
    (hbacklog : Buffer.Backlog 1 limit ((bufferPart α).layout s.layout)) (hallowed : Untimed event)
    (hchange : System.Change s event s') : Chunking limit s'.layout (closes s') := by
  have hnext := System.next_eq_some_iff.2 hchange
  rcases hchange.cases_layout with ⟨hreturns, hsame⟩ |
    ⟨thread, request, rfl, free, hreturns, hlayout⟩ |
    ⟨thread, input, wakee, position, move, rfl, here, moves, hlayout⟩
  · rw [closes, hreturns, hsame]
    exact h
  · rw [closes, hreturns, hlayout]
    exact h.of_call hknown free request hallowed
  · rw [hlayout]
    rcases closes_of_step hrule hnext here with ⟨flush, call, rfl, hcloses⟩ | ⟨hnot, hcloses⟩
    · rw [hcloses]
      cases effect_of_moves moves
      exact h.of_release hknown here call
    · rw [hcloses]
      exact h.of_move hknown horder hbacklog here moves hnot

end Chunking

/-! ### Whole runs -/

/-- The batches that the first close leaves, and what it comes to, depend on the items only. -/
theorem Last.chunks {batches : List (List α)} {flush : Flush} (h : Last limit batches flush)
    (hlimit : 0 < limit) :
    batches = batches.flatten.toChunks limit ∧
      (batches.flatten.length % limit = 0 ∧ flush = .empty ∨
        0 < batches.flatten.length % limit ∧
          (flush = .delivered (batches.flatten.length % limit) ∨
            flush = .failed (batches.flatten.length % limit))) := by
  cases h with
  | even full =>
    refine ⟨?_, .inl ⟨?_, rfl⟩⟩
    · have hchunks : (batches.flatten ++ []).toChunks limit = batches ++ [].toChunks limit :=
        toChunks_flatten_append hlimit full
      rw [List.append_nil] at hchunks
      exact (hchunks.trans (List.append_nil _)).symm
    · rw [length_flatten_of_full full, Nat.mul_mod_right]
  | @odd batches last full some short accepted =>
    have hrest : (batches ++ [last]).flatten.length % limit = last.length := by
      rw [List.flatten_append, List.flatten_singleton, List.length_append,
        length_flatten_of_full full, Nat.mul_add_mod, Nat.mod_eq_of_lt short]
    refine ⟨?_, .inr ?_⟩
    · rw [List.flatten_append, List.flatten_singleton, toChunks_flatten_append hlimit full,
        toChunks_of_length_le some (Nat.le_of_lt short)]
    · rw [hrest]
      refine ⟨List.length_pos_iff.2 some, ?_⟩
      cases accepted with
      | true => exact .inl rfl
      | false => exact .inr rfl

/-- A writer that has been used without its periodic trigger is in order, and its first close is on
its way. -/
theorem chunking_of_reachable {w : Writer α} {s : System (monitor α)} (hfresh : Fresh w)
    (h : (system w now).ReachableBy Untimed s) :
    Orderly s.layout ∧ Chunking w.buffer.limit s.layout (closes s) := by
  induction h with
  | start =>
    have hbackground : ∀ {thread position}, (system w now).layout.place thread = some position →
        position = .buffer .own .launch ∨ position = .channel .pump (.poll none) := by
      intro thread position hplace
      rw [System.place_layout] at hplace
      have hown := placeIn_initial hplace
      simpa using hown
    refine ⟨⟨?_, ?_⟩, .gathering ?_ ?_⟩
    · intro thread position hplace hrole
      rcases hbackground hplace with rfl | rfl
      · exact .inl rfl
      · contradiction
    · intro thread hplace
      rcases hbackground hplace with hp | hp <;> cases hp
    · intro batch hmem
      contradiction
    · intro thread position hplace
      rcases hbackground hplace with rfl | rfl <;> rfl
  | next hreachable hallowed hnext ih =>
    obtain ⟨horder, hchunking⟩ := ih
    have hclient := hreachable.mono fun _ => client_of_untimed
    have hknown := Known.of_reachable hfresh hclient.layout
    have hbacklog := backlog_of_reachable hfresh.pending nofun hclient.layout
    have hchange := System.next_eq_some_iff.1 hnext
    have hchunking' :=
      hchunking.change (rule_holds hclient.reachable) hknown horder hbacklog hallowed hchange
    refine ⟨?_, hchunking'⟩
    rcases hchange.layout hallowed with hsame | hstep
    · rw [hsame]
      exact horder
    · exact horder.step hknown hstep

/-- The sink of a quiet writer has been called with every batch that was taken. -/
theorem sinkCalls_of_quiet {s : System (monitor α)} (hquiet : Quiet s.layout)
    (hknown : Known s.layout) : (sinkCalls s).map (·.2) = gathered s.layout := by
  cases hknown.ledger.flight with
  | busy flushing =>
    have hresting := hquiet.settled.flushing
    rw [show s.layout.state.buffer.flushing = true from flushing] at hresting
    contradiction
  | resting _ _ settled called _ =>
    rw [sinkCalls_eq, called, gathered, hknown.ledger.batches, settled, List.append_nil]

/-- What the sink of a quiet writer has been called with. -/
theorem chunks_of_quiet {w : Writer α} {s : System (monitor α)} (hfresh : Fresh w)
    (h : (system w now).ReachableBy Untimed s) (hquiet : Quiet s.layout) :
    (sinkCalls s).map (·.2) = (accepted s).toChunks w.buffer.limit := by
  have hclient := h.mono fun _ => client_of_untimed
  have hknown := Known.of_reachable hfresh hclient.layout
  have hitems := (hquiet.delivered hknown (conserved hclient.layout hfresh.queue)).1
  rw [sinkCalls_of_quiet hquiet hknown] at hitems ⊢
  have hchunks : ∀ {flush : Flush}, Last w.buffer.limit (gathered s.layout) flush →
      gathered s.layout = (accepted s).toChunks w.buffer.limit := by
    intro flush hlast
    have hcut := (hlast.chunks w.buffer.limit_pos).1
    rwa [hitems] at hcut
  have hchunking := (chunking_of_reachable hfresh h).2
  generalize closes s = closed at hchunking
  cases hchunking with
  | gathering full => exact hchunks (.even full)
  | releasing here last | finished quiet last => exact hchunks last
  | finishing here carries =>
    rw [hknown.carries_of_resting hquiet.settled.flushing here] at carries
    contradiction

/-- What the sink of a writer has been called with once a close has returned, and what the first
close has come to. -/
theorem chunks_of_closes {w : Writer α} {s : System (monitor α)} (hfresh : Fresh w)
    (h : (system w now).ReachableBy Untimed s) (hreturned : closes s ≠ []) :
    (sinkCalls s).map (·.2) = (accepted s).toChunks w.buffer.limit ∧
      ∃ call flush later, closes s = (call, .closed flush) :: later ∧
        ((accepted s).length % w.buffer.limit = 0 ∧ flush = .empty ∨
          0 < (accepted s).length % w.buffer.limit ∧
            (flush = .delivered ((accepted s).length % w.buffer.limit) ∨
              flush = .failed ((accepted s).length % w.buffer.limit))) := by
  have hclient := h.mono fun _ => client_of_untimed
  have hknown := Known.of_reachable hfresh hclient.layout
  have hconserved := conserved hclient.layout hfresh.queue
  have hchunking := (chunking_of_reachable hfresh h).2
  generalize hcloses : closes s = closed at hchunking hreturned
  cases hchunking with
  | gathering | finishing | releasing => exact absurd rfl hreturned
  | @finished call flush later quiet last =>
    obtain ⟨hitems, _⟩ := quiet.delivered hknown hconserved
    have hcalls := sinkCalls_of_quiet quiet hknown
    obtain ⟨hchunks, hflush⟩ := last.chunks w.buffer.limit_pos
    rw [← hcalls, hitems] at hchunks
    rw [← hcalls, hitems] at hflush
    exact ⟨hchunks, call, flush, later, rfl, hflush⟩

/-- Batches do not depend on the schedule. Where the periodic trigger never goes off and clients do
nothing with the buffer but look at it, the sink of a writer has been called, once a close has
returned, with the chunks of what was accepted that have the length of the limit, and with what
remains, if anything does. The first close comes to what the sink made of the remainder, or to
nothing where there is none. So two writers with the same limit that accept the same items call
their sinks with the same batches, whatever the capacities of their channels and their schedules
are. -/
theorem batches_are_chunks {config : WriterConfig} (hvalid : config.validate = .ok ()) :
    ∃ w : Writer α, ofConfig config = .ok w ∧
      ∀ now s, (system w now).ReachableBy Untimed s → closes s ≠ [] →
        (sinkCalls s).map (·.2) = (accepted s).toChunks config.buffer.limit ∧
        (∃ call flush later, closes s = (call, .closed flush) :: later ∧
          ((accepted s).length % config.buffer.limit = 0 ∧ flush = .empty ∨
            0 < (accepted s).length % config.buffer.limit ∧
              (flush = .delivered ((accepted s).length % config.buffer.limit) ∨
                flush = .failed ((accepted s).length % config.buffer.limit)))) ∧
        ∀ (config' : WriterConfig) (w' : Writer α) now' s', config'.validate = .ok () →
          config'.buffer.limit = config.buffer.limit → ofConfig config' = .ok w' →
          (system w' now').ReachableBy Untimed s' → closes s' ≠ [] → accepted s' = accepted s →
          (sinkCalls s').map (·.2) = (sinkCalls s).map (·.2) := by
  have hmade : ∀ {config : WriterConfig} {w : Writer α}, config.validate = .ok () →
      ofConfig config = .ok w → Fresh w ∧ w.buffer.limit = config.buffer.limit := by
    intro config w hvalid hmade
    obtain ⟨_, _, _, _, hfresh⟩ := ofConfig_eq_ok (α := α) hvalid
    cases hmade.symm.trans hfresh
    exact ⟨⟨rfl, rfl, rfl, rfl, rfl, rfl⟩, rfl⟩
  obtain ⟨w, hw, _⟩ := fresh_of_validate (α := α) hvalid
  obtain ⟨hfresh, hlimit⟩ := hmade hvalid hw
  refine ⟨w, hw, ?_⟩
  intro now s h hreturned
  obtain ⟨hchunks, hfirst⟩ := chunks_of_closes hfresh h hreturned
  rw [hlimit] at hchunks hfirst
  refine ⟨hchunks, hfirst, ?_⟩
  intro config' w' now' s' hvalid' hsame hw' h' hreturned' haccepted
  obtain ⟨hfresh', hlimit'⟩ := hmade hvalid' hw'
  obtain ⟨hchunks', _⟩ := chunks_of_closes hfresh' h' hreturned'
  rw [hchunks', hchunks, haccepted, hlimit', hsame]

/-- Three items are written, of which the pump delivers two and the close delivers one, on which the
sink fails. -/
def closedWithRemainder : List (Event (monitor Nat)) :=
  [.arrive, .step 0 .nothing 0, .call 2 (.write 1), .step 2 .nothing 0, .step 1 .nothing 0,
    .step 1 .nothing 0, .call 2 (.write 2), .step 2 .nothing 0, .step 1 .nothing 0,
    .step 1 .nothing 0, .step 1 .nothing 0, .step 1 .nothing 0, .step 1 (.outcome .accepted) 0,
    .step 1 .nothing 0, .call 2 (.write 3), .step 2 .nothing 0, .call 2 .close, .step 2 .nothing 0,
    .step 2 .nothing 0, .step 1 .nothing 0, .step 1 .nothing 0, .step 1 .nothing 0,
    .step 1 .nothing 0, .step 2 .nothing 0, .step 2 .nothing 0, .step 0 .stop 0,
    .step 2 .nothing 0, .step 2 .nothing 0, .step 2 .nothing 0, .step 2 (.outcome (.crashed none)) 0,
    .step 2 .nothing 0, .step 2 .nothing 0]

theorem batches_are_chunks_closedWithRemainder :
    ∃ w s, ofConfig twoInBatch = .ok w ∧ (system w .midrange).run closedWithRemainder = some s ∧
      accepted s = [1, 2, 3] ∧ (closes s).length = 1 ∧
      (sinkCalls s).map (·.2) = [1, 2, 3].toChunks 2 ∧
      ∃ call flush later, closes s = (call, .closed flush) :: later ∧
        (flush = .delivered 1 ∨ flush = .failed 1) := by
  obtain ⟨w, hmade, hall⟩ := batches_are_chunks (α := Nat)
    (show twoInBatch.validate = .ok () from rfl)
  have hruns : ((ofConfig twoInBatch).toOption.bind fun w =>
      ((system w .midrange).run closedWithRemainder).map fun s =>
        decide (accepted s = [1, 2, 3] ∧ (closes s).length = 1)) = some true := by
    decide +kernel
  rw [hmade] at hruns
  simp only [Except.toOption, Option.bind_some, Option.map_eq_some_iff,
    decide_eq_true_eq] at hruns
  obtain ⟨s, hrun, haccepted, hone⟩ := hruns
  have hallowed : ∀ event ∈ closedWithRemainder, Untimed event := by
    simp [closedWithRemainder, Untimed, Client]
  have hreturned : closes s ≠ [] := by
    intro hnone
    rw [hnone] at hone
    contradiction
  obtain ⟨hchunks, ⟨call, flush, later, hcloses, hflush⟩, _⟩ :=
    hall .midrange s (.run .start hallowed hrun) hreturned
  rw [haccepted] at hchunks hflush
  refine ⟨w, s, hmade, hrun, haccepted, hone, hchunks, call, flush, later, hcloses, ?_⟩
  rcases hflush with ⟨hnone, _⟩ | ⟨_, hremainder⟩
  · contradiction
  · exact hremainder

end Backpressure.Writer
