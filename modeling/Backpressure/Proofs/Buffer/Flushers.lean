import Backpressure.Proofs.Buffer.Completion
import Backpressure.Proofs.Buffer.SingleFlight

/-!
# Flushes that begin together

Where nobody uses a buffer and something is pending, any number of flushes come to one delivery, of
all that is pending. One of them makes it, the others join it or find nothing left, and none returns
before the sink has.
-/

namespace Backpressure.Buffer

variable {α : Type}

/-- Nothing begins but flushes, and the periodic trigger does not go off. -/
def FlushesOnly : Event (monitor α) → Prop
  | .call _ request => request = .flush
  | .step _ input _ => input ≠ .tick
  | _ => True

/-- Nobody is in a call, and the periodic trigger is at rest. -/
def Idle (s : System (monitor α)) : Prop :=
  ∀ phase ∈ s.threads,
    phase.place? = none ∨ phase.place? = some .launch ∨ phase.place? = some .select

instance [DecidableEq α] (s : System (monitor α)) : Decidable (Idle s) :=
  inferInstanceAs (Decidable (∀ phase ∈ s.threads,
    phase.place? = none ∨ phase.place? = some .launch ∨ phase.place? = some .select))

theorem Idle.place {s : System (monitor α)} (h : Idle s) {thread : Nat} {position : Position α}
    (hplace : placeIn s.threads thread = some position) :
    position = .launch ∨ position = .select := by
  obtain ⟨phase, here, hposition⟩ := Option.bind_eq_some_iff.1 hplace
  have hrests := h phase (List.mem_of_getElem? here)
  rw [hposition] at hrests
  simpa using hrests

/-- A thread at this place is the periodic trigger at rest, or in a flush that goes on with its
first look at the buffer in some round. -/
def Position.FlushesIn (round : Nat) : Position α → Prop
  | .launch | .select => True
  | .enter errand | .call errand _ | .deliver errand _ | .record errand _ _ => errand = .flush none
  | .join errand joined => errand = .flush none ∧ joined = round
  | _ => False

/-- A flush has delivered nothing itself. -/
def Reply.IsIdle (reply : Reply α) : Prop :=
  reply = .flushed (.ok .joined) ∨ reply = .flushed (.ok .empty)

/-- What has returned since a buffer was idle has come to one delivery, of all that was pending: the
sink has been called once and has returned, and so has the flush that called it, and all others have
delivered nothing. -/
def OneDelivery (idle s : System (monitor α)) : Prop :=
  ∃ carrier accepted call later,
    sinkCalls s = sinkCalls idle ++ [(carrier, idle.state.pending)] ∧
    sinkReturns s = sinkReturns idle ++ [⟨carrier, idle.state.pending, accepted⟩] ∧
    s.returns = idle.returns ++
      (call, .flushed (.ok (.ofDelivery idle.state.pending.length accepted))) :: later ∧
    ∀ returned ∈ later, returned.2.IsIdle

/-- How far the flushes have come that have begun since a buffer was idle. -/
inductive Together (idle s : System (monitor α)) : Prop
  /-- Nobody has looked at the buffer. -/
  | untaken (rests : s.state.flushing = false) (round : s.state.round = idle.state.round)
      (pending : s.state.pending = idle.state.pending) (taken : taken s = taken idle)
      (deliveries : deliveries s = deliveries idle) (returns : s.returns = idle.returns)
  /-- Somebody has taken what is pending, and nobody has returned. -/
  | busy (carrier : Nat) (flushing : s.state.flushing = true)
      (round : s.state.round = idle.state.round) (pending : s.state.pending = [])
      (taken : taken s = Buffer.taken idle ++ [(carrier, idle.state.pending)])
      (deliveries : deliveries s = deliveries idle) (returns : s.returns = idle.returns)
  /-- The delivery is over, and who made it has returned. -/
  | ended (carrier : Nat) {accepted : Bool} {call : Call (monitor α)}
      {later : List (Call (monitor α) × Reply α)} (rests : s.state.flushing = false)
      (round : s.state.round = idle.state.round + 1) (pending : s.state.pending = [])
      (deliveries : deliveries s =
        Buffer.deliveries idle ++ [⟨carrier, idle.state.pending, accepted⟩])
      (returns : s.returns = idle.returns ++
        (call, .flushed (.ok (.ofDelivery idle.state.pending.length accepted))) :: later)
      (others : ∀ returned ∈ later, returned.2.IsIdle)

section New

variable {limit : Nat} {interval : Duration} {limit_pos : 0 < limit}
  {interval_pos : 0 < interval.nanos} {now : Instant} {idle s s' : System (monitor α)}

/-! ### One step -/

namespace Together

variable {thread wakee : Nat} {input : Input} {move : Step α}

/-- A step that neither takes a batch, nor records one, nor returns, changes nothing. -/
theorem quiet (h : Together idle s) (hlayout : s'.layout = s.layout.after thread move)
    (hreturns : s'.returns = s.returns ++ (endedBy thread move s.journal).toList)
    (hreply : ∀ reply, move.outcome ≠ .reply reply)
    (hpending : move.state.pending = s.state.pending)
    (hflushing : move.state.flushing = s.state.flushing)
    (hround : move.state.round = s.state.round)
    (htaken : told taken? (move.record thread ++ s.view.notes) = taken s)
    (hdeliveries : completed (move.record thread ++ s.view.notes) = deliveries s) :
    Together idle s' := by
  have hstate : s'.state = move.state := congrArg Layout.state hlayout
  have hnotes : s'.view.notes = move.record thread ++ s.view.notes := congrArg Layout.notes hlayout
  have hsame : s'.returns = s.returns := by
    rw [hreturns, endedBy]
    cases houtcome : move.outcome with
    | reply reply => exact absurd houtcome (hreply reply)
    | _ => exact List.append_nil _
  rw [← hstate] at hpending hflushing hround
  rw [← hnotes] at htaken hdeliveries
  cases h with
  | untaken rests round pending taken deliveries returns =>
    exact .untaken (hflushing.trans rests) (hround.trans round) (hpending.trans pending)
      (htaken.trans taken) (hdeliveries.trans deliveries) (hsame.trans returns)
  | busy carrier flushing round pending taken deliveries returns =>
    exact .busy carrier (hflushing.trans flushing) (hround.trans round) (hpending.trans pending)
      (htaken.trans taken) (hdeliveries.trans deliveries) (hsame.trans returns)
  | ended carrier rests round pending deliveries returns others =>
    exact .ended carrier (hflushing.trans rests) (hround.trans round) (hpending.trans pending)
      (hdeliveries.trans deliveries) (hsame.trans returns) others

/-- Flushes that neither do anything nor return are where they were. -/
theorem of_same (h : Together idle s) (hstate : s'.state = s.state)
    (hnotes : s'.view.notes = s.view.notes) (hreturns : s'.returns = s.returns) :
    Together idle s' := by
  have htaken : taken s' = taken s := congrArg (told taken?) hnotes
  have hdeliveries : deliveries s' = deliveries s := congrArg completed hnotes
  cases h with
  | untaken rests round pending taken deliveries returns =>
    exact .untaken (hstate ▸ rests) (hstate ▸ round) (hstate ▸ pending) (htaken.trans taken)
      (hdeliveries.trans deliveries) (hreturns.trans returns)
  | busy carrier flushing round pending taken deliveries returns =>
    exact .busy carrier (hstate ▸ flushing) (hstate ▸ round) (hstate ▸ pending)
      (htaken.trans taken) (hdeliveries.trans deliveries) (hreturns.trans returns)
  | ended carrier rests round pending deliveries returns others =>
    exact .ended carrier (hstate ▸ rests) (hstate ▸ round) (hstate ▸ pending)
      (hdeliveries.trans deliveries) (hreturns.trans returns) others

/-- Where nothing is pending any more and no delivery is under way, the delivery is over. -/
theorem round_ne (h : Together idle s) (hsome : idle.state.pending ≠ [])
    (hrests : s.state.flushing = false) (hnone : s.state.pending = []) :
    s.state.round ≠ idle.state.round := by
  cases h with
  | untaken _ _ pending =>
    rw [hnone] at pending
    exact absurd pending.symm hsome
  | busy _ flushing =>
    rw [hrests] at flushing
    contradiction
  | ended _ _ round => omega

/-- Once the delivery is over, the other flushes return, having done nothing. -/
theorem returned (h : Together idle s) (hover : s.state.round ≠ idle.state.round)
    (hlayout : s'.layout = s.layout.after thread move)
    (hreturns : s'.returns = s.returns ++ (endedBy thread move s.journal).toList)
    (hstate : move.state = s.state) (hnotes : move.notes = []) {reply : Reply α}
    (hreply : move.outcome = .reply reply) (hidle : reply.IsIdle) {call : Call (monitor α)}
    (hopen : openCall thread s.journal = some call) : Together idle s' := by
  have hsame : s'.state = s.state := (congrArg Layout.state hlayout).trans hstate
  have hkept : s'.view.notes = s.view.notes := by
    have hview : s'.view.notes = move.record thread ++ s.view.notes :=
      congrArg Layout.notes hlayout
    rw [hview, Move.record, hnotes]
    rfl
  cases h with
  | untaken _ round => exact absurd round hover
  | busy _ _ round => exact absurd round hover
  | @ended carrier accepted first later rests round pending delivered returns others =>
    have hended : endedBy thread move s.journal = some (call.record move.notes, reply) := by
      rw [endedBy, hreply, hopen]
      rfl
    rw [hended, returns, Option.toList_some, List.append_assoc, List.cons_append] at hreturns
    refine .ended carrier (by rw [hsame, rests]) (by rw [hsame, round]) (by rw [hsame, pending]) ?_
      hreturns ?_
    · rw [deliveries, hkept]
      exact delivered
    · intro after hmem
      rcases List.mem_append.1 hmem with hold | hnew
      · exact others after hold
      · rw [List.mem_singleton.1 hnew]
        exact hidle

/-- The first flush that looks takes what is pending. -/
theorem takes {errand : Errand} (h : Together idle s) (hsome : s.state.pending ≠ [])
    (hlayout : s'.layout = s.layout.after thread
      { state := s.state.take, outcome := .proceed (.call errand s.state.pending), signals := [],
        notes := [.taken errand s.state.pending] })
    (hreturns : s'.returns = s.returns) : Together idle s' := by
  have hstate : s'.state = s.state.take := congrArg Layout.state hlayout
  have hnotes : s'.view.notes = (thread, .taken errand s.state.pending) :: s.view.notes :=
    congrArg Layout.notes hlayout
  cases h with
  | untaken _ round pending same delivered returns =>
    refine .busy thread (by rw [hstate]; rfl) (by rw [hstate]; exact round)
      (by rw [hstate]; rfl) ?_ ?_ (hreturns.trans returns)
    · rw [taken, hnotes, told_cons, ← pending, ← same]
      rfl
    · rw [deliveries, hnotes]
      exact delivered
  | busy _ _ _ pending | ended _ _ _ pending => exact absurd pending hsome

/-- The flush that has delivered the batch records it, and is the first to return. -/
theorem records {size : Nat} {accepted : Bool} (h : Together idle s)
    (hidle : taken idle = (deliveries idle).map Delivery.load) (hledger : Ledger s.layout)
    (hplace : placeIn s.threads thread = some (.record (.flush none) size accepted))
    (hlayout : s'.layout = s.layout.after thread
      (stepRecord s.state (.flush none) size accepted))
    (hreturns : s'.returns = s.returns ++
      (endedBy thread (stepRecord s.state (.flush none) size accepted) s.journal).toList)
    {call : Call (monitor α)} (hopen : openCall thread s.journal = some call) :
    Together idle s' := by
  rw [← System.place_layout] at hplace
  obtain ⟨batch, hflushing, carried, ⟨rfl, _⟩, _⟩ := hledger.flight.of_carries hplace rfl
  have hbatches : taken s = (deliveries s).map Delivery.load ++ [(thread, batch)] :=
    hledger.batches.trans (by rw [carried]; rfl)
  have hstate : s'.state = s.state.complete batch.length accepted := congrArg Layout.state hlayout
  have hnotes : s'.view.notes = (thread, .recorded batch.length accepted) :: s.view.notes :=
    congrArg Layout.notes hlayout
  have houtstanding : outstanding s.view.notes = [(thread, batch)] := carried
  cases h with
  | untaken rests =>
    have hrests : s.state.flushing = true := hflushing
    rw [rests] at hrests
    contradiction
  | ended _ rests =>
    have hrests : s.state.flushing = true := hflushing
    rw [rests] at hrests
    contradiction
  | busy carrier _ round pending same delivered returns =>
    rw [same, delivered, hidle] at hbatches
    obtain ⟨rfl, rfl⟩ := Prod.mk.inj (List.singleton_inj.1 (List.append_cancel_left hbatches))
    have hended : endedBy carrier (stepRecord s.state (.flush none) idle.state.pending.length
        accepted) s.journal = some (call.record [.recorded idle.state.pending.length accepted],
          .flushed (.ok (.ofDelivery idle.state.pending.length accepted))) := by
      rw [endedBy, hopen]
      rfl
    rw [hended, returns] at hreturns
    refine .ended carrier (by rw [hstate]; rfl) ?_ (by rw [hstate]; exact pending) ?_ hreturns
      (by rintro _ ⟨⟩)
    · rw [hstate, ← round]
      rfl
    · rw [deliveries, hnotes]
      simp only [completed, houtstanding]
      rw [← delivered]
      simp [deliveries]

/-- A delivery under way is the one that is awaited. -/
theorem round_of_flushing (h : Together idle s) (hflushing : s.state.flushing = true) :
    s.state.round = idle.state.round := by
  cases h with
  | untaken rests =>
    rw [rests] at hflushing
    contradiction
  | busy _ _ round => exact round
  | ended _ rests =>
    rw [rests] at hflushing
    contradiction

/-- A flush that begins waits for the delivery, or makes it, or finds nothing left. -/
theorem enters (h : Together idle s) (hsome : idle.state.pending ≠ [])
    (hlayout : s'.layout = s.layout.after thread (stepEnter s.state s.now (.flush none)))
    (hreturns : s'.returns = s.returns ++
      (endedBy thread (stepEnter s.state s.now (.flush none)) s.journal).toList)
    {call : Call (monitor α)} (hopen : openCall thread s.journal = some call) :
    Together idle s' ∧ ∀ place,
      (Phase.ofOutcome (M := monitor α)
        (stepEnter s.state s.now (.flush none)).outcome).place? = some place →
          place.FlushesIn idle.state.round := by
  by_cases hflushing : s.state.flushing = true
  · simp only [stepEnter, hflushing, if_true] at hlayout hreturns ⊢
    refine ⟨h.quiet hlayout hreturns (by rintro _ ⟨⟩) rfl rfl rfl rfl rfl, ?_⟩
    rintro _ ⟨⟩
    exact ⟨rfl, h.round_of_flushing hflushing⟩
  · have hrests := eq_false_of_ne_true hflushing
    by_cases hempty : s.state.pending.isEmpty = true
    · simp only [stepEnter, hrests, hempty, Bool.false_eq_true, if_false, if_true]
        at hlayout hreturns ⊢
      have hover := h.round_ne hsome hrests (List.isEmpty_iff.1 hempty)
      exact ⟨h.returned hover hlayout hreturns rfl rfl rfl (.inr rfl) hopen, by rintro _ ⟨⟩⟩
    · simp only [stepEnter, hrests, hempty, Bool.false_eq_true, if_false] at hlayout hreturns ⊢
      refine ⟨h.takes (mt List.isEmpty_iff.2 hempty) hlayout (hreturns.trans ?_), ?_⟩
      · exact List.append_nil _
      · rintro _ ⟨⟩
        rfl

/-- A flush that waits goes on waiting, or has joined the delivery. -/
theorem joins (h : Together idle s)
    (hlayout : s'.layout = s.layout.after thread
      (stepJoin s.state s.now (.flush none) idle.state.round))
    (hreturns : s'.returns = s.returns ++
      (endedBy thread (stepJoin s.state s.now (.flush none) idle.state.round) s.journal).toList)
    {call : Call (monitor α)} (hopen : openCall thread s.journal = some call) :
    Together idle s' ∧ ∀ place,
      (Phase.ofOutcome (M := monitor α)
        (stepJoin s.state s.now (.flush none) idle.state.round).outcome).place? = some place →
          place.FlushesIn idle.state.round := by
  by_cases hround : s.state.round = idle.state.round
  · simp only [stepJoin, hround, if_true] at hlayout hreturns ⊢
    refine ⟨h.quiet hlayout hreturns (by rintro _ ⟨⟩) rfl rfl rfl rfl rfl, ?_⟩
    rintro _ ⟨⟩
    exact ⟨rfl, rfl⟩
  · simp only [stepJoin, hround, if_false] at hlayout hreturns ⊢
    exact ⟨h.returned hround hlayout hreturns rfl rfl rfl (.inl rfl) hopen, by rintro _ ⟨⟩⟩

end Together

/-! ### Whole runs -/

section Runs

variable (h : (system (.empty limit interval limit_pos interval_pos) now).Reachable idle)
include h

theorem Idle.rests (hidle : Idle idle) : idle.state.flushing = false := by
  apply eq_false_of_ne_true
  intro hflushing
  obtain ⟨thread, ⟨position, hplace, hcarries⟩, _⟩ := (flushing_iff h).1 hflushing
  rcases hidle.place hplace with rfl | rfl <;> contradiction

theorem Idle.taken_eq (hidle : Idle idle) : taken idle = (deliveries idle).map Delivery.load := by
  rw [Buffer.taken_eq h, inFlight_eq_nil h (hidle.rests h), List.append_nil]

/-- A step of the periodic trigger at rest, or of a flush, leaves the flushes together. -/
theorem Together.next (hidle : Idle idle) (hsome : idle.state.pending ≠ [])
    (hs : idle.Reachable s) (htogether : Together idle s) {thread wakee : Nat} {input : Input}
    (hplaces : ∀ position, placeIn s.threads thread = some position →
      position.FlushesIn idle.state.round)
    (hinput : input ≠ .tick) (hnext : s.next (.step thread input wakee) = some s') :
    Together idle s' ∧ ∀ place, placeIn s'.threads thread = some place →
      place.FlushesIn idle.state.round := by
  obtain ⟨position, move, hplace, moves, hlayout⟩ := System.moves_of_next hnext
  have hreturns := System.returns_of_next hnext hplace moves
  have hmoved := System.placeIn_of_layout hlayout
  have hflushes := hplaces position hplace
  have hopened : position.purpose ≠ .tick → ∃ call, openCall thread s.journal = some call := by
    intro hpurpose
    obtain ⟨call, hopen, _⟩ := exists_openCall (h.trans hs) hplace hpurpose
    exact ⟨call, hopen⟩
  rw [hmoved]
  cases position with
  | launch =>
    cases moves
    refine ⟨htogether.quiet hlayout hreturns (by rintro _ ⟨⟩) rfl rfl rfl ?_ rfl, ?_⟩
    · simp [Move.record, taken?, taken]
    · rintro _ ⟨⟩
      trivial
  | select =>
    simp only [step, stepSelect] at moves
    split at moves
    · contradiction
    · split at moves
      · cases moves
        refine ⟨htogether.quiet hlayout hreturns (by rintro _ ⟨⟩) rfl rfl rfl ?_ rfl,
          by rintro _ ⟨⟩⟩
        simp [Move.record, taken?, taken]
      · contradiction
    · contradiction
  | enter errand =>
    have herrand : errand = .flush none := hflushes
    subst herrand
    cases moves
    obtain ⟨call, hopen⟩ := hopened (by rintro ⟨⟩)
    exact htogether.enters hsome hlayout hreturns hopen
  | join errand round =>
    obtain ⟨rfl, rfl⟩ : errand = .flush none ∧ round = idle.state.round := hflushes
    cases moves
    obtain ⟨call, hopen⟩ := hopened (by rintro ⟨⟩)
    exact htogether.joins hlayout hreturns hopen
  | call errand batch =>
    cases moves
    refine ⟨htogether.quiet hlayout hreturns (by rintro _ ⟨⟩) rfl rfl rfl ?_ rfl, ?_⟩
    · simp [stepCall, Move.record, taken?, taken]
    · rintro _ ⟨⟩
      exact hflushes
  | deliver errand batch =>
    cases input <;> cases moves
    refine ⟨htogether.quiet hlayout hreturns (by rintro _ ⟨⟩) rfl rfl rfl ?_ rfl, ?_⟩
    · simp [stepDeliver, Move.record, taken?, taken]
    · rintro _ ⟨⟩
      exact hflushes
  | record errand size accepted =>
    have herrand : errand = .flush none := hflushes
    subst herrand
    cases moves
    obtain ⟨call, hopen⟩ := hopened (by rintro ⟨⟩)
    exact ⟨htogether.records (hidle.taken_eq h) (ledger (h.trans hs)) hplace hlayout hreturns hopen,
      by rintro _ ⟨⟩⟩
  | append | recheck | stop | await | inspect => exact absurd hflushes id

/-- However far the flushes have come, they have come that far together. -/
theorem together_of_reachableBy (hidle : Idle idle) (hsome : idle.state.pending ≠ [])
    (hs : idle.ReachableBy FlushesOnly s) :
    Together idle s ∧ ∀ thread position, placeIn s.threads thread = some position →
      position.FlushesIn idle.state.round := by
  induction hs with
  | start =>
    refine ⟨.untaken (hidle.rests h) rfl rfl rfl rfl rfl, ?_⟩
    intro thread position hplace
    rcases hidle.place hplace with rfl | rfl <;> trivial
  | @next s s' event hs hallowed hnext ih =>
    obtain ⟨htogether, hplaces⟩ := ih
    rcases (System.next_eq_some_iff.1 hnext).cases_layout with
      ⟨hreturns, hlayout⟩ | ⟨caller, request, rfl, hfree, hreturns, hlayout⟩ |
        ⟨mover, input, wakee, position, move, rfl, hplace, moves, hlayout⟩
    · have hstate : s'.state = s.state := congrArg Layout.state hlayout
      have hnotes : s'.view.notes = s.view.notes := congrArg Layout.notes hlayout
      refine ⟨htogether.of_same hstate hnotes hreturns, ?_⟩
      rw [← System.place_layout, hlayout, System.place_layout]
      exact hplaces
    · have hstate : s'.state = s.state := congrArg Layout.state hlayout
      have hnotes : s'.view.notes = s.view.notes := congrArg Layout.notes hlayout
      refine ⟨htogether.of_same hstate hnotes hreturns, ?_⟩
      have hrequest : request = .flush := hallowed
      subst hrequest
      intro thread position hplace
      rw [← System.place_layout, hlayout] at hplace
      rcases cases_of_update hplace with ⟨_, hnew⟩ | ⟨_, hold⟩
      · cases hnew
        rfl
      · rw [System.place_layout] at hold
        exact hplaces thread position hold
    · obtain ⟨hafter, hmoved⟩ :=
        htogether.next h hidle hsome hs.reachable (hplaces mover) hallowed hnext
      refine ⟨hafter, ?_⟩
      intro thread place hthere
      by_cases hthread : thread = mover
      · subst hthread
        exact hmoved place hthere
      · rw [System.placeIn_of_layout_of_ne hlayout hthread] at hthere
        exact hplaces thread place hthere

/-- Since the buffer was idle the sink has been called once at most, with all that was pending. -/
theorem sinkCalls_of_together (hidle : Idle idle) (hs : idle.Reachable s)
    (htogether : Together idle s) :
    sinkCalls s = sinkCalls idle ∨
      ∃ thread, sinkCalls s = sinkCalls idle ++ [(thread, idle.state.pending)] := by
  have hbefore := (sink_of_rests h (hidle.rests h)).1
  cases htogether with
  | untaken rests _ _ _ same =>
    left
    rw [(sink_of_rests (h.trans hs) rests).1, same, hbefore]
  | busy carrier _ _ _ same =>
    obtain ⟨new, hnew⟩ : sinkCalls idle <+: sinkCalls s := told_isPrefix _ hs.notes_isSuffix
    have hcalls : sinkCalls s <+: taken s :=
      ((ledger (h.trans hs)).flight.prefixes (ledger (h.trans hs)).batches).1
    rw [same, hidle.taken_eq h, ← hbefore, ← hnew, List.prefix_append_right_inj] at hcalls
    rw [← hnew]
    cases new with
    | nil => exact .inl (List.append_nil _)
    | cons first rest =>
      obtain ⟨rfl, hrest⟩ := List.cons_prefix_cons.1 hcalls
      rw [List.prefix_nil.1 hrest]
      exact .inr ⟨carrier, rfl⟩
  | ended carrier rests _ _ same =>
    right
    refine ⟨carrier, ?_⟩
    rw [(sink_of_rests (h.trans hs) rests).1, same, List.map_append, hbefore]
    rfl

/-- Where nobody is in a call, no call is open. -/
theorem Idle.openCall_eq_none (hidle : Idle idle) (thread : Nat) :
    openCall thread idle.journal = none := by
  cases hopen : openCall thread idle.journal with
  | none => rfl
  | some call =>
    obtain ⟨position, hplace, hpurpose⟩ := place_of_openCall h hopen
    rcases hidle.place hplace with rfl | rfl <;>
      cases hrequest : call.request <;> rw [hrequest] at hpurpose <;> contradiction

/-- Where no call is open, a thread's calls since the buffer was idle are those that have returned
since. -/
theorem requests_of_returns (hidle : Idle idle) (hs : idle.Reachable s)
    (hclosed : ∀ thread, openCall thread s.journal = none)
    {new : List (Call (monitor α) × Reply α)} (hreturns : s.returns = idle.returns ++ new)
    (thread : Nat) :
    s.requests thread =
      idle.requests thread ++ (new.filter (·.1.thread = thread)).map (·.1.request) := by
  rw [(OneByOne.of_reachable h).order thread, (OneByOne.of_reachable (h.trans hs)).order thread,
    hidle.openCall_eq_none h, hclosed, System.returnsOf, System.returnsOf, hreturns]
  simp

/-- The first flush to return is the one that has delivered what was pending. -/
theorem oneDelivery_of_returned (hidle : Idle idle) (hs : idle.Reachable s)
    (htogether : Together idle s) (hmore : s.returns ≠ idle.returns) : OneDelivery idle s := by
  cases htogether with
  | untaken _ _ _ _ _ returns => exact absurd returns hmore
  | busy _ _ _ _ _ _ returns => exact absurd returns hmore
  | @ended carrier accepted call later rests _ _ same returns others =>
    obtain ⟨hcalls, hreturned⟩ := sink_of_rests (h.trans hs) rests
    obtain ⟨hcalls', hreturned'⟩ := sink_of_rests h (hidle.rests h)
    refine ⟨carrier, accepted, call, later, ?_, ?_, returns, others⟩
    · rw [hcalls, hcalls', same, List.map_append]
      rfl
    · rw [hreturned, hreturned', same]

/-! ### Every flush can return -/

omit h

/-- How many steps a thread at this place has at most to take for its flush. -/
def Position.stepsLeft : Position α → Nat
  | .enter _ => 4
  | .call _ _ => 3
  | .deliver _ _ => 2
  | .record _ _ _ | .join _ _ => 1
  | _ => 0

/-- A flush that need not wait has a step to take, and then fewer are left. -/
theorem exists_lighter {b : Buffer α} {moment : Instant} {position : Position α} {round : Nat}
    (hflushes : position.FlushesIn round) (hleft : 0 < position.stepsLeft)
    (henter : ∀ errand, position = .enter errand → b.flushing = false)
    (hjoin : ∀ errand joined, position = .join errand joined → b.round ≠ joined) :
    ∃ input move, input ≠ .tick ∧ (monitor α).step b moment position input = some move ∧
      (Phase.ofOutcome (M := monitor α) move.outcome).weigh Position.stepsLeft <
        position.stepsLeft := by
  cases position with
  | enter errand =>
    have herrand : errand = .flush none := hflushes
    subst herrand
    refine ⟨.nothing, _, by rintro ⟨⟩, rfl, ?_⟩
    simp only [stepEnter, henter _ rfl, Bool.false_eq_true, if_false]
    split
    · exact Nat.succ_pos 3
    · exact Nat.lt_succ_self 3
  | join errand joined =>
    obtain ⟨rfl, _⟩ : errand = .flush none ∧ joined = round := hflushes
    refine ⟨.nothing, _, by rintro ⟨⟩, rfl, ?_⟩
    simp only [stepJoin, hjoin _ _ rfl, if_false]
    exact Nat.succ_pos 0
  | call errand batch =>
    refine ⟨.nothing, _, by rintro ⟨⟩, rfl, Nat.lt_succ_self 2⟩
  | deliver errand batch =>
    refine ⟨.outcome .accepted, _, by rintro ⟨⟩, rfl, Nat.lt_succ_self 1⟩
  | record errand size accepted =>
    have herrand : errand = .flush none := hflushes
    subst herrand
    refine ⟨.nothing, _, by rintro ⟨⟩, rfl, Nat.lt_succ_self 0⟩
  | _ => contradiction

include h

/-- As long as a flush has not returned, some thread can bring the flushes closer to their end. -/
theorem exists_lighter_next (hidle : Idle idle) (hsome : idle.state.pending ≠ [])
    (hs : idle.ReachableBy FlushesOnly s) {thread : Nat} {position : Position α}
    (hplace : placeIn s.threads thread = some position) (hleft : 0 < position.stepsLeft) :
    ∃ event s', FlushesOnly event ∧ s.next event = some s' ∧
      weightOf Position.stepsLeft s'.threads < weightOf Position.stepsLeft s.threads := by
  have hreach := h.trans hs.reachable
  obtain ⟨_, hplaces⟩ := together_of_reachableBy h hidle hsome hs
  -- whoever carries the batch goes first; where nobody does, everybody is awake
  have hmover : ∃ mover place phase, placeIn s.threads mover = some place ∧
      0 < place.stepsLeft ∧ s.threads[mover]? = some phase ∧ phase.position? = some place ∧
      (∀ errand, place = .enter errand → s.state.flushing = false) ∧
      ∀ errand joined, place = .join errand joined → s.state.round ≠ joined := by
    by_cases hflushing : s.state.flushing = true
    · obtain ⟨carrier, ⟨place, hcarrier, hcarries⟩, _⟩ := (flushing_iff hreach).1 hflushing
      have hwaits : place.waits = false := by
        cases place <;> first | rfl | contradiction
      obtain ⟨phase, here, awake⟩ := awake_of_place hreach hcarrier (.inl hwaits)
      refine ⟨carrier, place, phase, hcarrier, ?_, here, awake, ?_, ?_⟩
      · cases place <;> first | exact Nat.succ_pos _ | contradiction
      · rintro errand rfl
        contradiction
      · rintro errand joined rfl
        contradiction
    · have hrests := eq_false_of_ne_true hflushing
      obtain ⟨phase, here, awake⟩ := awake_of_place hreach hplace (.inr hrests)
      refine ⟨thread, position, phase, hplace, hleft, here, awake, fun _ _ => hrests, ?_⟩
      rintro errand joined rfl
      rcases joins_of_place hreach hplace with hover | ⟨_, hbusy⟩
      · omega
      · exact absurd hbusy hflushing
  obtain ⟨mover, place, phase, hthere, hsteps, here, awake, henter, hjoin⟩ := hmover
  obtain ⟨input, move, hinput, moves, hlighter⟩ :=
    exists_lighter (hplaces mover place hthere) hsteps henter hjoin
  obtain ⟨after, hnext⟩ := exists_next here awake moves 0
  exact ⟨.step mover input 0, after, hinput, hnext,
    weightOf_next Position.stepsLeft here awake moves hlighter hnext⟩

/-- From wherever the flushes have come to, they can all return. -/
theorem exists_all_returned (hidle : Idle idle) (hsome : idle.state.pending ≠ [])
    (hs : idle.ReachableBy FlushesOnly s) :
    ∃ done, s.ReachableBy FlushesOnly done ∧ ∀ thread, openCall thread done.journal = none := by
  induction hweight : weightOf Position.stepsLeft s.threads using Nat.strongRecOn
    generalizing s with
  | _ weight ih =>
    by_cases hleft : ∃ thread position, placeIn s.threads thread = some position ∧
        0 < position.stepsLeft
    · obtain ⟨thread, position, hplace, hsteps⟩ := hleft
      obtain ⟨event, after, hallowed, hnext, hlighter⟩ :=
        exists_lighter_next h hidle hsome hs hplace hsteps
      obtain ⟨done, hdone, hclosed⟩ := ih _ (hweight ▸ hlighter) (hs.next hallowed hnext) rfl
      exact ⟨done, (System.ReachableBy.next .start hallowed hnext).trans hdone, hclosed⟩
    · refine ⟨s, .start, ?_⟩
      intro thread
      cases hopen : openCall thread s.journal with
      | none => rfl
      | some call =>
        obtain ⟨position, hplace, hpurpose⟩ := place_of_openCall (h.trans hs.reachable) hopen
        have hflushes := (together_of_reachableBy h hidle hsome hs).2 thread position hplace
        have hrests : position = .launch ∨ position = .select := by
          cases position with
          | launch => exact .inl rfl
          | select => exact .inr rfl
          | enter | join | call | deliver | record =>
            exact absurd ⟨thread, _, hplace, Nat.succ_pos _⟩ hleft
          | append | recheck | stop | await | inspect => exact absurd hflushes id
        rcases hrests with rfl | rfl <;>
          cases hrequest : call.request <;> rw [hrequest] at hpurpose <;> contradiction

end Runs

end New

/-- Whatever threads and the sink do, a buffer flushes exactly while one thread is between taking a
batch and recording its delivery, and otherwise no thread is. The sink returns from a call before
the next one begins. However its call ends, its thread goes on to record it, and that takes the flag
back. In particular, let nobody use the buffer, some items be pending, and nothing begin after that
but flushes. Then the sink is called once at most, with all that is pending. No flush returns before
the sink has, and of those that have returned one has delivered that batch and all others have
joined it or found nothing. They can all return; and where some have begun and none is left open,
they all have. -/
theorem single_flight {limit : Nat} {interval : Duration} {limit_pos : 0 < limit}
    {interval_pos : 0 < interval.nanos} {now : Instant} {s : System (monitor α)}
    (h : (system (.empty limit interval limit_pos interval_pos) now).Reachable s) :
    (s.state.flushing = true ↔ ∃! thread, Carrying s thread) ∧
      (s.state.flushing = false → ∀ thread, ¬ Carrying s thread) ∧
      ((sinkReturns s).map Delivery.load <+: sinkCalls s ∧
        (sinkCalls s).length ≤ (sinkReturns s).length + 1) ∧
      (∀ thread errand batch, placeIn s.threads thread = some (.deliver errand batch) →
        ∀ outcome wakee, ∃ s', s.next (.step thread (.outcome outcome) wakee) = some s' ∧
          placeIn s'.threads thread = some (.record errand batch.length outcome.isAccepted)) ∧
      (∀ thread errand size accepted,
        placeIn s.threads thread = some (.record errand size accepted) →
          ∀ input wakee, ∃ s', s.next (.step thread input wakee) = some s' ∧
            s'.state.flushing = false ∧ s'.state.round = s.state.round + 1) ∧
      (Idle s → s.state.pending ≠ [] → ∀ s', s.ReachableBy FlushesOnly s' →
        (sinkCalls s' = sinkCalls s ∨
          ∃ thread, sinkCalls s' = sinkCalls s ++ [(thread, s.state.pending)]) ∧
        (s'.returns ≠ s.returns → OneDelivery s s') ∧
        (∃ done, s'.ReachableBy FlushesOnly done ∧
          ∀ thread, openCall thread done.journal = none) ∧
        ((∀ thread, openCall thread s'.journal = none) →
          (∃ thread, s'.requests thread ≠ s.requests thread) →
            OneDelivery s s' ∧ ∀ new, s'.returns = s.returns ++ new → ∀ thread,
              s'.requests thread =
                s.requests thread ++ (new.filter (·.1.thread = thread)).map (·.1.request))) := by
  refine ⟨flushing_iff h, not_carrying_of_rests h, sinkCalls_alternate h,
    fun _ _ _ hplace => exists_returned h hplace, fun _ _ _ _ hplace => exists_recorded h hplace, ?_⟩
  intro hidle hsome s' hs
  obtain ⟨htogether, _⟩ := together_of_reachableBy h hidle hsome hs
  have hreach := hs.reachable
  refine ⟨sinkCalls_of_together h hidle hreach htogether,
    oneDelivery_of_returned h hidle hreach htogether, exists_all_returned h hidle hsome hs, ?_⟩
  rintro hclosed ⟨thread, hbegun⟩
  refine ⟨oneDelivery_of_returned h hidle hreach htogether ?_, fun new hnew thread =>
    requests_of_returns h hidle hreach hclosed hnew thread⟩
  -- where nothing has returned and nothing is open, nothing has begun
  intro hsame
  rw [requests_of_returns h hidle hreach hclosed (hsame.trans (List.append_nil _).symm)] at hbegun
  exact hbegun (List.append_nil _)

/-- Two items are pending, and nobody uses the buffer. -/
def twoPending : List (Event (monitor Nat)) :=
  [.arrive, .arrive, .arrive, .step 0 .nothing 0, .call 1 (.add 1), .step 1 .nothing 0,
    .call 1 (.add 2), .step 1 .nothing 0]

/-- Three threads flush: one delivers, to a sink that breaks off, one joins, and one comes late. -/
def threeFlushes : List (Event (monitor Nat)) :=
  [.call 2 .flush, .call 3 .flush, .step 3 .nothing 0, .step 2 .nothing 0, .step 3 .nothing 0,
    .step 3 (.outcome (.crashed none)) 0, .step 3 .nothing 0, .call 1 .flush, .step 1 .nothing 0,
    .step 2 .nothing 0]

theorem single_flight_threeFlushes :
    ∃ s s', (system (.empty 9 ⟨1, by decide⟩ (by decide) (by decide)) .midrange).run
        twoPending = some s ∧ s.run threeFlushes = some s' ∧
      sinkCalls s' = [(3, [1, 2])] ∧
      (s'.returnsOf 1).map (·.2.flush?) = [none, none, some .empty] ∧
      (s'.returnsOf 2).map (·.2.flush?) = [some .joined] ∧
      (s'.returnsOf 3).map (·.2.flush?) = [some (.failed 2)] ∧ OneDelivery s s' := by
  have hruns : ((system (.empty 9 ⟨1, by decide⟩ (by decide) (by decide)) .midrange).run
      twoPending).bind (fun s => (s.run threeFlushes).map fun s' =>
        decide (Idle s ∧ s.state.pending = [1, 2] ∧ s.returns.length = 2 ∧ s'.returns.length = 5 ∧
          sinkCalls s' = [(3, [1, 2])] ∧
          (s'.returnsOf 1).map (·.2.flush?) = [none, none, some .empty] ∧
          (s'.returnsOf 2).map (·.2.flush?) = [some .joined] ∧
          (s'.returnsOf 3).map (·.2.flush?) = [some (.failed 2)])) = some true := by
    decide +kernel
  simp only [Option.bind_eq_some_iff, Option.map_eq_some_iff, decide_eq_true_eq] at hruns
  obtain ⟨s, hbefore, s', hafter, hidle, hpending, hfew, hmany, hcalls, hfirst, hsecond,
    hthird⟩ := hruns
  have hallowed : ∀ event ∈ threeFlushes, FlushesOnly event := by
    simp [threeFlushes, FlushesOnly]
  have hsome : s.state.pending ≠ [] := by
    rw [hpending]
    exact List.cons_ne_nil _ _
  have hmore : s'.returns ≠ s.returns := by
    intro hsame
    rw [hsame, hfew] at hmany
    contradiction
  obtain ⟨_, hone, _⟩ := (single_flight (.run .start hbefore)).2.2.2.2.2 hidle hsome s'
    (System.ReachableBy.run .start hallowed hafter)
  exact ⟨s, s', hbefore, hafter, hcalls, hfirst, hsecond, hthird, hone hmore⟩

end Backpressure.Buffer
