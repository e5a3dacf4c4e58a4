import Backpressure.Proofs.Buffer.Completion
import Backpressure.Proofs.Buffer.Calls
import Backpressure.Proofs.Buffer.SingleFlight

/-!
# Dropping a buffer

Whoever drops a buffer has it to himself, but for the periodic trigger, which may be in the middle
of a delivery. He ends the trigger first and flushes then, so that his flush is his own, and nothing
is left behind.
-/

namespace Backpressure.Buffer

variable {α : Type}

/-- Nothing begins any more. -/
def NoCalls : Event (monitor α) → Prop
  | .call _ _ => False
  | _ => True

/-! ### The life of the periodic trigger -/

/-- The periodic trigger is the first thread, and it is there until it ends. -/
structure Ticking (l : Layout (monitor α)) : Prop where
  /-- Nobody else is there for it, and it is there no more once it has ended. -/
  alone : ∀ {thread position}, l.place thread = some position → position.purpose = .tick →
    thread = 0 ∧ (l.state.ticker = .running ∨ l.state.ticker = .stopping)
  /-- It is there until it has ended. -/
  lives : l.state.ticker = .running ∨ l.state.ticker = .stopping →
    ∃ position, l.place 0 = some position ∧ position.purpose = .tick

namespace Ticking

variable {l l' : Layout (monitor α)} {allowed : Event (monitor α) → Prop}

/-- A call begins for something else. -/
theorem call {thread : Nat} {request : Request α} {moment : Instant} (h : Ticking l)
    (free : l.place thread = none) :
    Ticking { l with place := Function.update l.place thread (some (start request moment)) } := by
  constructor
  · intro t position hplace hpurpose
    rcases cases_of_update hplace with ⟨_, hnew⟩ | ⟨_, hold⟩
    · cases hnew
      rw [purpose_start] at hpurpose
      cases request <;> contradiction
    · exact h.alone hold hpurpose
  · intro hticker
    obtain ⟨position, hplace, hpurpose⟩ := h.lives hticker
    have hne : (0 : Nat) ≠ thread := by
      rintro rfl
      rw [free] at hplace
      contradiction
    exact ⟨position, (Function.update_of_ne hne _ _).trans hplace, hpurpose⟩

/-- The trigger ends by the step that says so. -/
theorem move {thread : Nat} {input : Input} {position : Position α} {moment : Instant}
    {move : Step α} (h : Ticking l) (here : l.place thread = some position)
    (moves : (monitor α).step l.state moment position input = some move) :
    Ticking (l.after thread move) := by
  have hticker := ticker_of_moves moves
  constructor
  · intro t place hplace hpurpose
    -- the thread that is there for the trigger was there for it before
    have hbefore : ∃ before, l.place t = some before ∧ before.purpose = .tick ∧
        (t = thread → (Phase.ofOutcome (M := monitor α) move.outcome).place? = some place) := by
      rcases cases_of_update hplace with ⟨rfl, hnew⟩ | ⟨ht, hold⟩
      · exact ⟨position, here, ((effect_of_moves moves).purpose hnew).symm.trans hpurpose,
          fun _ => hnew⟩
      · exact ⟨place, hold, hpurpose, fun hsame => absurd hsame ht⟩
    obtain ⟨before, hold, htick, hgoes⟩ := hbefore
    obtain ⟨ht, hlives⟩ := h.alone hold htick
    refine ⟨ht, ?_⟩
    change move.state.ticker = .running ∨ move.state.ticker = .stopping
    rcases hticker with hsame | ⟨_, _, hstopping⟩ | ⟨_, hended, _⟩ | ⟨rfl, _, _, hexit⟩
    · rw [hsame]
      exact hlives
    · exact .inr hstopping
    · rw [hended] at hlives
      rcases hlives with hrunning | hstopping <;> contradiction
    · have hthread : thread = 0 := (h.alone here rfl).1
      have hnone := hgoes (ht.trans hthread.symm)
      rw [hexit] at hnone
      contradiction
  · intro hafter
    change move.state.ticker = .running ∨ move.state.ticker = .stopping at hafter
    have hbefore : l.state.ticker = .running ∨ l.state.ticker = .stopping := by
      rcases hticker with hsame | ⟨_, hrunning, _⟩ | ⟨_, _, hstopped⟩ | ⟨_, hstopping, _⟩
      · rw [← hsame]
        exact hafter
      · exact .inl hrunning
      · rw [hstopped] at hafter
        rcases hafter with hrunning | hstopping <;> contradiction
      · exact .inr hstopping
    obtain ⟨place, hplace, htick⟩ := h.lives hbefore
    by_cases hthread : (0 : Nat) = thread
    · subst hthread
      rw [here] at hplace
      cases hplace
      have hgoes : ∃ next, (Phase.ofOutcome (M := monitor α) move.outcome).place? = some next := by
        cases houtcome : move.outcome with
        | proceed next => exact ⟨next, rfl⟩
        | sleep condition wakeAt next => exact ⟨next, rfl⟩
        | reply reply =>
          have hallows := allows_of_moves moves houtcome
          rw [htick] at hallows
          exact absurd hallows id
        | exit =>
          have hleads := leads_of_moves moves
          rw [houtcome] at hleads
          cases hleads with
          | exit _ hended =>
            rw [hended] at hafter
            rcases hafter with hrunning | hstopping <;> contradiction
      obtain ⟨next, hnext⟩ := hgoes
      refine ⟨next, ?_, ((effect_of_moves moves).purpose hnext).trans htick⟩
      change Function.update l.place 0 _ 0 = some next
      rw [Function.update_self]
      exact hnext
    · exact ⟨place, (Function.update_of_ne hthread _ _).trans hplace, htick⟩

theorem step (h : Ticking l) (hstep : l.Step allowed l') : Ticking l' := by
  cases hstep with
  | call asked free => exact h.call free
  | move asked here moves => exact h.move here moves

/-- A new buffer comes with its periodic trigger. -/
theorem of_reachable {b : Buffer α} {now : Instant} {s : System (monitor α)}
    (hrunning : b.ticker = .running) (h : (system b now).Reachable s) : Ticking s.layout := by
  refine h.reachableBy.layout.invariant (P := Ticking) ⟨?_, ?_⟩ fun hbefore hstep =>
    hbefore.step hstep
  · intro thread position hplace _
    rw [System.place_layout] at hplace
    cases thread with
    | zero => exact ⟨rfl, .inl hrunning⟩
    | succ n => contradiction
  · intro _
    exact ⟨.launch, rfl, rfl⟩

end Ticking

/-! ### A drop -/

/-- How far a drop has come. -/
inductive Dropping (called : System (monitor α)) (thread : Nat) (s : System (monitor α)) : Prop
  /-- It is under way, and only the periodic trigger may be in the buffer with it. -/
  | lasts {position : Position α} (returns : s.returns = called.returns)
      (here : placeIn s.threads thread = some position) (drops : position.purpose = .shutdown)
      (undisturbed : Undisturbed s.state position)
      (others : ∀ t place, placeIn s.threads t = some place → t ≠ thread → place.purpose = .tick)
  /-- It has returned, having flushed itself, and the buffer is left for good. -/
  | ended {call : Call (monitor α)} {flush : Flush}
      (returns : s.returns = called.returns ++ [(call, .flushed (.ok flush))])
      (made : call.thread = thread) (own : flush ≠ .joined) (settled : Settled s.state)
      (nobody : ∀ t, placeIn s.threads t = none)

/-- While the periodic trigger lives, a shutdown that nobody has disturbed has not flushed yet. -/
theorem Undisturbed.before {b b' : Buffer α} {position : Position α} (h : Undisturbed b position)
    (hlives : b.ticker ≠ .stopped) : Undisturbed b' position := by
  cases position with
  | enter => exact absurd h hlives
  | call | deliver | record => exact absurd h.1 hlives
  | join => exact absurd h id
  | append | recheck | stop | await | launch | select | inspect => trivial

section New

variable {limit : Nat} {interval : Duration} {limit_pos : 0 < limit}
  {interval_pos : 0 < interval.nanos} {now : Instant} {called s s' : System (monitor α)}
  {thread : Nat}
  (h : (system (.empty limit interval limit_pos interval_pos) now).Reachable s)
include h

theorem ticking : Ticking s.layout := Ticking.of_reachable rfl h

/-- Where the periodic trigger is over, whoever is in the buffer is there for something else. -/
theorem purpose_ne_tick (hstopped : s.state.ticker = .stopped) {t : Nat} {position : Position α}
    (hplace : placeIn s.threads t = some position) : position.purpose ≠ .tick := by
  intro htick
  rw [← System.place_layout] at hplace
  have hlives : s.state.ticker = .running ∨ s.state.ticker = .stopping :=
    ((ticking h).alone hplace htick).2
  rw [hstopped] at hlives
  rcases hlives with hrunning | hstopping <;> contradiction

/-- A drop that is about to flush finds no delivery under way. -/
theorem rests_of_enter {errand : Errand}
    (here : placeIn s.threads thread = some (.enter errand)) (hstopped : s.state.ticker = .stopped)
    (others : ∀ t place, placeIn s.threads t = some place → t ≠ thread → place.purpose = .tick) :
    s.state.flushing = false := by
  apply eq_false_of_ne_true
  intro hflushing
  obtain ⟨carrier, ⟨place, hplace, hcarries⟩, _⟩ := (flushing_iff h).1 hflushing
  refine purpose_ne_tick h hstopped hplace (others carrier place hplace ?_)
  rintro rfl
  rw [here] at hplace
  cases hplace
  contradiction

/-- A step of the drop itself leads on, or to its return. -/
theorem Dropping.own {wakee : Nat} {input : Input} {position : Position α}
    (hnext : s.next (.step thread input wakee) = some s') (returns : s.returns = called.returns)
    (here : placeIn s.threads thread = some position) (drops : position.purpose = .shutdown)
    (undisturbed : Undisturbed s.state position)
    (others : ∀ t place, placeIn s.threads t = some place → t ≠ thread →
      place.purpose = .tick) : Dropping called thread s' := by
  obtain ⟨place, move, hplace, moves, hlayout⟩ := System.moves_of_next hnext
  rw [here] at hplace
  cases hplace
  have hreturns := System.returns_of_next hnext here moves
  have hstate : s'.state = move.state := congrArg Layout.state hlayout
  have hmoved := System.placeIn_of_layout hlayout
  have hresting : ∀ errand, position = .enter errand → s.state.flushing = false := by
    rintro errand rfl
    exact rests_of_enter h here undisturbed others
  obtain ⟨hon, hreplies⟩ := undisturbed_of_moves undisturbed drops hresting moves
  have hothers : ∀ t place, placeIn s'.threads t = some place → t ≠ thread →
      place.purpose = .tick := by
    intro t place hthere ht
    rw [System.placeIn_of_layout_of_ne hlayout ht] at hthere
    exact others t place hthere ht
  have hgoes : ∀ next, (Phase.ofOutcome (M := monitor α) move.outcome).place? = some next →
      endedBy thread move s.journal = none → Dropping called thread s' := by
    intro next hplace hnone
    rw [hnone, Option.toList_none, List.append_nil] at hreturns
    refine .lasts (hreturns.trans returns) (hmoved.trans hplace)
      (((effect_of_moves moves).purpose hplace).trans drops) ?_ hothers
    rw [hstate]
    exact hon next hplace
  cases houtcome : move.outcome with
  | proceed next => exact hgoes next (by rw [houtcome]; rfl) (by rw [endedBy, houtcome])
  | sleep condition wakeAt next => exact hgoes next (by rw [houtcome]; rfl) (by rw [endedBy, houtcome])
  | exit =>
    have hleads := leads_of_moves moves
    rw [houtcome] at hleads
    cases hleads with
    | exit hselect =>
      subst hselect
      contradiction
  | reply reply =>
    obtain ⟨hsettled, flush, rfl, hown⟩ := hreplies reply houtcome
    obtain ⟨call, hopen, _⟩ := exists_openCall h here (by rw [drops]; rintro ⟨⟩)
    rw [endedBy, houtcome, hopen, returns] at hreturns
    rw [← hstate] at hsettled
    have hmade := thread_of_openCall hopen
    refine .ended hreturns hmade hown hsettled ?_
    intro t
    cases hthere : placeIn s'.threads t with
    | none => rfl
    | some place =>
      have ht : t ≠ thread := by
        rintro rfl
        rw [hmoved, houtcome] at hthere
        contradiction
      exact absurd (hothers t place hthere ht)
        (purpose_ne_tick (h.next hnext) hsettled.ticker hthere)

/-- A step of the periodic trigger leaves a drop as it stands. -/
theorem Dropping.other {mover wakee : Nat} {input : Input} {position : Position α}
    (hnext : s.next (.step mover input wakee) = some s') (hmover : mover ≠ thread)
    (returns : s.returns = called.returns)
    (here : placeIn s.threads thread = some position) (drops : position.purpose = .shutdown)
    (undisturbed : Undisturbed s.state position)
    (others : ∀ t place, placeIn s.threads t = some place → t ≠ thread →
      place.purpose = .tick) : Dropping called thread s' := by
  obtain ⟨place, move, hplace, moves, hlayout⟩ := System.moves_of_next hnext
  have hreturns := System.returns_of_next hnext hplace moves
  have htick : place.purpose = .tick := others mover place hplace hmover
  have hnone : endedBy mover move s.journal = none := by
    rw [endedBy]
    cases houtcome : move.outcome with
    | reply reply =>
      have hallows := allows_of_moves moves houtcome
      rw [htick] at hallows
      exact absurd hallows id
    | _ => rfl
  rw [hnone, Option.toList_none, List.append_nil] at hreturns
  refine .lasts (hreturns.trans returns) ?_ drops ?_ ?_
  · exact (System.placeIn_of_layout_of_ne hlayout hmover.symm).trans here
  · refine undisturbed.before ?_
    intro hstopped
    exact purpose_ne_tick h hstopped hplace htick
  · intro t next hthere ht
    rcases System.cases_of_layout hlayout hthere with ⟨_, hnew⟩ | ⟨_, hold⟩
    · exact ((effect_of_moves moves).purpose hnew).trans htick
    · exact others t next hold ht

/-- Once only the drop is left, every event leaves it under way, or over. -/
theorem Dropping.next {event : Event (monitor α)} (hdropping : Dropping called thread s)
    (hallowed : NoCalls event) (hnext : s.next event = some s') : Dropping called thread s' := by
  have hchange := System.next_eq_some_iff.1 hnext
  rcases hchange.cases_layout with ⟨hreturns, hlayout⟩ | ⟨t, request, rfl, _⟩ |
    ⟨mover, input, wakee, position, move, rfl, hplace, moves, hlayout⟩
  · have hstate : s'.state = s.state := congrArg Layout.state hlayout
    have hplaces : placeIn s'.threads = placeIn s.threads := by
      rw [← System.place_layout, hlayout, System.place_layout]
    cases hdropping with
    | lasts returns here drops undisturbed others =>
      exact .lasts (hreturns.trans returns) (hplaces ▸ here) drops (hstate ▸ undisturbed)
        (hplaces ▸ others)
    | ended returns made own settled nobody =>
      exact .ended (hreturns.trans returns) made own (hstate ▸ settled) (hplaces ▸ nobody)
  · exact absurd hallowed id
  · rw [System.place_layout] at hplace
    cases hdropping with
    | lasts returns here drops undisturbed others =>
      by_cases hmover : mover = thread
      · subst hmover
        exact Dropping.own h hnext returns here drops undisturbed others
      · exact Dropping.other h hnext hmover returns here drops undisturbed others
    | ended returns made own settled nobody =>
      rw [nobody mover] at hplace
      contradiction

end New

section Runs

variable {limit : Nat} {interval : Duration} {limit_pos : 0 < limit}
  {interval_pos : 0 < interval.nanos} {now : Instant} {s called s' : System (monitor α)}
  {thread : Nat}
  (h : (system (.empty limit interval limit_pos interval_pos) now).Reachable s)
  (hexclusive : ∀ t, openCall t s.journal = none)
  (hdrop : s.next (.call thread .shutdown) = some called)
include h hexclusive hdrop

/-- A drop begins with the periodic trigger alone in the buffer. -/
theorem dropping_of_next : Dropping called thread called := by
  obtain ⟨hplace, _⟩ := System.begun_of_next hdrop
  refine .lasts rfl hplace rfl trivial ?_
  intro t place hthere ht
  have hbefore : placeIn s.threads t = some place := by
    cases System.next_eq_some_iff.1 hdrop with
    | @call _ _ phase here free =>
      rw [placeIn_set (List.getElem?_eq_some_iff.1 here).1, Function.update_of_ne ht] at hthere
      exact hthere
  by_contra hother
  obtain ⟨call, hopen, _⟩ := exists_openCall h hbefore hother
  rw [hexclusive t] at hopen
  contradiction

theorem dropping_of_reachableBy (hlater : called.ReachableBy NoCalls s') :
    Dropping called thread s' := by
  induction hlater with
  | start => exact dropping_of_next h hexclusive hdrop
  | next hlater hallowed hnext ih =>
    exact ih.next ((h.next hdrop).trans hlater.reachable) hallowed hnext

/-- A drop has returned exactly if it is over. -/
theorem over_of_returned (hlater : called.ReachableBy NoCalls s') {call : Call (monitor α)}
    {reply : Reply α}
    (hreturned : s.returnsOf thread ++ [(call, reply)] <+: s'.returnsOf thread) :
    ∃ flush, reply = .flushed (.ok flush) ∧ flush ≠ .joined ∧ Settled s'.state := by
  have hsame : called.returns = s.returns := (System.begun_of_next hdrop).2.2.1
  rw [System.returnsOf, System.returnsOf] at hreturned
  cases dropping_of_reachableBy h hexclusive hdrop hlater with
  | lasts returns =>
    rw [returns, hsame] at hreturned
    have hlength := hreturned.length_le
    rw [List.length_append] at hlength
    exact absurd hlength (Nat.not_succ_le_self _)
  | @ended last flush returns made own settled nobody =>
    rw [returns, hsame, List.filter_append, List.prefix_append_right_inj] at hreturned
    have hmem : (call, reply) ∈ [(last, Reply.flushed (.ok flush))] :=
      (List.filter_sublist.subset (hreturned.subset (List.mem_singleton_self _)))
    rw [List.mem_singleton, Prod.mk.injEq] at hmem
    exact ⟨flush, hmem.2, own, settled⟩

end Runs

/-! ### A drop comes to its end -/

/-- How many steps a thread at this place has at most to take until a drop is over. -/
def Position.stepsToDrop : Position α → Nat
  | .stop => 7
  | .await => 6
  | .enter _ => 5
  | .call _ _ => 4
  | .deliver _ _ => 3
  | .record _ _ _ | .join _ _ | .launch => 2
  | .select => 1
  | _ => 0

/-- The periodic trigger or a drop, where it need not wait, has a step to take, and then fewer are
left. -/
theorem exists_shorter (b : Buffer α) (moment : Instant) {position : Position α}
    (hpurpose : position.purpose = .tick ∨ position.purpose = .shutdown)
    (henter : ∀ errand, position = .enter errand → b.flushing = false)
    (hjoin : ∀ errand round, position = .join errand round → b.round ≠ round)
    (hstop : position = .stop → b.ticker = .running ∨ b.ticker = .stopped)
    (hawait : position = .await → b.ticker = .ended)
    (hselect : position = .select → b.ticker = .stopping) :
    ∃ input move, (monitor α).step b moment position input = some move ∧
      (Phase.ofOutcome (M := monitor α) move.outcome).weigh Position.stepsToDrop <
        position.stepsToDrop := by
  have hfinish : ∀ {errand : Errand} (flush : Flush),
      errand.purpose = .tick ∨ errand.purpose = .shutdown →
      (Phase.ofOutcome (M := monitor α) (finish errand flush)).weigh Position.stepsToDrop < 2 := by
    intro errand flush herrand
    cases errand with
    | tick => exact Nat.lt_succ_self 1
    | shutdown => exact Nat.succ_pos 1
    | add | flush => rcases herrand with htick | hshutdown <;> contradiction
  cases position with
  | stop =>
    rcases hstop rfl with hrunning | hstopped
    · refine ⟨.nothing, .proceed { b with ticker := .stopping } .await, ?_, Nat.lt_succ_self 6⟩
      simp only [step, stepStop, hrunning]
    · refine ⟨.nothing, .proceed b (.enter .shutdown), ?_, ?_⟩
      · simp only [step, stepStop, hstopped]
      · show 5 < 7
        decide
  | await =>
    refine ⟨.nothing, .proceed { b with ticker := .stopped } (.enter .shutdown), ?_,
      Nat.lt_succ_self 5⟩
    simp only [step, stepAwait, hawait rfl]
  | enter errand =>
    refine ⟨.nothing, _, rfl, ?_⟩
    simp only [stepEnter, henter _ rfl, Bool.false_eq_true, if_false]
    split
    · exact Nat.lt_trans (hfinish .empty hpurpose) (by decide : 2 < 5)
    · exact Nat.lt_succ_self 4
  | join errand round =>
    refine ⟨.nothing, _, rfl, ?_⟩
    simp only [stepJoin, hjoin _ _ rfl, if_false]
    exact hfinish .joined hpurpose
  | call errand batch => exact ⟨.nothing, _, rfl, Nat.lt_succ_self 3⟩
  | deliver errand batch => exact ⟨.outcome .accepted, _, rfl, Nat.lt_succ_self 2⟩
  | record errand size accepted => exact ⟨.nothing, _, rfl, hfinish _ hpurpose⟩
  | launch => exact ⟨.nothing, _, rfl, Nat.lt_succ_self 1⟩
  | select =>
    refine ⟨.stop, ⟨{ b with ticker := .ended }, .exit, [], [.stopped]⟩, ?_, Nat.succ_pos 0⟩
    simp only [step, stepSelect, hselect rfl, if_true]
  | append | recheck | inspect => rcases hpurpose with htick | hshutdown <;> contradiction

section Runs

variable {limit : Nat} {interval : Duration} {limit_pos : 0 < limit}
  {interval_pos : 0 < interval.nanos} {now : Instant} {s called s' : System (monitor α)}
  {thread : Nat}

/-- One shutdown at most waits for the periodic trigger. -/
theorem awaited (h : (system (.empty limit interval limit_pos interval_pos) now).Reachable s) :
    Awaited s.layout := by
  have hplace : ∀ {t}, (system (α := α) (.empty limit interval limit_pos interval_pos)
      now).layout.place t ≠ some .await := by
    intro t hthere
    rw [System.place_layout] at hthere
    have hlaunch := List.mem_singleton.1 (placeIn_initial hthere)
    contradiction
  refine Awaited.of_reachable h.reachableBy.layout
    ⟨fun hthere => absurd hthere hplace, fun hthere => absurd hthere hplace, ?_⟩
  intro hticker
  rcases hticker with hstopping | hended <;> contradiction

/-- Where nobody else waits for the end of the periodic trigger, a shutdown can go on, unless it
waits for that end itself. -/
theorem ticker_of_alone
    (h : (system (.empty limit interval limit_pos interval_pos) now).Reachable s)
    {position : Position α} (here : placeIn s.threads thread = some position)
    (halone : ∀ t, t ≠ thread → placeIn s.threads t ≠ some .await)
    (hwaits : ¬ (position = .await ∧ s.state.ticker = .stopping)) :
    (position = .stop → s.state.ticker = .running ∨ s.state.ticker = .stopped) ∧
      (position = .await → s.state.ticker = .ended) := by
  have hawaits : s.state.ticker = .stopping ∨ s.state.ticker = .ended → position = .await := by
    intro hticker
    obtain ⟨t, hthere⟩ := (awaited h).noticed hticker
    rw [System.place_layout] at hthere
    by_cases ht : t = thread
    · subst ht
      rw [here] at hthere
      exact Option.some.inj hthere
    · exact absurd hthere (halone t ht)
  constructor
  · rintro rfl
    cases hticker : s.state.ticker with
    | running => exact .inl rfl
    | stopped => exact .inr rfl
    | stopping =>
      have hawait := hawaits (.inl hticker)
      contradiction
    | ended =>
      have hawait := hawaits (.inr hticker)
      contradiction
  · rintro rfl
    rw [← System.place_layout] at here
    have htold : s.state.ticker = .stopping ∨ s.state.ticker = .ended := (awaited h).told here
    rcases htold with hstopping | hended
    · exact absurd ⟨rfl, hstopping⟩ hwaits
    · exact hended

/-- As long as a drop is not over, it can go on, or the periodic trigger can. -/
theorem exists_mover (h : (system (.empty limit interval limit_pos interval_pos) now).Reachable s)
    {position : Position α} (here : placeIn s.threads thread = some position)
    (drops : position.purpose = .shutdown) (undisturbed : Undisturbed s.state position)
    (others : ∀ t place, placeIn s.threads t = some place → t ≠ thread →
      place.purpose = .tick) :
    ∃ (mover : Nat) (phase : Phase (monitor α)) (place : Position α), ∃ input move,
      s.threads[mover]? = some phase ∧ phase.position? = some place ∧
      (monitor α).step s.state s.now place input = some move ∧
      (Phase.ofOutcome (M := monitor α) move.outcome).weigh Position.stepsToDrop <
        place.stepsToDrop := by
  have hpurposes : ∀ {t place}, placeIn s.threads t = some place →
      place.purpose = .tick ∨ place.purpose = .shutdown := by
    intro t place hplace
    by_cases ht : t = thread
    · subst ht
      rw [here] at hplace
      cases hplace
      exact .inr drops
    · exact .inl (others t place hplace ht)
  by_cases hflushing : s.state.flushing = true
  · -- whoever carries the batch goes first
    obtain ⟨carrier, ⟨place, hplace, hcarries⟩, _⟩ := (flushing_iff h).1 hflushing
    have hwaits : place.waits = false := by
      cases place <;> first | rfl | contradiction
    obtain ⟨phase, hphase, awake⟩ := awake_of_place h hplace (.inl hwaits)
    obtain ⟨input, move, moves, hshorter⟩ := exists_shorter s.state s.now (hpurposes hplace)
      (by rintro errand rfl; contradiction)
      (by rintro errand round rfl; contradiction) (by rintro rfl; contradiction)
      (by rintro rfl; contradiction) (by rintro rfl; contradiction)
    exact ⟨carrier, phase, place, input, move, hphase, awake, moves, hshorter⟩
  · have hrests := eq_false_of_ne_true hflushing
    -- nobody else waits for the end of the periodic trigger
    have halone : ∀ t, t ≠ thread → placeIn s.threads t ≠ some .await := by
      intro t ht hawaits
      have htick := others t _ hawaits ht
      contradiction
    have hgoes : ∀ {t place}, placeIn s.threads t = some place →
        (place = .stop → s.state.ticker = .running ∨ s.state.ticker = .stopped) →
        (place = .await → s.state.ticker = .ended) →
        (place = .select → s.state.ticker = .stopping) →
        ∃ (mover : Nat) (phase : Phase (monitor α)) (place : Position α), ∃ input move,
          s.threads[mover]? = some phase ∧ phase.position? = some place ∧
          (monitor α).step s.state s.now place input = some move ∧
          (Phase.ofOutcome (M := monitor α) move.outcome).weigh Position.stepsToDrop <
            place.stepsToDrop := by
      intro t place hplace hstop hawait hselect
      obtain ⟨phase, hphase, awake⟩ := awake_of_place h hplace (.inr hrests)
      have hjoin : ∀ errand round, place = .join errand round → s.state.round ≠ round := by
        rintro errand round rfl
        rcases joins_of_place h hplace with hover | ⟨_, hbusy⟩
        · omega
        · exact absurd hbusy hflushing
      obtain ⟨input, move, moves, hshorter⟩ := exists_shorter s.state s.now (hpurposes hplace)
        (fun _ _ => hrests) hjoin hstop hawait hselect
      exact ⟨t, phase, place, input, move, hphase, awake, moves, hshorter⟩
    by_cases hwaits : position = .await ∧ s.state.ticker = .stopping
    · obtain ⟨place, hplace, htick⟩ := (ticking h).lives (.inr hwaits.2)
      rw [System.place_layout] at hplace
      exact hgoes hplace (by rintro rfl; contradiction) (by rintro rfl; contradiction)
        fun _ => hwaits.2
    · obtain ⟨hstop, hawait⟩ := ticker_of_alone h here halone hwaits
      exact hgoes here hstop hawait (by rintro rfl; contradiction)

/-- A drop can always come to its end. -/
theorem exists_dropped (h : (system (.empty limit interval limit_pos interval_pos) now).Reachable s)
    (hexclusive : ∀ t, openCall t s.journal = none)
    (hdrop : s.next (.call thread .shutdown) = some called)
    (hlater : called.ReachableBy NoCalls s') :
    ∃ done call reply, s'.ReachableBy NoCalls done ∧
      s.returnsOf thread ++ [(call, reply)] <+: done.returnsOf thread := by
  induction hweight : weightOf Position.stepsToDrop s'.threads using Nat.strongRecOn
    generalizing s' with
  | _ weight ih =>
    have hreach := (h.next hdrop).trans hlater.reachable
    cases dropping_of_reachableBy h hexclusive hdrop hlater with
    | lasts returns here drops undisturbed others =>
      obtain ⟨mover, phase, place, input, move, hphase, awake, moves, hshorter⟩ :=
        exists_mover hreach here drops undisturbed others
      obtain ⟨after, hnext⟩ := exists_next hphase awake moves 0
      have hallowed : NoCalls (Event.step mover input 0 : Event (monitor α)) := trivial
      have hless := weightOf_next Position.stepsToDrop hphase awake moves hshorter hnext
      obtain ⟨done, call, reply, hdone, hreturned⟩ :=
        ih _ (hweight ▸ hless) (hlater.next hallowed hnext) rfl
      exact ⟨done, call, reply, (System.ReachableBy.next .start hallowed hnext).trans hdone,
        hreturned⟩
    | @ended last flush returns made own settled nobody =>
      have hsame : called.returns = s.returns := (System.begun_of_next hdrop).2.2.1
      refine ⟨s', last, .flushed (.ok flush), .start, ?_⟩
      rw [System.returnsOf, System.returnsOf, returns, hsame, List.filter_append]
      simp [made]

end Runs

/-- Where nothing is left to be done, the sink has been called with all that has been added. -/
theorem delivered_of_settled {limit : Nat} {interval : Duration} {limit_pos : 0 < limit}
    {interval_pos : 0 < interval.nanos} {now : Instant} {s : System (monitor α)}
    (h : (system (.empty limit interval limit_pos interval_pos) now).Reachable s)
    (hsettled : Settled s.state) :
    ((sinkCalls s).map (·.2)).flatten = additions s ∧
      (sinkReturns s).map Delivery.load = sinkCalls s := by
  obtain ⟨hcalls, hreturns⟩ := sink_of_rests h hsettled.flushing
  refine ⟨?_, by rw [hcalls, hreturns]⟩
  have hitems := batched_append_pending h
  rw [batched, taken_eq h, inFlight_eq_nil h hsettled.flushing, hsettled.pending, List.append_nil,
    List.append_nil, ← hcalls] at hitems
  exact hitems

/-- Nothing is lost when a buffer is dropped. Let threads and the sink do whatever they do, and let
the buffer be dropped once nobody is in a call any more, though the periodic trigger may be in the
middle of a delivery. The drop can always come to its end. When it has returned, its flush has not
merely joined another one, the periodic trigger is over, and the batches that the sink has been
called with are together what has been added, in order. The sink has returned from all of them. -/
theorem drop_loses_nothing {limit : Nat} {interval : Duration} {limit_pos : 0 < limit}
    {interval_pos : 0 < interval.nanos} {now : Instant} {s called s' : System (monitor α)}
    (h : (system (.empty limit interval limit_pos interval_pos) now).Reachable s)
    (hexclusive : ∀ t, openCall t s.journal = none) {thread : Nat}
    (hdrop : s.next (.call thread .shutdown) = some called)
    (hlater : called.ReachableBy NoCalls s') :
    (∃ done call reply, s'.ReachableBy NoCalls done ∧
        s.returnsOf thread ++ [(call, reply)] <+: done.returnsOf thread) ∧
      ∀ call reply, s.returnsOf thread ++ [(call, reply)] <+: s'.returnsOf thread →
        ((sinkCalls s').map (·.2)).flatten = additions s' ∧
          (sinkReturns s').map Delivery.load = sinkCalls s' ∧ Settled s'.state ∧
          ∃ flush, reply = .flushed (.ok flush) ∧ flush ≠ .joined := by
  refine ⟨exists_dropped h hexclusive hdrop hlater, ?_⟩
  intro call reply hreturned
  obtain ⟨flush, hreply, hown, hsettled⟩ := over_of_returned h hexclusive hdrop hlater hreturned
  obtain ⟨hcalls, hreturns⟩ :=
    delivered_of_settled ((h.next hdrop).trans hlater.reachable) hsettled
  exact ⟨hcalls, hreturns, hsettled, flush, hreply, hown⟩

/-- The periodic trigger has a first item at the sink when a second one is added, after an earlier
flush with nothing to do. -/
def tickDelivers : List (Event (monitor Nat)) :=
  [.arrive, .arrive, .step 0 .nothing 0, .call 1 .flush, .step 1 .nothing 0, .call 1 (.add 1),
    .step 1 .nothing 0, .step 0 .tick 0, .step 0 .nothing 0, .step 0 .nothing 0, .call 1 (.add 2),
    .step 1 .nothing 0]

/-- A drop waits for that delivery, on which the sink breaks off, and delivers the second item. -/
def dropAfterTick : List (Event (monitor Nat)) :=
  [.step 2 .nothing 0, .step 0 (.outcome (.crashed none)) 0, .step 0 .nothing 0, .step 0 .stop 0,
    .step 2 .nothing 0, .step 2 .nothing 0, .step 2 .nothing 0, .step 2 (.outcome .accepted) 0,
    .step 2 .nothing 0]

theorem drop_loses_nothing_dropAfterTick :
    ∃ s called s' call, (system (.empty 9 ⟨1, by decide⟩ (by decide) (by decide)) .midrange).run
        tickDelivers = some s ∧ s.next (.call 2 .shutdown) = some called ∧
      called.run dropAfterTick = some s' ∧ inFlight s = [(0, [1])] ∧
      s.returnsOf 2 ++ [(call, .flushed (.ok (.delivered 1)))] <+: s'.returnsOf 2 ∧
      sinkCalls s' = [(0, [1]), (2, [2])] ∧ ((sinkCalls s').map (·.2)).flatten = additions s' := by
  have hruns : (((system (.empty 9 ⟨1, by decide⟩ (by decide) (by decide)) .midrange).run
      tickDelivers).bind fun s => (s.next (.call 2 .shutdown)).bind fun called =>
        (called.run dropAfterTick).map fun s' =>
          decide ((∀ t < s.threads.length, (openCall t s.journal).isNone = true) ∧
            inFlight s = [(0, [1])] ∧ s.returnsOf 2 = [] ∧
            (s'.returnsOf 2).map (·.2.flush?) = [some (.delivered 1)] ∧
            sinkCalls s' = [(0, [1]), (2, [2])])) = some true := by
    decide +kernel
  simp only [Option.bind_eq_some_iff, Option.map_eq_some_iff, decide_eq_true_eq,
    Option.isNone_iff_eq_none] at hruns
  obtain ⟨s, hbefore, called, hdrop, s', hafter, hclosed, hflight, hnone, hdelivered, hcalls⟩ :=
    hruns
  obtain ⟨call, hprefix⟩ := exists_flushed hnone hdelivered
  have hreach := System.Reachable.run .start hbefore
  have hallowed : ∀ event ∈ dropAfterTick, NoCalls event := by
    simp [dropAfterTick, NoCalls]
  have hloses := drop_loses_nothing hreach
    ((OneByOne.of_reachable hreach).openCall_eq_none hclosed) hdrop
    (System.ReachableBy.run .start hallowed hafter)
  exact ⟨s, called, s', call, hbefore, hdrop, hafter, hflight, hprefix, hcalls,
    (hloses.2 call _ hprefix).1⟩

end Backpressure.Buffer
