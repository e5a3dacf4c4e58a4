import Backpressure.Proofs.Course
import Backpressure.Proofs.Waiting

/-!
# Systems that differ in one call

What an event does depends on the state, on the time and on where the threads are, and on nothing
else that has happened. So two systems that agree in these go the same way for ever. Two systems in
which one thread is about to take the first step of two different calls go the same way until it
takes that step.
-/

namespace Backpressure.System

variable {M : Monitor} {thread : Nat} {start s s' t : System M} {events : List (Event M)}

/-- What has happened in a system since an earlier one, latest first. -/
def since (s start : System M) : List (Entry M) :=
  s.journal.take (s.journal.length - start.journal.length)

/-- The threads of a system with one of them left out of account. -/
def others (s : System M) (thread : Nat) : List (Phase M) := s.threads.set thread .idle

/-- Does a thread take none of these steps? -/
def Spares (thread : Nat) (events : List (Event M)) : Prop :=
  ∀ input wakee, Event.step thread input wakee ∉ events

theorem run_append (s : System M) (events events' : List (Event M)) :
    s.run (events ++ events') = (s.run events).bind (·.run events') := by
  induction events generalizing s with
  | nil => rfl
  | cons event rest ih =>
    rw [List.cons_append, System.run, System.run, Option.bind_assoc]
    congr 1
    funext between
    exact ih between

theorem run_singleton (s : System M) (event : Event M) : s.run [event] = s.next event :=
  Option.bind_fun_some _

theorem since_eq {new : List (Entry M)} (h : s.journal = new ++ start.journal) :
    s.since start = new := by
  rw [since, h, List.length_append, Nat.add_sub_cancel, List.take_left]

/-! ### Systems with different pasts -/

/-- Two systems of which what happens from now on is the same. -/
structure Alike (s s' : System M) : Prop where
  now : s'.now = s.now
  state : s'.state = s.state
  threads : s'.threads = s.threads

theorem Alike.symm (h : Alike s s') : Alike s' s := ⟨h.now.symm, h.state.symm, h.threads.symm⟩

/-- Calls that start at the same place make no difference. -/
theorem Alike.of_call {request request' : M.Request}
    (hstart : M.start request' s.now = M.start request s.now)
    (hnext : s.next (.call thread request) = some t) :
    ∃ t', s.next (.call thread request') = some t' ∧ Alike t t' := by
  cases next_eq_some_iff.1 hnext with
  | call here free =>
    refine ⟨_, next_eq_some_iff.2 (.call here free), rfl, rfl, ?_⟩
    rw [hstart]

/-- An event does to both of them the same. -/
theorem Alike.next {event : Event M} (h : Alike s s') (hnext : s.next event = some t) :
    ∃ t', s'.next event = some t' ∧ Alike t t' ∧
      ∃ new, t.journal = new ++ s.journal ∧ t'.journal = new ++ s'.journal := by
  obtain ⟨now, state, threads, journal⟩ := s'
  obtain ⟨rfl, rfl, rfl⟩ := h
  cases next_eq_some_iff.1 hnext with
  | elapse later => exact ⟨_, next_eq_some_iff.2 (.elapse later), ⟨rfl, rfl, rfl⟩, [], rfl, rfl⟩
  | arrive => exact ⟨_, next_eq_some_iff.2 .arrive, ⟨rfl, rfl, rfl⟩, [], rfl, rfl⟩
  | call here free =>
    exact ⟨_, next_eq_some_iff.2 (.call here free), ⟨rfl, rfl, rfl⟩, [_], rfl, rfl⟩
  | rouse here => exact ⟨_, next_eq_some_iff.2 (.rouse here), ⟨rfl, rfl, rfl⟩, [], rfl, rfl⟩
  | step here awake moves wakes =>
    exact ⟨_, next_eq_some_iff.2 (.step here awake moves wakes), ⟨rfl, rfl, rfl⟩, _, rfl, rfl⟩

/-- A list of events does to both of them the same. -/
theorem Alike.run (h : Alike s s') (hrun : s.run events = some t) :
    ∃ t', s'.run events = some t' ∧ Alike t t' ∧
      ∃ new, t.journal = new ++ s.journal ∧ t'.journal = new ++ s'.journal := by
  induction events generalizing s s' with
  | nil =>
    cases hrun
    exact ⟨s', rfl, h, [], rfl, rfl⟩
  | cons event rest ih =>
    obtain ⟨between, hnext, hrest⟩ := Option.bind_eq_some_iff.1 hrun
    obtain ⟨between', hnext', halike, new, hnew, hnew'⟩ := h.next hnext
    obtain ⟨t', hrest', hend, later, hlater, hlater'⟩ := ih halike hrest
    refine ⟨t', ?_, hend, later ++ new, ?_, ?_⟩
    · rw [System.run, hnext']
      exact hrest'
    · rw [hlater, hnew, List.append_assoc]
    · rw [hlater', hnew', List.append_assoc]

/-- What can happen in the one can happen in the other, and comes to the same. -/
theorem Alike.map_run (h : Alike s s') (events : List (Event M)) :
    (s.run events).map (fun t => (t.now, t.state, t.threads, t.since s)) =
      (s'.run events).map (fun t => (t.now, t.state, t.threads, t.since s')) := by
  cases hrun : s.run events with
  | some t =>
    obtain ⟨t', hrun', ⟨hnow, hstate, hthreads⟩, new, hnew, hnew'⟩ := h.run hrun
    rw [hrun', Option.map_some, Option.map_some, hnow, hstate, hthreads, since_eq hnew,
      since_eq hnew']
  | none =>
    cases hrun' : s'.run events with
    | none => rfl
    | some t' =>
      obtain ⟨t, hsome, _⟩ := h.symm.run hrun'
      rw [hrun] at hsome
      contradiction

/-! ### Systems with different calls -/

section Signals

variable {threads threads' : List (Phase M)} {p q : M.Position} {wakee : Nat}

/-- A signal passes by a thread that does not sleep, whatever step it is about to take. -/
theorem deliver_set_ready {signal : Signal M.Condition} (here : threads[thread]? = some (.ready p))
    (h : deliver threads wakee signal = some threads') :
    deliver (threads.set thread (.ready q)) wakee signal =
      some (threads'.set thread (.ready q)) := by
  cases signal with
  | all condition =>
    cases h
    rw [deliver, List.map_set]
    rfl
  | one condition =>
    rcases deliver_one_cases h with ⟨hnone, hsame⟩ | ⟨phase, hphase, hsleeps, rfl⟩
    · rw [hsame]
      have hany : (threads.set thread (.ready q)).any (·.sleepsOn condition) = false := by
        rw [List.any_eq_false]
        intro phase hmem
        rcases List.mem_or_eq_of_mem_set hmem with hold | rfl
        · simp [hnone phase hold]
        · exact Bool.false_ne_true
      simp [deliver, hany]
    · have hne : thread ≠ wakee := by
        rintro rfl
        rw [here] at hphase
        cases hphase
        contradiction
      have hthere : (threads.set thread (.ready q))[wakee]? = some phase := by
        rw [List.getElem?_set_ne hne, hphase]
      have hany : (threads.set thread (.ready q)).any (·.sleepsOn condition) = true :=
        List.any_eq_true.2 ⟨phase, List.mem_of_getElem? hthere, hsleeps⟩
      simp [deliver, hany, hthere, hsleeps, List.set_comm _ _ hne]

theorem deliverAll_set_ready {signals : List (Signal M.Condition)}
    (here : threads[thread]? = some (.ready p))
    (h : deliverAll wakee signals threads = some threads') :
    deliverAll wakee signals (threads.set thread (.ready q)) =
        some (threads'.set thread (.ready q)) ∧
      threads'[thread]? = some (.ready p) := by
  induction signals generalizing threads with
  | nil =>
    cases h
    exact ⟨rfl, here⟩
  | cons signal rest ih =>
    obtain ⟨between, hfirst, hrest⟩ := Option.bind_eq_some_iff.1 h
    obtain ⟨hlater, hstays⟩ := ih (getElem?_of_deliver here rfl hfirst) hrest
    refine ⟨?_, hstays⟩
    rw [deliverAll, deliver_set_ready here hfirst]
    exact hlater

end Signals

/-- Two systems in which one thread is about to take the first step of a call, each of its own
call, and which agree in the rest. -/
structure Twins (thread : Nat) (p q : M.Position) (s s' : System M) : Prop where
  now : s'.now = s.now
  state : s'.state = s.state
  here : s.threads[thread]? = some (.ready p)
  threads : s'.threads = s.threads.set thread (.ready q)

namespace Twins

variable {p q : M.Position}

theorem there (h : Twins thread p q s s') : s'.threads[thread]? = some (.ready q) := by
  rw [h.threads, List.getElem?_set_self (List.getElem?_eq_some_iff.1 h.here).1]

theorem symm (h : Twins thread p q s s') : Twins thread q p s' s where
  now := h.now.symm
  state := h.state.symm
  here := h.there
  threads := by
    obtain ⟨hlt, hthere⟩ := List.getElem?_eq_some_iff.1 h.here
    rw [h.threads, List.set_set, ← hthere, List.set_getElem_self]

/-- A call of either kind can begin where the other can. -/
theorem of_call {request : M.Request} (request' : M.Request)
    (hnext : s.next (.call thread request) = some t) :
    ∃ t', s.next (.call thread request') = some t' ∧
      Twins thread (M.start request s.now) (M.start request' s.now) t t' := by
  cases next_eq_some_iff.1 hnext with
  | call here free =>
    have hlt := (List.getElem?_eq_some_iff.1 here).1
    refine ⟨_, next_eq_some_iff.2 (.call here free), rfl, rfl, ?_, ?_⟩
    · exact List.getElem?_set_self hlt
    · exact (List.set_set _).symm

/-- What the others do does to both of them the same. -/
theorem next {event : Event M} (h : Twins thread p q s s')
    (hother : ∀ input wakee, event ≠ .step thread input wakee) (hnext : s.next event = some t) :
    ∃ t', s'.next event = some t' ∧ Twins thread p q t t' := by
  obtain ⟨now, state, threads, journal⟩ := s'
  obtain ⟨rfl, rfl, hself, rfl⟩ := h
  have hlt := (List.getElem?_eq_some_iff.1 hself).1
  have hthere : ∀ {t phase}, thread ≠ t → s.threads[t]? = some phase →
      (s.threads.set thread (.ready q))[t]? = some phase :=
    fun hne here => (List.getElem?_set_ne hne).trans here
  cases next_eq_some_iff.1 hnext with
  | elapse later => exact ⟨_, next_eq_some_iff.2 (.elapse later), rfl, rfl, hself, rfl⟩
  | arrive =>
    refine ⟨_, next_eq_some_iff.2 .arrive, rfl, rfl, ?_, ?_⟩
    · exact (List.getElem?_append_left hlt).trans hself
    · exact (List.set_append_left _ _ hlt).symm
  | @call t request phase here free =>
    have hne : thread ≠ t := by
      rintro rfl
      rw [hself] at here
      cases here
      contradiction
    refine ⟨_, next_eq_some_iff.2 (.call (hthere hne here) free), rfl, rfl, ?_, ?_⟩
    · exact (List.getElem?_set_ne (Ne.symm hne)).trans hself
    · exact List.set_comm _ _ hne
  | @rouse t condition wakeAt position here =>
    have hne : thread ≠ t := by
      rintro rfl
      rw [hself] at here
      cases here
    refine ⟨_, next_eq_some_iff.2 (.rouse (hthere hne here)), rfl, rfl, ?_, ?_⟩
    · exact (List.getElem?_set_ne (Ne.symm hne)).trans hself
    · exact List.set_comm _ _ hne
  | @step t wakee input phase position move threads here awake moves wakes =>
    have hne : thread ≠ t := by
      rintro rfl
      exact hother input wakee rfl
    obtain ⟨hwakes, hstays⟩ := deliverAll_set_ready hself wakes
    refine ⟨_, next_eq_some_iff.2 (.step (hthere hne here) awake moves hwakes), rfl, rfl, ?_, ?_⟩
    · exact (List.getElem?_set_ne (Ne.symm hne)).trans hstays
    · exact List.set_comm _ _ hne

theorem run (h : Twins thread p q s s') (hspares : Spares thread events)
    (hrun : s.run events = some t) : ∃ t', s'.run events = some t' ∧ Twins thread p q t t' := by
  induction events generalizing s s' with
  | nil =>
    cases hrun
    exact ⟨s', rfl, h⟩
  | cons event rest ih =>
    obtain ⟨between, hnext, hrest⟩ := Option.bind_eq_some_iff.1 hrun
    have hother : ∀ input wakee, event ≠ .step thread input wakee := by
      rintro input wakee rfl
      exact hspares input wakee (List.mem_cons_self ..)
    obtain ⟨between', hnext', htwins⟩ := h.next hother hnext
    obtain ⟨t', hrest', hend⟩ :=
      ih htwins (fun input wakee hmem => hspares input wakee (List.mem_cons_of_mem _ hmem)) hrest
    refine ⟨t', ?_, hend⟩
    rw [System.run, hnext']
    exact hrest'

/-- A step of their own that wakes the same threads and leaves the same state makes no difference
but to how they go on. -/
theorem own {input : M.Input} {wakee : Nat}
    {move move' : Move M.State M.Position M.Reply M.Condition M.Note} (h : Twins thread p q s s')
    (moves : M.step s.state s.now p input = some move)
    (moves' : M.step s.state s.now q input = some move') (hstate : move'.state = move.state)
    (hsignals : move'.signals = move.signals)
    (hnext : s.next (.step thread input wakee) = some t) :
    ∃ t', s'.next (.step thread input wakee) = some t' ∧ t'.now = t.now ∧ t'.state = t.state ∧
      t.threads[thread]? = some (.ofOutcome move.outcome) ∧
      t'.threads = t.threads.set thread (.ofOutcome move'.outcome) := by
  obtain ⟨now, state, threads, journal⟩ := s'
  obtain ⟨rfl, rfl, hself, rfl⟩ := h
  have hthere := List.getElem?_set_self (a := .ready q)
    (List.getElem?_eq_some_iff.1 hself).1
  cases next_eq_some_iff.1 hnext with
  | @step _ _ _ phase position first threads here awake actual wakes =>
    rw [hself] at here
    cases here
    cases awake
    cases moves.symm.trans actual
    obtain ⟨hwakes, hstays⟩ := deliverAll_set_ready hself wakes
    rw [← hsignals] at hwakes
    refine ⟨_, next_eq_some_iff.2 (.step hthere rfl moves' hwakes), rfl, hstate, ?_, ?_⟩
    · exact List.getElem?_set_self (List.getElem?_eq_some_iff.1 hstays).1
    · exact (List.set_set _).trans (List.set_set _).symm

/-- A call whose first step returns at any later time has a reply after its first step. -/
theorem exists_reply {input : M.Input} {wakee : Nat} (h : Twins thread p q s s')
    (hreplies : ∀ state now input, s.now ≤ now →
      ∃ move reply, M.step state now p input = some move ∧ move.outcome = .reply reply)
    (hspares : Spares thread events)
    (hrun : s.run (events ++ [.step thread input wakee]) = some t) :
    ∃ reply, t.replyOf thread = some reply := by
  rw [run_append] at hrun
  obtain ⟨between, hbetween, hlast⟩ := Option.bind_eq_some_iff.1 hrun
  rw [run_singleton] at hlast
  obtain ⟨_, _, htwins⟩ := h.run hspares hbetween
  obtain ⟨move, reply, moves, houtcome⟩ :=
    hreplies between.state between.now input (Reachable.run .start hbetween).now_le
  have hplace : placeIn between.threads thread = some p := by
    rw [placeIn, htwins.here]
    rfl
  exact ⟨reply, (replyOf_of_next hlast hplace moves reply).2 houtcome⟩

/-- Where the first steps of two calls leave the same at any later time, and both return, it makes
no difference which of the two is made, but for what they return and record. -/
theorem map_run_of_replies {f : M.Reply → M.Reply} (h : Twins thread p q s s')
    (hsame : ∀ state now input, s.now ≤ now → ∃ move move' reply,
      M.step state now p input = some move ∧ M.step state now q input = some move' ∧
        move.outcome = .reply reply ∧ move'.outcome = .reply (f reply) ∧
        move'.state = move.state ∧ move'.signals = move.signals)
    (hspares : Spares thread events) (input : M.Input) (wakee : Nat) :
    (s.run (events ++ [.step thread input wakee])).map
        (fun t => (t.now, t.state, t.others thread, (t.replyOf thread).map f)) =
      (s'.run (events ++ [.step thread input wakee])).map
        (fun t => (t.now, t.state, t.others thread, t.replyOf thread)) := by
  rw [run_append, run_append]
  cases hrun : s.run events with
  | none =>
    cases hrun' : s'.run events with
    | none => rfl
    | some t' =>
      obtain ⟨t, hsome, _⟩ := h.symm.run hspares hrun'
      rw [hrun] at hsome
      contradiction
  | some t =>
    obtain ⟨t', hrun', htwins⟩ := h.run hspares hrun
    obtain ⟨move, move', reply, moves, moves', houtcome, houtcome', hstate, hsignals⟩ :=
      hsame t.state t.now input (Reachable.run .start hrun).now_le
    rw [hrun', Option.bind_some, Option.bind_some, run_singleton, run_singleton]
    cases hnext : t.next (.step thread input wakee) with
    | some u =>
      obtain ⟨u', hnext', hnow, hstates, hself, hthreads⟩ :=
        htwins.own moves moves' hstate hsignals hnext
      have hlt := (List.getElem?_eq_some_iff.1 hself).1
      simp only [hnext', Option.map_some, hnow, hstates, others, replyOf, hself, houtcome,
        houtcome', hthreads, List.set_set, List.getElem?_set_self hlt, Phase.ofOutcome]
    | none =>
      cases hnext' : t'.next (.step thread input wakee) with
      | none => rfl
      | some u' =>
        rw [← htwins.state, ← htwins.now] at moves moves'
        obtain ⟨u, hsome, _⟩ := htwins.symm.own moves' moves hstate.symm hsignals.symm hnext'
        rw [hnext] at hsome
        contradiction

/-- Where the first steps of two calls do the same at any later time, and both return, it makes no
difference which of the two is made, but for what they return. -/
theorem map_run {f : M.Reply → M.Reply} (h : Twins thread p q s s')
    (hsame : ∀ state now input, s.now ≤ now → ∃ move reply, M.step state now p input = some move ∧
      move.outcome = .reply reply ∧
      M.step state now q input = some { move with outcome := .reply (f reply) })
    (hspares : Spares thread events) (input : M.Input) (wakee : Nat) :
    (s.run (events ++ [.step thread input wakee])).map
        (fun t => (t.now, t.state, t.others thread, (t.replyOf thread).map f)) =
      (s'.run (events ++ [.step thread input wakee])).map
        (fun t => (t.now, t.state, t.others thread, t.replyOf thread)) := by
  refine h.map_run_of_replies ?_ hspares input wakee
  intro state now input hlater
  obtain ⟨move, reply, moves, houtcome, moves'⟩ := hsame state now input hlater
  exact ⟨move, _, reply, moves, moves', houtcome, rfl, rfl, rfl⟩

end Twins

/-! ### Systems with different calls that do the same -/

/-- Two moves that leave the same state, wake the same threads, and lead to related places or return
the same. They may differ in what they record. -/
structure Agree (related : M.Position → M.Position → Prop)
    (move move' : Move M.State M.Position M.Reply M.Condition M.Note) : Prop where
  state : move'.state = move.state
  signals : move'.signals = move.signals
  outcome : (∃ reply, move.outcome = .reply reply ∧ move'.outcome = .reply reply) ∨
    ∃ p q, related p q ∧ move.outcome = .proceed p ∧ move'.outcome = .proceed q

/-- A relation of places from which threads do the same. -/
def Matched (related : M.Position → M.Position → Prop) : Prop :=
  ∀ {p q}, related p q → ∀ state now input,
    (M.step state now p input = none ∧ M.step state now q input = none) ∨
      ∃ move move', M.step state now p input = some move ∧
        M.step state now q input = some move' ∧ Agree related move move'

/-- Two systems of which what happens from now on is the same, although one thread may be at
different places of them. -/
inductive Coupled (related : M.Position → M.Position → Prop) (thread : Nat) (s s' : System M) : Prop
  | alike (same : Alike s s')
  | apart {p q : M.Position} (places : related p q) (twins : Twins thread p q s s')

section Coupled

variable {related : M.Position → M.Position → Prop} {p q : M.Position}

theorem Agree.symm {move move' : Move M.State M.Position M.Reply M.Condition M.Note}
    (h : Agree related move move') : Agree (flip related) move' move where
  state := h.state.symm
  signals := h.signals.symm
  outcome := h.outcome.imp (fun ⟨reply, hmove, hmove'⟩ => ⟨reply, hmove', hmove⟩)
    fun ⟨p, q, hplaces, hmove, hmove'⟩ => ⟨q, p, hplaces, hmove', hmove⟩

theorem Matched.symm (h : Matched related) : Matched (flip related) := by
  intro p q hplaces state now input
  rcases h hplaces state now input with ⟨hp, hq⟩ | ⟨move, move', hp, hq, hagree⟩
  · exact .inl ⟨hq, hp⟩
  · exact .inr ⟨move', move, hq, hp, hagree.symm⟩

theorem Coupled.symm (h : Coupled related thread s s') : Coupled (flip related) thread s' s := by
  cases h with
  | alike same => exact .alike same.symm
  | apart places twins => exact .apart places twins.symm

/-- Steps of their own that do the same leave the systems together. -/
theorem Twins.coupled {input : M.Input} {wakee : Nat}
    {move move' : Move M.State M.Position M.Reply M.Condition M.Note} (h : Twins thread p q s s')
    (moves : M.step s.state s.now p input = some move)
    (moves' : M.step s.state s.now q input = some move') (hagree : Agree related move move')
    (hnext : s.next (.step thread input wakee) = some t) :
    ∃ t', s'.next (.step thread input wakee) = some t' ∧ Coupled related thread t t' := by
  obtain ⟨t', hnext', hnow, hstate, hself, hthreads⟩ :=
    h.own moves moves' hagree.state hagree.signals hnext
  refine ⟨t', hnext', ?_⟩
  rcases hagree.outcome with ⟨reply, houtcome, houtcome'⟩ | ⟨p', q', hplaces, houtcome, houtcome'⟩
  · obtain ⟨hlt, hthere⟩ := List.getElem?_eq_some_iff.1 hself
    refine .alike ⟨hnow, hstate, ?_⟩
    rw [hthreads, houtcome', ← houtcome, ← hthere, List.set_getElem_self]
  · rw [houtcome] at hself
    rw [houtcome'] at hthreads
    exact .apart hplaces ⟨hnow, hstate, hself, hthreads⟩

/-- An event leaves them together. -/
theorem Coupled.next {event : Event M} (h : Coupled related thread s s')
    (hmatched : Matched related) (hnext : s.next event = some t) :
    ∃ t', s'.next event = some t' ∧ Coupled related thread t t' := by
  cases h with
  | alike same =>
    obtain ⟨t', hnext', hsame, _⟩ := same.next hnext
    exact ⟨t', hnext', .alike hsame⟩
  | @apart p q places twins =>
    by_cases hown : ∃ input wakee, event = .step thread input wakee
    · obtain ⟨input, wakee, rfl⟩ := hown
      rcases hmatched places s.state s.now input with ⟨hnone, _⟩ | ⟨move, move', hp, hq, hagree⟩
      · obtain ⟨position, move, hplace, moves, _⟩ := moves_of_next hnext
        rw [placeIn, twins.here, Option.bind_some] at hplace
        cases hplace
        rw [hnone] at moves
        contradiction
      · exact twins.coupled hp hq hagree hnext
    · have hother : ∀ input wakee, event ≠ .step thread input wakee :=
        fun input wakee hsame => hown ⟨input, wakee, hsame⟩
      obtain ⟨t', hnext', htwins⟩ := twins.next hother hnext
      exact ⟨t', hnext', .apart places htwins⟩

theorem Coupled.run (h : Coupled related thread s s') (hmatched : Matched related)
    (hrun : s.run events = some t) :
    ∃ t', s'.run events = some t' ∧ Coupled related thread t t' := by
  induction events generalizing s s' with
  | nil =>
    cases hrun
    exact ⟨s', rfl, h⟩
  | cons event rest ih =>
    obtain ⟨between, hnext, hrest⟩ := Option.bind_eq_some_iff.1 hrun
    obtain ⟨between', hnext', hbetween⟩ := h.next hmatched hnext
    obtain ⟨t', hrest', hend⟩ := ih hbetween hrest
    refine ⟨t', ?_, hend⟩
    rw [System.run, hnext']
    exact hrest'

/-- What shows of a system, but for where one thread is in its call. -/
def apartFrom (thread : Nat) (s : System M) :
    Instant × M.State × List (Phase M) × Option M.Reply :=
  (s.now, s.state, s.others thread, s.replyOf thread)

theorem Coupled.apartFrom_eq (h : Coupled related thread s s') :
    apartFrom thread s = apartFrom thread s' := by
  cases h with
  | alike same =>
    simp only [apartFrom, others, replyOf, same.now, same.state, same.threads]
  | apart places twins =>
    simp only [apartFrom, others, replyOf, twins.now, twins.state, twins.here, twins.there]
    rw [twins.threads, List.set_set]

/-- What can happen in the one can happen in the other, and comes to the same. -/
theorem Twins.map_run_of_agree (h : Twins thread p q s s') (hmatched : Matched related)
    {input : M.Input} (wakee : Nat)
    {move move' : Move M.State M.Position M.Reply M.Condition M.Note}
    (moves : M.step s.state s.now p input = some move)
    (moves' : M.step s.state s.now q input = some move') (hagree : Agree related move move')
    (rest : List (Event M)) :
    (s.run (.step thread input wakee :: rest)).map (apartFrom thread) =
      (s'.run (.step thread input wakee :: rest)).map (apartFrom thread) := by
  cases hrun : s.run (.step thread input wakee :: rest) with
  | some t =>
    obtain ⟨between, hnext, hrest⟩ := Option.bind_eq_some_iff.1 hrun
    obtain ⟨between', hnext', hbetween⟩ := h.coupled moves moves' hagree hnext
    obtain ⟨t', hrest', hend⟩ := hbetween.run hmatched hrest
    rw [System.run, hnext', Option.bind_some, hrest', Option.map_some, Option.map_some,
      hend.apartFrom_eq]
  | none =>
    cases hrun' : s'.run (.step thread input wakee :: rest) with
    | none => rfl
    | some t' =>
      obtain ⟨between', hnext', hrest'⟩ := Option.bind_eq_some_iff.1 hrun'
      rw [← h.state, ← h.now] at moves moves'
      obtain ⟨between, hnext, hbetween⟩ := h.symm.coupled moves' moves hagree.symm hnext'
      obtain ⟨t, hrest, _⟩ := hbetween.run hmatched.symm hrest'
      rw [System.run, hnext, Option.bind_some, hrest] at hrun
      contradiction

end Coupled

end Backpressure.System
