import Mathlib.Data.List.Basic
import Backpressure.Proofs.Course
import Backpressure.Proofs.Following
import Backpressure.Proofs.Part
import Backpressure.Proofs.Twins

/-!
# Lanes of a monitor

A lane is some of the calls of a monitor, which neither see nor disturb what the other calls do.
Every schedule has a schedule of the lane alone, in which nobody makes any of the other calls. What
the calls of the lane do, and what they return, is the same in both.
-/

namespace Backpressure

variable {M : Monitor}

/-- The condition of a signal. -/
def Signal.condition {Condition : Type} : Signal Condition → Condition
  | .one condition | .all condition => condition

/-- A step of which only some of the state shows. -/
def Move.masked {State Position Reply Condition Note : Type}
    (move : Move State Position Reply Condition Note) (state : State → State)
    (reply : Reply → Reply) : Move State Position Reply Condition Note :=
  { move with
    state := state move.state
    outcome := match move.outcome with
      | .reply r => .reply (reply r)
      | outcome => outcome }

/-- A lane of a monitor. -/
structure Lane (M : Monitor) where
  /-- Is a call in the lane? -/
  asks : M.Request → Bool
  /-- Is a thread at this place in a call of the lane? -/
  keeps : M.Position → Bool
  /-- Do the calls of the lane wait for this, and no others? -/
  owns : M.Condition → Bool
  /-- The state, with all that does not belong to the lane as it is in the lane alone. -/
  state : M.State → M.State
  /-- What a call of the lane returns in the lane alone. -/
  reply : M.Reply → M.Reply
  begins : ∀ request now, keeps (M.start request now) = asks request
  stays : ∀ {state now position input move place}, M.step state now position input = some move →
    (Phase.ofOutcome move.outcome).place? = some place → keeps place = keeps position
  sleeps : ∀ {state now position input move condition wakeAt place},
    M.step state now position input = some move →
      move.outcome = .sleep condition wakeAt place → owns condition = keeps place
  wakes : ∀ {state now position input move}, M.step state now position input = some move →
    ∀ signal ∈ move.signals, owns signal.condition = keeps position
  lasts : ∀ {state now position input move}, M.step state now position input = some move →
    move.outcome ≠ .exit
  /-- A step of the lane sees and does the same in the lane alone. -/
  inside : ∀ {s now position input move}, M.step s now position input = some move →
    keeps position = true → M.step (state s) now position input = some (move.masked state reply)
  /-- Any other step does nothing that the lane shows. -/
  outside : ∀ {s now position input move}, M.step s now position input = some move →
    keeps position = false → state move.state = state s

namespace Lane

variable (lane : Lane M)

/-- What a thread does in the lane alone. -/
def phase (phase : Phase M) : Phase M :=
  if phase.place?.all lane.keeps then phase.still else .idle

/-- The conditions of the lane, under their own names. -/
def condition? (condition : M.Condition) : Option M.Condition :=
  if lane.owns condition then some condition else none

/-- A call of the lane that has returned, in the lane alone. -/
def returned (returned : Call M × M.Reply) : Call M × M.Reply :=
  (returned.1, lane.reply returned.2)

/-- Does an event happen in the lane alone as well? Not a call of another kind, nor what its thread
does in it. -/
def keepsEvent (s : System M) : Event M → Bool
  | .call _ request => lane.asks request
  | .rouse thread | .step thread _ _ => (placeIn s.threads thread).all lane.keeps
  | .elapse _ | .arrive => true

/-- A schedule without the calls that are not in the lane, and without the steps of these calls. -/
def schedule (s : System M) : List (Event M) → List (Event M)
  | [] => []
  | event :: rest =>
    [event].filter (lane.keepsEvent s) ++ ((s.next event).map (schedule · rest)).getD []

/-! ### Threads and signals -/

section Threads

variable {lane} {phase : Phase M} {position : M.Position}

theorem phase_of_keeps (hplace : phase.place? = some position)
    (hkeeps : lane.keeps position = true) : lane.phase phase = phase.still := by
  rw [Lane.phase, hplace, Option.all_some, if_pos hkeeps]

theorem phase_of_not_keeps (hplace : phase.place? = some position)
    (hkeeps : lane.keeps position = false) : lane.phase phase = .idle := by
  rw [Lane.phase, hplace, Option.all_some, hkeeps]
  rfl

theorem phase_of_nowhere (hplace : phase.place? = none) : lane.phase phase = .idle := by
  rw [Lane.phase, hplace]
  cases phase <;> first | rfl | contradiction

@[simp]
theorem phase_idle : lane.phase .idle = .idle := phase_of_nowhere rfl

theorem phase_of_isFree (hfree : phase.isFree = true) : lane.phase phase = .idle := by
  cases phase <;> first | exact phase_of_nowhere rfl | contradiction

theorem phase_wake (phase : Phase M) : lane.phase phase.wake = (lane.phase phase).wake := by
  rw [Lane.phase, Lane.phase, Phase.place?_wake]
  split
  · exact Phase.still_wake phase
  · rfl

/-- Threads sleep on the conditions of the lane within its calls, and nowhere else. -/
def Tidy (lane : Lane M) : Phase M → Prop
  | .asleep condition _ position => lane.owns condition = lane.keeps position
  | _ => True

theorem Tidy.wake (h : lane.Tidy phase) : lane.Tidy phase.wake := by
  cases phase with
  | asleep => trivial
  | _ => exact h

/-- A change keeps threads tidy. -/
theorem tidy_of_change {s s' : System M} {event : Event M} (h : ∀ p ∈ s.threads, lane.Tidy p)
    (hchange : System.Change s event s') : ∀ p ∈ s'.threads, lane.Tidy p := by
  intro p hmem
  cases hchange with
  | elapse => exact h p hmem
  | arrive =>
    rcases List.mem_append.1 hmem with hold | hnew
    · exact h p hold
    · rw [List.mem_singleton.1 hnew]
      trivial
  | call | rouse =>
    rcases List.mem_or_eq_of_mem_set hmem with hold | rfl
    · exact h p hold
    · trivial
  | @step thread wakee input before position move threads here awake moves wakes =>
    rcases List.mem_or_eq_of_mem_set hmem with hold | rfl
    · exact System.forall_mem_deliverAll (P := lane.Tidy) (fun _ => Tidy.wake) h wakes p hold
    · cases houtcome : move.outcome with
      | sleep condition wakeAt place => exact lane.sleeps moves houtcome
      | _ => trivial

/-- Where all threads are tidy, the lane alone has the sleepers of its own calls. -/
theorem keepsSleepers {threads : List (Phase M)} (h : ∀ p ∈ threads, lane.Tidy p) :
    KeepsSleepers lane.phase lane.condition? threads where
  sleepsOn p hmem c' c hc := by
    obtain ⟨howns, rfl⟩ : lane.owns c' = true ∧ c' = c := by
      simpa [condition?] using hc
    cases p with
    | asleep condition wakeAt position =>
      have htidy : lane.owns condition = lane.keeps position := h _ hmem
      cases hkeeps : lane.keeps position with
      | true => rw [phase_of_keeps rfl hkeeps, Phase.sleepsOn_still]
      | false =>
        have hother : condition ≠ c' := by
          rintro rfl
          rw [howns, hkeeps] at htidy
          contradiction
        rw [phase_of_not_keeps rfl hkeeps]
        exact (decide_eq_false hother).symm
    | ready position | woken _ position =>
      cases hkeeps : lane.keeps position with
      | true => rw [phase_of_keeps rfl hkeeps, Phase.sleepsOn_still]
      | false =>
        rw [phase_of_not_keeps rfl hkeeps]
        rfl
    | idle => rfl
    | returned | ended => exact (congrArg (Phase.sleepsOn c') (phase_of_nowhere rfl)).trans rfl
  wake p _ := phase_wake p
  other p hmem c' hc hsleeps := by
    have howns : lane.owns c' = false := by simpa [condition?] using hc
    cases p with
    | asleep condition wakeAt position =>
      obtain rfl : condition = c' := of_decide_eq_true hsleeps
      have htidy : lane.owns condition = lane.keeps position := h _ hmem
      rw [phase_wake, phase_of_not_keeps rfl (htidy.symm.trans howns)]
      rfl
    | _ => contradiction

/-- A signal reaches the lane alone, where it is one of its own. -/
theorem through_condition? (signal : Signal M.Condition) :
    signal.through lane.condition? = if lane.owns signal.condition then some signal else none := by
  cases signal with
  | one condition | all condition =>
    cases howns : lane.owns condition <;>
      simp [Signal.through, condition?, Signal.condition, howns]

/-- The signals of a step of the lane are signals of the lane alone. -/
theorem filterMap_through_of_keeps {s : M.State} {now : Instant} {input : M.Input}
    {move : Move M.State M.Position M.Reply M.Condition M.Note}
    (moves : M.step s now position input = some move) (hkeeps : lane.keeps position = true) :
    move.signals.filterMap (·.through lane.condition?) = move.signals := by
  refine Eq.trans ?_ (filterMap_through_some move.signals)
  apply List.filterMap_congr
  intro signal hsignal
  rw [through_condition?, lane.wakes moves signal hsignal, hkeeps]
  cases signal <;> rfl

/-- The signals of any other step are none of the lane alone. -/
theorem filterMap_through_of_not_keeps {s : M.State} {now : Instant} {input : M.Input}
    {move : Move M.State M.Position M.Reply M.Condition M.Note}
    (moves : M.step s now position input = some move) (hkeeps : lane.keeps position = false) :
    move.signals.filterMap (·.through lane.condition?) = [] := by
  rw [List.filterMap_eq_nil_iff]
  intro signal hsignal
  rw [through_condition?, lane.wakes moves signal hsignal, hkeeps]
  rfl

/-- A step of the lane leaves its thread where it leaves it in the lane alone. -/
theorem phase_ofOutcome_of_keeps {s : M.State} {now : Instant} {input : M.Input}
    {move : Move M.State M.Position M.Reply M.Condition M.Note}
    (moves : M.step s now position input = some move) (hkeeps : lane.keeps position = true) :
    (Phase.ofOutcome (M := M) (move.masked lane.state lane.reply).outcome).still =
      lane.phase (.ofOutcome move.outcome) := by
  have hstays : ∀ place, (Phase.ofOutcome (M := M) move.outcome).place? = some place →
      lane.keeps place = lane.keeps position := fun _ => lane.stays moves
  simp only [Move.masked]
  cases houtcome : move.outcome with
  | proceed place | sleep _ _ place =>
    rw [houtcome] at hstays
    exact (phase_of_keeps rfl ((hstays place rfl).trans hkeeps)).symm
  | reply | exit => rfl

/-- Any other step leaves its thread outside the lane. -/
theorem phase_ofOutcome_of_not_keeps {s : M.State} {now : Instant} {input : M.Input}
    {move : Move M.State M.Position M.Reply M.Condition M.Note}
    (moves : M.step s now position input = some move) (hkeeps : lane.keeps position = false) :
    lane.phase (.ofOutcome move.outcome) = .idle := by
  have hstays : ∀ place, (Phase.ofOutcome (M := M) move.outcome).place? = some place →
      lane.keeps place = lane.keeps position := fun _ => lane.stays moves
  cases hplace : (Phase.ofOutcome (M := M) move.outcome).place? with
  | none => exact phase_of_nowhere hplace
  | some place => exact phase_of_not_keeps hplace ((hstays place hplace).trans hkeeps)

end Threads

/-! ### Calls -/

/-- The calls of a lane stay in it. -/
def rule : CallRule M where
  stands call? position := ∃ call, call? = some call ∧ lane.asks call.request = lane.keeps position
  comes _ _ := True
  start thread request now := ⟨_, rfl, (lane.begins request now).symm⟩
  step := by
    rintro _ position state now input move ⟨call, rfl, hasks⟩ moves
    refine ⟨?_, fun _ _ _ _ => trivial⟩
    intro place hplace
    exact ⟨_, rfl, hasks.trans (lane.stays moves hplace).symm⟩

/-- What a run of all calls and a run of the calls of a lane have in common. -/
structure Mirrors (s t : System M) : Prop where
  now : t.now = s.now
  state : t.state = lane.state s.state
  /-- A thread in a call of the lane does the same, any other thread is free. -/
  threads : t.threads.map .still = s.threads.map lane.phase
  calls : ∀ thread, openCall thread t.journal =
    (openCall thread s.journal).filter (lane.asks ·.request)
  returns : t.returns = (s.returns.filter (lane.asks ·.1.request)).map lane.returned
  /-- No thread ends. -/
  alive : ∀ thread, t.hasEnded thread = false

namespace Mirrors

variable {lane} {s s' t : System M} {thread : Nat}

theorem getElem? (h : lane.Mirrors s t) {phase : Phase M} (here : s.threads[thread]? = some phase) :
    t.view.threads[thread]? = some (lane.phase phase) := by
  have hthreads : t.view.threads = s.threads.map lane.phase := h.threads
  rw [hthreads, List.getElem?_map, here, Option.map_some]

/-- A thread in a call of the lane does the same in the run of the lane alone. -/
theorem getElem?_iff (h : lane.Mirrors s t) {phase : Phase M} {position : M.Position}
    (hplace : phase.place? = some position) (hkeeps : lane.keeps position = true) :
    t.threads[thread]? = some phase ↔ s.threads[thread]? = some phase := by
  have hself : phase.still = phase := by cases phase <;> first | rfl | contradiction
  have hstill : ∀ {p : Phase M}, p.still = phase → p = phase := by
    rintro p rfl
    cases p <;> first | rfl | contradiction
  have hthreads := congrArg (·[thread]?) h.threads
  simp only [List.getElem?_map] at hthreads
  constructor
  · intro there
    rw [there, Option.map_some, hself, eq_comm, Option.map_eq_some_iff] at hthreads
    obtain ⟨p, here, hp⟩ := hthreads
    rw [here]
    simp only [Lane.phase] at hp
    split at hp
    · rw [hstill hp]
    · rw [← hp] at hplace
      contradiction
  · intro here
    rw [here, Option.map_some, phase_of_keeps hplace hkeeps, hself, Option.map_eq_some_iff]
      at hthreads
    obtain ⟨p, there, hp⟩ := hthreads
    rw [there, hstill hp]

/-- What a thread does outside the lane does not show. -/
theorem set_of_not_kept {threads : List (Phase M)} {before after : Phase M}
    (here : threads[thread]? = some before) (hbefore : lane.phase before = .idle)
    (hafter : lane.phase after = .idle) :
    (threads.set thread after).map lane.phase = threads.map lane.phase := by
  rw [List.map_set, hafter, ← hbefore]
  apply Part.set_same
  rw [List.getElem?_map, here, Option.map_some]

theorem elapse (h : lane.Mirrors s t) {duration : Duration} {now : Instant}
    (later : s.now.add? duration = some now) :
    ∃ t', t.next (.elapse duration) = some t' ∧ lane.Mirrors { s with now } t' := by
  rw [← h.now] at later
  exact ⟨_, System.next_eq_some_iff.2 (.elapse later), rfl, h.state, h.threads, h.calls, h.returns,
    h.alive⟩

/-- A thread that has not ended before an event has not ended after it. -/
theorem alive_of_ended {t' : System M} (h : lane.Mirrors s t)
    (hended : ∀ u, t'.hasEnded u = true → t.hasEnded u = true) : ∀ u, t'.hasEnded u = false := by
  intro u
  by_contra hends
  have hold := hended u (Bool.of_not_eq_false hends)
  rw [h.alive u] at hold
  contradiction

theorem arrive (h : lane.Mirrors s t) :
    ∃ t', t.next .arrive = some t' ∧
      lane.Mirrors { s with threads := s.threads ++ [.idle] } t' := by
  obtain ⟨t', hnext, _, _, hended⟩ := System.exists_arrive t
  cases hnext
  refine ⟨_, rfl, h.now, h.state, ?_, h.calls, h.returns, h.alive_of_ended hended⟩
  simp only [List.map_append, h.threads, List.map_singleton, phase_idle, Phase.still]

section Call

variable {request : M.Request} {phase : Phase M}

/-- A call of the lane begins in the lane alone as well. -/
theorem call_kept (h : lane.Mirrors s t) (here : s.threads[thread]? = some phase)
    (free : phase.isFree = true) (hasks : lane.asks request = true) :
    ∃ t', t.next (.call thread request) = some t' ∧ lane.Mirrors
      { s with
        threads := s.threads.set thread (.ready (M.start request s.now))
        journal := .called thread request :: s.journal } t' := by
  have hidle : t.view.threads[thread]? = some .idle := by
    rw [h.getElem? here, phase_of_isFree free]
  obtain ⟨t', hnext, _, hview, hended⟩ := System.exists_call hidle (h.alive thread)
  have hkeeps := (lane.begins request s.now).trans hasks
  refine ⟨t', hnext, ?_⟩
  cases System.next_eq_some_iff.1 hnext with
  | call there isFree =>
    refine ⟨h.now, h.state, ?_, ?_, h.returns, h.alive_of_ended hended⟩
    · simp only [List.map_set, h.threads, h.now]
      rw [phase_of_keeps (Phase.place?_ready _) hkeeps]
    · intro u
      by_cases hu : thread = u
      · simp [openCall, hu, Option.filter, hasks]
      · simp [openCall, hu, h.calls u]

/-- A call outside the lane does not show as it begins. -/
theorem call_not_kept (h : lane.Mirrors s t) (hone : OneByOne s)
    (here : s.threads[thread]? = some phase) (free : phase.isFree = true)
    (hasks : lane.asks request = false) : lane.Mirrors
      { s with
        threads := s.threads.set thread (.ready (M.start request s.now))
        journal := .called thread request :: s.journal } t := by
  have hkeeps := (lane.begins request s.now).trans hasks
  refine ⟨h.now, h.state, ?_, ?_, h.returns, h.alive⟩
  · rw [h.threads, set_of_not_kept here (phase_of_isFree free)
      (phase_of_not_keeps (Phase.place?_ready _) hkeeps)]
  · intro u
    by_cases hu : thread = u
    · have hnone : openCall thread s.journal = none := hone.free (by simp [here, free])
      have hbefore := h.calls thread
      rw [hnone] at hbefore
      subst hu
      simp [openCall, Option.filter, hasks, hbefore]
    · simp [openCall, hu, h.calls u]

end Call

section Rouse

variable {condition : M.Condition} {wakeAt : Deadline} {position : M.Position}

/-- A sleeper of the lane is roused in the lane alone as well. -/
theorem rouse_kept (h : lane.Mirrors s t)
    (here : s.threads[thread]? = some (.asleep condition wakeAt position))
    (hkeeps : lane.keeps position = true) :
    ∃ t', t.next (.rouse thread) = some t' ∧
      lane.Mirrors { s with threads := s.threads.set thread (.woken condition position) } t' := by
  have hasleep := h.getElem? here
  rw [phase_of_keeps (Phase.place?_asleep _ _ _) hkeeps] at hasleep
  obtain ⟨t', hnext, hnow, hview, hended⟩ := System.exists_rouse hasleep
  refine ⟨t', hnext, hnow.trans h.now, (congrArg View.state hview).trans h.state, ?_, ?_, ?_,
    h.alive_of_ended hended⟩
  · have hthreads : t'.threads.map Phase.still =
        (t.threads.map Phase.still).set thread (.woken condition position) :=
      congrArg View.threads hview
    rw [hthreads, h.threads, List.map_set, phase_of_keeps (Phase.place?_woken _ _) hkeeps]
    rfl
  · cases System.next_eq_some_iff.1 hnext
    exact h.calls
  · cases System.next_eq_some_iff.1 hnext
    exact h.returns

/-- A sleeper outside the lane does not show, asleep or awake. -/
theorem rouse_not_kept (h : lane.Mirrors s t)
    (here : s.threads[thread]? = some (.asleep condition wakeAt position))
    (hkeeps : lane.keeps position = false) :
    lane.Mirrors { s with threads := s.threads.set thread (.woken condition position) } t := by
  refine ⟨h.now, h.state, ?_, h.calls, h.returns, h.alive⟩
  rw [h.threads, set_of_not_kept here (phase_of_not_keeps (Phase.place?_asleep _ _ _) hkeeps)
    (phase_of_not_keeps (Phase.place?_woken _ _) hkeeps)]

end Rouse

section Step

variable {wakee : Nat} {input : M.Input} {phase : Phase M} {position : M.Position}
  {move : Move M.State M.Position M.Reply M.Condition M.Note} {threads : List (Phase M)}

/-- The signals of a step reach the lane alone. -/
theorem wakes (h : lane.Mirrors s t) (htidy : ∀ p ∈ s.threads, lane.Tidy p)
    (wakes : System.deliverAll wakee move.signals s.threads = some threads) :
    System.deliverAll wakee (move.signals.filterMap (·.through lane.condition?)) t.view.threads =
      some (threads.map lane.phase) := by
  have hthreads : t.view.threads = s.threads.map lane.phase := h.threads
  rw [hthreads]
  exact (keepsSleepers htidy).deliverAll wakes

/-- The call that a step brings to its end is one of the lane alone, if it is in the lane. -/
theorem endedBy_masked (h : lane.Mirrors s t) :
    (endedBy thread (move.masked lane.state lane.reply) t.journal).toList =
      ((endedBy thread move s.journal).toList.filter (lane.asks ·.1.request)).map
        lane.returned := by
  simp only [endedBy, Move.masked]
  cases move.outcome with
  | reply reply =>
    rw [h.calls thread]
    cases hopen : openCall thread s.journal with
    | none => rfl
    | some call =>
      cases hasks : lane.asks call.request <;>
        simp [Option.filter, hasks, Call.record, Lane.returned]
  | _ => rfl

/-- A call of the lane that goes on, or ends, does so in the lane alone. -/
theorem openCall_masked (h : lane.Mirrors s t) (u : Nat) :
    openCall u ((System.entries thread (move.masked lane.state lane.reply)).reverse ++ t.journal) =
      (openCall u ((System.entries thread move).reverse ++ s.journal)).filter
        (lane.asks ·.request) := by
  by_cases hu : thread = u
  · subst hu
    rw [openCall_entries, openCall_entries, h.calls thread]
    have hrecord : ∀ call? : Option (Call M),
        (call?.filter (lane.asks ·.request)).map (·.record move.notes) =
          (call?.map (·.record move.notes)).filter (lane.asks ·.request) := by
      intro call?
      cases call? with
      | none => rfl
      | some call =>
        cases hasks : lane.asks call.request <;> simp [Option.filter, hasks, Call.record]
    simp only [Move.masked]
    cases move.outcome with
    | reply => rfl
    | _ => exact hrecord _
  · rw [openCall_entries_of_ne hu, openCall_entries_of_ne hu, h.calls u]

/-- A step of the lane is taken in the lane alone as well. -/
theorem step_kept (h : lane.Mirrors s t) (htidy : ∀ p ∈ s.threads, lane.Tidy p)
    (here : s.threads[thread]? = some phase) (awake : phase.position? = some position)
    (moves : M.step s.state s.now position input = some move)
    (wakes : System.deliverAll wakee move.signals s.threads = some threads)
    (hkeeps : lane.keeps position = true) :
    ∃ t', t.next (.step thread input wakee) = some t' ∧ lane.Mirrors
      { now := s.now
        state := move.state
        threads := threads.set thread (.ofOutcome move.outcome)
        journal := (System.entries thread move).reverse ++ s.journal } t' := by
  have hthere := h.getElem? here
  rw [phase_of_keeps (Phase.place?_of_position? awake) hkeeps] at hthere
  have hawake : phase.still.position? = some position := (Phase.position?_still _).trans awake
  have hwakes := h.wakes htidy wakes
  rw [filterMap_through_of_keeps moves hkeeps] at hwakes
  have hmoves := lane.inside moves hkeeps
  rw [← h.state, ← h.now] at hmoves
  obtain ⟨t', hnext, hnow, hview, hended⟩ := System.exists_step hthere hawake hmoves hwakes
  have hplace : placeIn t.threads thread = some position := by
    rw [← placeIn_map_still]
    exact placeIn_of_awake hthere hawake
  have hjournal : t'.journal =
      (System.entries thread (move.masked lane.state lane.reply)).reverse ++ t.journal := by
    obtain ⟨_, _, rfl⟩ := System.eq_of_next hnext hplace hmoves
    rfl
  refine ⟨t', hnext, hnow.trans h.now, congrArg View.state hview, ?_, ?_, ?_, ?_⟩
  · have hthreads : t'.threads.map Phase.still = (threads.map lane.phase).set thread
        (Phase.ofOutcome (move.masked lane.state lane.reply).outcome).still :=
      congrArg View.threads hview
    rw [hthreads, List.map_set, phase_ofOutcome_of_keeps moves hkeeps]
  · intro u
    rw [hjournal]
    exact h.openCall_masked u
  · rw [System.returns_of_next hnext hplace hmoves, returns_entries, h.endedBy_masked, h.returns,
      List.filter_append, List.map_append]
    rfl
  · refine h.alive_of_ended fun u hends => (hended u hends).resolve_left ?_
    rintro ⟨_, hexit⟩
    exact lane.lasts hmoves hexit

/-- A step outside the lane does not show. -/
theorem step_not_kept (h : lane.Mirrors s t) (htidy : ∀ p ∈ s.threads, lane.Tidy p)
    (hrule : lane.rule.Holds s) (here : s.threads[thread]? = some phase)
    (awake : phase.position? = some position)
    (moves : M.step s.state s.now position input = some move)
    (wakes : System.deliverAll wakee move.signals s.threads = some threads)
    (hkeeps : lane.keeps position = false) : lane.Mirrors
      { now := s.now
        state := move.state
        threads := threads.set thread (.ofOutcome move.outcome)
        journal := (System.entries thread move).reverse ++ s.journal } t := by
  have hplace : placeIn s.threads thread = some position := placeIn_of_awake here awake
  obtain ⟨call, hopen, hasks⟩ := hrule.stands hplace
  rw [hkeeps] at hasks
  have hwakes := h.wakes htidy wakes
  rw [filterMap_through_of_not_keeps moves hkeeps] at hwakes
  have hsame : t.threads.map Phase.still = threads.map lane.phase := Option.some.inj hwakes
  have hbefore := h.getElem? here
  rw [phase_of_not_keeps (Phase.place?_of_position? awake) hkeeps] at hbefore
  refine ⟨h.now, h.state.trans (lane.outside moves hkeeps).symm, ?_, ?_, ?_, h.alive⟩
  · rw [List.map_set, phase_ofOutcome_of_not_keeps moves hkeeps, ← hsame]
    exact (Part.set_same hbefore).symm
  · intro u
    by_cases hu : thread = u
    · subst hu
      rw [openCall_entries, h.calls thread, hopen]
      cases move.outcome <;> simp [Option.filter, hasks, Call.record]
    · rw [openCall_entries_of_ne hu, h.calls u]
  · rw [returns_entries, List.filter_append, List.map_append]
    have hnone : (endedBy thread move s.journal).toList.filter (lane.asks ·.1.request) = [] := by
      rw [endedBy, hopen]
      cases move.outcome <;> simp [hasks, Call.record]
    rw [hnone, h.returns]
    exact (List.append_nil _).symm

end Step

/-- An event of the run of all calls happens in the run of the lane alone, or does not show
there. -/
theorem next (h : lane.Mirrors s t) (hone : OneByOne s) (hrule : lane.rule.Holds s)
    (htidy : ∀ p ∈ s.threads, lane.Tidy p) {event : Event M} (hnext : s.next event = some s') :
    ∃ t', t.run ([event].filter (lane.keepsEvent s)) = some t' ∧ lane.Mirrors s' t' := by
  have hkept : lane.keepsEvent s event = true →
      t.run ([event].filter (lane.keepsEvent s)) = t.next event := fun hkeeps => by
    rw [List.filter_singleton, hkeeps, cond_true, System.run_singleton]
  have hdropped : lane.keepsEvent s event = false →
      t.run ([event].filter (lane.keepsEvent s)) = some t := fun hkeeps => by
    rw [List.filter_singleton, hkeeps]
    rfl
  cases System.next_eq_some_iff.1 hnext with
  | elapse later =>
    rw [hkept rfl]
    exact h.elapse later
  | arrive =>
    rw [hkept rfl]
    exact h.arrive
  | @call thread request phase here free =>
    cases hasks : lane.asks request with
    | true =>
      rw [hkept hasks]
      exact h.call_kept here free hasks
    | false => exact ⟨t, hdropped hasks, h.call_not_kept hone here free hasks⟩
  | @rouse thread condition wakeAt position here =>
    have hplace : lane.keepsEvent s (.rouse thread) = lane.keeps position := by
      rw [keepsEvent, placeIn, here]
      rfl
    cases hkeeps : lane.keeps position with
    | true =>
      rw [hkept (hplace.trans hkeeps)]
      exact h.rouse_kept here hkeeps
    | false => exact ⟨t, hdropped (hplace.trans hkeeps), h.rouse_not_kept here hkeeps⟩
  | @step thread wakee input phase position move threads here awake moves wakes =>
    have hplace : lane.keepsEvent s (.step thread input wakee) = lane.keeps position := by
      rw [keepsEvent, placeIn_of_awake here awake]
      rfl
    cases hkeeps : lane.keeps position with
    | true =>
      rw [hkept (hplace.trans hkeeps)]
      exact h.step_kept htidy here awake moves wakes hkeeps
    | false =>
      exact ⟨t, hdropped (hplace.trans hkeeps),
        h.step_not_kept htidy hrule here awake moves wakes hkeeps⟩

/-- A run of all calls is a run of the lane alone, once the events that do not show there are left
out. -/
theorem run (h : lane.Mirrors s t) (hone : OneByOne s) (hrule : lane.rule.Holds s)
    (htidy : ∀ p ∈ s.threads, lane.Tidy p) {events : List (Event M)}
    (hrun : s.run events = some s') :
    ∃ t', t.run (lane.schedule s events) = some t' ∧ lane.Mirrors s' t' := by
  induction events generalizing s t with
  | nil =>
    cases hrun
    exact ⟨t, rfl, h⟩
  | cons event rest ih =>
    obtain ⟨between, hnext, hrest⟩ := Option.bind_eq_some_iff.1 hrun
    obtain ⟨t', hfirst, hbetween⟩ := h.next hone hrule htidy hnext
    have hchange := System.next_eq_some_iff.1 hnext
    obtain ⟨t'', hlater, hend⟩ := ih hbetween (hone.change hchange) (hrule.change hchange)
      (tidy_of_change htidy hchange) hrest
    refine ⟨t'', ?_, hend⟩
    rw [schedule, System.run_append, hfirst, Option.bind_some, hnext, Option.map_some,
      Option.getD_some, hlater]

/-- Before anything happens, both are the same where the state has nothing outside the lane. -/
theorem start {state : M.State} (now : Instant) (hstate : lane.state state = state) :
    lane.Mirrors (.initial state now []) (.initial state now []) :=
  ⟨rfl, hstate.symm, rfl, fun _ => rfl, rfl, fun _ => rfl⟩

end Mirrors

theorem tidy_of_reachable {state : M.State} {now : Instant} {s : System M}
    (h : (System.initial state now []).Reachable s) : ∀ p ∈ s.threads, lane.Tidy p :=
  h.reachableBy.invariant (P := fun s => ∀ p ∈ s.threads, lane.Tidy p) nofun
    fun holds _ hchange => tidy_of_change holds hchange

/-- To every run there is a run of the lane alone, which does what the lane does, from beginning to
end. -/
theorem exists_alone {state : M.State} {now : Instant} (hstate : lane.state state = state)
    {first later : List (Event M)} {s s' : System M}
    (hfirst : (System.initial state now []).run first = some s) (hlater : s.run later = some s') :
    ∃ t t', (System.initial state now []).run (lane.schedule (.initial state now []) first) =
        some t ∧
      t.run (lane.schedule s later) = some t' ∧ lane.Mirrors s t ∧ lane.Mirrors s' t' := by
  have hreachable : (System.initial state now []).Reachable s := .run .start hfirst
  obtain ⟨t, hrun, hmirrors⟩ := (Mirrors.start now hstate).run (.of_reachable .start)
    (CallRule.holds .start nofun) nofun hfirst
  obtain ⟨t', hrun', hmirrors'⟩ := hmirrors.run (.of_reachable hreachable)
    (CallRule.holds hreachable nofun) (lane.tidy_of_reachable hreachable) hlater
  exact ⟨t, t', hrun, hrun', hmirrors, hmirrors'⟩

end Lane

end Backpressure
