import Backpressure.Proofs.Following
import Backpressure.Proofs.Twins

/-!
# What makes no difference

A monitor can be looked at with some of what happens in it replaced by something else. Where every
step does the same to what is left, so does every run: it makes no difference to the rest what the
replaced things are.
-/

namespace Backpressure

variable {M : Monitor}

/-- A way of looking at a monitor that replaces some of what happens there, and to which every step
is a step. -/
structure Blind (M : Monitor) where
  state : M.State → M.State
  position : M.Position → M.Position
  reply : M.Reply → M.Reply
  note : M.Note → M.Note
  input : M.Input → M.Input
  /-- Calls begin as they do. -/
  start : ∀ request now, position (M.start request now) = M.start request now
  /-- What a step does is seen as what the step does that is seen. -/
  step : ∀ s now p i, M.step (state s) now (position p) (input i) =
    (M.step s now p i).map (·.embed state position id note fun r => .reply (reply r))

theorem Signal.map_id {Condition : Type} (signal : Signal Condition) : signal.map id = signal := by
  cases signal <;> rfl

namespace Blind

variable (blind : Blind M)

/-- A step as it is seen. -/
abbrev move (move : Move M.State M.Position M.Reply M.Condition M.Note) :
    Move M.State M.Position M.Reply M.Condition M.Note :=
  move.embed blind.state blind.position id blind.note fun r => .reply (blind.reply r)

/-- What a thread is seen to do. -/
def phase : Phase M → Phase M
  | .idle => .idle
  | .returned reply => .returned (blind.reply reply)
  | .ready position => .ready (blind.position position)
  | .asleep condition wakeAt position => .asleep condition wakeAt (blind.position position)
  | .woken condition position => .woken condition (blind.position position)
  | .ended => .ended

/-- What is seen of something that has happened. -/
def entry : Entry M → Entry M
  | .called thread request => .called thread request
  | .noted thread note => .noted thread (blind.note note)
  | .returned thread reply => .returned thread (blind.reply reply)

/-- What is seen of a call. -/
def call (call : Call M) : Call M := { call with notes := call.notes.map blind.note }

/-- What is seen of a call that has returned. -/
def returned (returned : Call M × M.Reply) : Call M × M.Reply :=
  (blind.call returned.1, blind.reply returned.2)

/-- What is seen of a system. -/
def system (s : System M) : System M :=
  { now := s.now
    state := blind.state s.state
    threads := s.threads.map blind.phase
    journal := s.journal.map blind.entry }

/-- What is seen of an event. -/
def event : Event M → Event M
  | .step thread input wakee => .step thread (blind.input input) wakee
  | .elapse duration => .elapse duration
  | .arrive => .arrive
  | .call thread request => .call thread request
  | .rouse thread => .rouse thread

/-! ### One event -/

section Phase

variable {blind}

@[simp]
theorem isFree_phase (phase : Phase M) : (blind.phase phase).isFree = phase.isFree := by
  cases phase <;> rfl

@[simp]
theorem place?_phase (phase : Phase M) :
    (blind.phase phase).place? = phase.place?.map blind.position := by
  cases phase <;> rfl

@[simp]
theorem position?_phase (phase : Phase M) :
    (blind.phase phase).position? = phase.position?.map blind.position := by
  cases phase <;> rfl

theorem sleepsOn_phase (condition : M.Condition) (phase : Phase M) :
    (blind.phase phase).sleepsOn condition = phase.sleepsOn condition := by
  cases phase <;> rfl

theorem phase_wake (phase : Phase M) : blind.phase phase.wake = (blind.phase phase).wake := by
  cases phase <;> rfl

theorem phase_ofOutcome (outcome : Outcome M.Position M.Reply M.Condition)
    {state : M.State} {signals : List (Signal M.Condition)} {notes : List M.Note} :
    blind.phase (.ofOutcome outcome) =
      .ofOutcome (blind.move { state, outcome, signals, notes }).outcome := by
  cases outcome <;> rfl

/-- What a step adds to the journal is seen as what the step that is seen adds. -/
theorem map_entries (thread : Nat)
    (move : Move M.State M.Position M.Reply M.Condition M.Note) :
    (System.entries thread move).map blind.entry = System.entries thread (blind.move move) := by
  have hnotes : (move.notes.map (Entry.noted (M := M) thread)).map blind.entry =
      (move.notes.map blind.note).map (.noted thread) := by
    simp only [List.map_map]
    rfl
  simp only [System.entries, List.map_append, hnotes, Move.embed]
  cases move.outcome <;> rfl

end Phase

theorem perform (s : System M) (thread wakee : Nat)
    (move : Move M.State M.Position M.Reply M.Condition M.Note) :
    (blind.system s).perform thread wakee (blind.move move) =
      (s.perform thread wakee move).map blind.system := by
  have hsignals : (blind.move move).signals = move.signals := by
    refine (List.map_congr_left ?_).trans (List.map_id _)
    intro signal _
    exact Signal.map_id signal
  have hphase : blind.phase (.ofOutcome move.outcome) =
      .ofOutcome (blind.move move).outcome := phase_ofOutcome move.outcome
  rw [System.perform, System.perform, hsignals, ← hphase]
  simp only [system, System.deliverAll_map sleepsOn_phase phase_wake, Option.map_map]
  congr 1
  funext threads
  simp only [Function.comp_apply, system, List.map_set, List.map_append, List.map_reverse,
    map_entries]
  rfl

/-- Every event is seen as an event of what is seen. -/
theorem next (s : System M) (event : Event M) :
    (blind.system s).next (blind.event event) = (s.next event).map blind.system := by
  cases event with
  | elapse duration =>
    simp only [Blind.event, System.next, system, Option.map_map]
    rfl
  | arrive => simp [Blind.event, System.next, system, phase]
  | call thread request =>
    simp only [Blind.event, System.next, system, List.getElem?_map]
    cases s.threads[thread]? with
    | none => rfl
    | some before =>
      simp only [Option.map_some, isFree_phase]
      split
      · simp [system, phase, entry, blind.start]
      · rfl
  | rouse thread =>
    simp only [Blind.event, System.next, system, List.getElem?_map]
    cases s.threads[thread]? with
    | none => rfl
    | some before => cases before <;> simp [system, phase]
  | step thread input wakee =>
    simp only [Blind.event, System.next, Option.bind_eq_bind]
    simp only [system, List.getElem?_map]
    cases s.threads[thread]? with
    | none => rfl
    | some before =>
      simp only [Option.map_some, Option.bind_some, position?_phase]
      cases before.position? with
      | none => rfl
      | some position =>
        simp only [Option.map_some, Option.bind_some, blind.step]
        cases M.step s.state s.now position input with
        | none => rfl
        | some move => exact blind.perform s thread wakee move

/-- Every run is seen as a run of what is seen. -/
theorem run (s : System M) (events : List (Event M)) :
    (blind.system s).run (events.map blind.event) = (s.run events).map blind.system := by
  induction events generalizing s with
  | nil => rfl
  | cons event rest ih =>
    rw [List.map_cons, System.run, System.run, blind.next]
    cases s.next event with
    | none => rfl
    | some between => exact ih between

/-- Schedules that are seen as the same can be followed equally far, and lead to what is seen as the
same. -/
theorem run_eq {events events' : List (Event M)}
    (h : events.map blind.event = events'.map blind.event) (s : System M) :
    (s.run events).map blind.system = (s.run events').map blind.system := by
  rw [← blind.run, ← blind.run, h]

/-! ### What is seen of a whole system -/

/-- A thread is seen at its place, as the place is seen. -/
theorem placeIn_system (s : System M) (thread : Nat) :
    placeIn (blind.system s).threads thread = (placeIn s.threads thread).map blind.position := by
  simp only [placeIn, system, List.getElem?_map]
  cases s.threads[thread]? with
  | none => rfl
  | some before => exact place?_phase before

theorem openCall_map (thread : Nat) (journal : List (Entry M)) :
    openCall thread (journal.map blind.entry) = (openCall thread journal).map blind.call := by
  induction journal with
  | nil => rfl
  | cons first earlier ih =>
    cases first with
    | called t request =>
      simp only [List.map_cons, entry, openCall, ih]
      split <;> rfl
    | noted t note =>
      simp only [List.map_cons, entry, openCall, ih]
      split
      · cases openCall thread earlier with
        | none => rfl
        | some before => simp [call, Call.record]
      · rfl
    | returned t reply =>
      simp only [List.map_cons, entry, openCall, ih]
      split <;> rfl

/-- The calls that have returned are seen as those of what is seen. -/
theorem returns_system (s : System M) :
    (blind.system s).returns = s.returns.map blind.returned := by
  have hcalls : ∀ journal : List (Entry M),
      returnedCalls (journal.map blind.entry) = (returnedCalls journal).map blind.returned := by
    intro journal
    induction journal with
    | nil => rfl
    | cons first earlier ih =>
      cases first with
      | called | noted => exact ih
      | returned t reply =>
        simp only [List.map_cons, entry, returnedCalls, ih, openCall_map]
        cases openCall t earlier <;> rfl
  simp only [System.returns, system, hcalls, List.map_reverse]

/-- What the threads have recorded is seen as what those of what is seen have. -/
theorem notes_system (s : System M) :
    (blind.system s).view.notes =
      s.view.notes.map fun noted => (noted.1, blind.note noted.2) := by
  simp only [System.view, system, List.filterMap_map, List.map_filterMap]
  apply congrFun
  congr 1
  funext first
  cases first <;> rfl

end Blind

end Backpressure
