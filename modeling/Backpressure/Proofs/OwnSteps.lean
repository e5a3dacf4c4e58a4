import Backpressure.Proofs.Course

/-!
# The steps of one call

Between two steps of a call anything may happen, and none of it is the call's doing. What a call has
done by itself is what its own steps have done, each to the system that it found. They are kept
here in order, with the systems before and after each of them. A call that has returned did so at
the last one, and the ones before it led from place to place within the call.
-/

namespace Backpressure

variable {M : Monitor}

/-- One step of a thread. -/
structure OwnStep (M : Monitor) where
  /-- The system that the step found. -/
  before : System M
  /-- What the surroundings supplied. -/
  input : M.Input
  /-- The system that it left. -/
  after : System M

/-- The steps that a thread has taken since some system in the call that it was in there, in order,
and a system that they and others have led to. -/
inductive OwnSteps (thread : Nat) (begun : System M) : List (OwnStep M) → System M → Prop
  | start : OwnSteps thread begun [] begun
  | own {steps : List (OwnStep M)} {s s' : System M} {input : M.Input} {wakee : Nat} :
      OwnSteps thread begun steps s → s.returnsOf thread = begun.returnsOf thread →
      s.next (.step thread input wakee) = some s' →
      OwnSteps thread begun (steps ++ [⟨s, input, s'⟩]) s'
  | aside {steps : List (OwnStep M)} {s s' : System M} {event : Event M} :
      OwnSteps thread begun steps s →
      (s.returnsOf thread = begun.returnsOf thread →
        ∀ input wakee, event ≠ .step thread input wakee) →
      s.next event = some s' → OwnSteps thread begun steps s'

/-- What one step of a call is: the move of its thread, at the place where it stood. -/
structure OwnStep.Moves (thread : Nat) (begun : System M) (step : OwnStep M)
    (position : M.Position) (move : Move M.State M.Position M.Reply M.Condition M.Note) :
    Prop where
  since : begun.Reachable step.before
  /-- The call had not returned before. -/
  lasts : step.before.returnsOf thread = begun.returnsOf thread
  taken : ∃ wakee, step.before.next (.step thread step.input wakee) = some step.after
  place : placeIn step.before.threads thread = some position
  moves : M.step step.before.state step.before.now position step.input = some move
  layout : step.after.layout = step.before.layout.after thread move

namespace OwnStep.Moves

variable {thread : Nat} {begun : System M} {step : OwnStep M} {position : M.Position}
  {move : Move M.State M.Position M.Reply M.Condition M.Note}

theorem state (h : step.Moves thread begun position move) : step.after.state = move.state :=
  congrArg Layout.state h.layout

theorem notes (h : step.Moves thread begun position move) :
    step.after.view.notes = move.record thread ++ step.before.view.notes :=
  congrArg Layout.notes h.layout

theorem reachable (h : step.Moves thread begun position move) : begun.Reachable step.after := by
  obtain ⟨wakee, hnext⟩ := h.taken
  exact .next h.since hnext

end OwnStep.Moves

namespace System

variable {s s' : System M} {event : Event M} {thread : Nat} {position : M.Position}

/-- Whatever is not a step of a thread leaves it where it is in its call. -/
theorem Change.aside (h : Change s event s')
    (hother : ∀ input wakee, event ≠ .step thread input wakee)
    (hplace : placeIn s.threads thread = some position) :
    placeIn s'.threads thread = some position ∧ s'.returnsOf thread = s.returnsOf thread ∧
      openCall thread s'.journal = openCall thread s.journal := by
  refine ⟨(ReachableBy.next .start hother (next_eq_some_iff.2 h)).placeIn_eq hplace, ?_⟩
  cases h with
  | elapse | arrive | rouse => exact ⟨rfl, rfl⟩
  | @call t request phase here free =>
    have ht : t ≠ thread := by
      rintro rfl
      rw [placeIn, here] at hplace
      cases phase <;> contradiction
    exact ⟨rfl, if_neg ht⟩
  | @step t wakee input phase p move threads here awake moves wakes =>
    have ht : t ≠ thread := by
      rintro rfl
      exact hother _ _ rfl
    exact ⟨by rw [returnsOf_entries, if_neg ht, List.append_nil], openCall_entries_of_ne ht⟩

/-- A call that a thread is in has just begun, or its thread was in it before. -/
theorem Change.cases_openCall (h : Change s event s') {call : Call M}
    (hopen : openCall thread s'.journal = some call) :
    event = .call thread call.request ∨
      ∃ before, openCall thread s.journal = some before ∧ before.request = call.request ∧
        s'.returnsOf thread = s.returnsOf thread := by
  cases h with
  | elapse | arrive | rouse => exact .inr ⟨call, hopen, rfl, rfl⟩
  | @call t request phase here free =>
    by_cases ht : t = thread
    · subst ht
      simp only [openCall, if_true, Option.some.injEq] at hopen
      subst hopen
      exact .inl rfl
    · exact .inr ⟨call, by simpa [openCall, ht] using hopen, rfl, rfl⟩
  | @step t wakee input phase position move threads here awake moves wakes =>
    right
    by_cases ht : t = thread
    · subst ht
      have hbefore : ∃ before, openCall t s.journal = some before ∧
          before.request = call.request ∧ endedBy t move s.journal = none := by
        rw [openCall_entries] at hopen
        cases houtcome : move.outcome with
        | reply reply =>
          rw [houtcome] at hopen
          contradiction
        | _ =>
          rw [houtcome] at hopen
          obtain ⟨before, hbefore, rfl⟩ := Option.map_eq_some_iff.1 hopen
          exact ⟨before, hbefore, rfl, by rw [endedBy, houtcome]⟩
      obtain ⟨before, hbefore, hrequest, hnone⟩ := hbefore
      refine ⟨before, hbefore, hrequest, ?_⟩
      rw [returnsOf_entries, if_pos rfl, hnone]
      exact List.append_nil _
    · rw [openCall_entries_of_ne ht] at hopen
      refine ⟨call, hopen, rfl, ?_⟩
      rw [returnsOf_entries, if_neg ht, List.append_nil]

/-- A call that a thread is in has begun, and has not returned since. -/
theorem Reachable.exists_begun {state : M.State} {now : Instant} {background : List M.Position}
    (h : (initial state now background).Reachable s) {call : Call M}
    (hopen : openCall thread s.journal = some call) :
    ∃ began begun, (initial state now background).Reachable began ∧
      began.next (.call thread call.request) = some begun ∧ begun.Reachable s ∧
      s.returnsOf thread = begun.returnsOf thread := by
  induction h generalizing call with
  | start => contradiction
  | @next s s' event hreachable hnext ih =>
    rcases (next_eq_some_iff.1 hnext).cases_openCall hopen with
      rfl | ⟨before, hbefore, hrequest, hreturns⟩
    · exact ⟨s, s', hreachable, hnext, .start, rfl⟩
    · obtain ⟨began, begun, hbegan, hbegin, hlater, hlasts⟩ := ih hbefore
      exact ⟨began, begun, hbegan, hrequest ▸ hbegin, .next hlater hnext,
        hreturns.trans hlasts⟩

end System

namespace OwnSteps

variable {thread : Nat} {begun s : System M} {steps : List (OwnStep M)}

/-- In every schedule a call takes some steps. -/
theorem exists_ownSteps (thread : Nat) (h : begun.Reachable s) :
    ∃ steps, OwnSteps thread begun steps s := by
  induction h with
  | start => exact ⟨[], .start⟩
  | @next s s' event _ hnext ih =>
    obtain ⟨steps, hsteps⟩ := ih
    by_cases hown : s.returnsOf thread = begun.returnsOf thread ∧
        ∃ input wakee, event = .step thread input wakee
    · obtain ⟨hlasts, input, wakee, rfl⟩ := hown
      exact ⟨_, hsteps.own hlasts hnext⟩
    · refine ⟨steps, hsteps.aside ?_ hnext⟩
      rintro hlasts input wakee rfl
      exact hown ⟨hlasts, input, wakee, rfl⟩

theorem reachable (h : OwnSteps thread begun steps s) : begun.Reachable s := by
  induction h with
  | start => exact .start
  | own _ _ hnext ih => exact .next ih hnext
  | aside _ _ hnext ih => exact .next ih hnext

/-- A step of a call belongs to that call, and has led to where it is now. -/
theorem of_mem (h : OwnSteps thread begun steps s) {step : OwnStep M} (hmem : step ∈ steps) :
    begun.Reachable step.before ∧ step.before.returnsOf thread = begun.returnsOf thread ∧
      (∃ wakee, step.before.next (.step thread step.input wakee) = some step.after) ∧
      step.after.Reachable s := by
  induction h with
  | start => contradiction
  | own hsteps hlasts hnext ih =>
    rcases List.mem_append.1 hmem with hold | hnew
    · obtain ⟨hsince, hsame, htaken, hlater⟩ := ih hold
      exact ⟨hsince, hsame, htaken, .next hlater hnext⟩
    · rw [List.mem_singleton.1 hnew]
      exact ⟨hsteps.reachable, hlasts, ⟨_, hnext⟩, .start⟩
  | aside _ _ hnext ih =>
    obtain ⟨hsince, hsame, htaken, hlater⟩ := ih hmem
    exact ⟨hsince, hsame, htaken, .next hlater hnext⟩

/-- What a step found has led to where its call is now. -/
theorem reachable_of_mem (h : OwnSteps thread begun steps s) {step : OwnStep M}
    (hmem : step ∈ steps) : step.before.Reachable s := by
  obtain ⟨_, _, ⟨_, hnext⟩, hlater⟩ := h.of_mem hmem
  exact .trans (.single hnext) hlater

/-- The steps of a call come one after the other. -/
theorem pairwise (h : OwnSteps thread begun steps s) :
    steps.Pairwise fun step step' => step.after.Reachable step'.before := by
  induction h with
  | start => exact .nil
  | own hsteps _ _ ih =>
    refine List.pairwise_append.2 ⟨ih, List.pairwise_singleton _ _, ?_⟩
    intro step hstep last hlast
    rw [List.mem_singleton.1 hlast]
    exact (hsteps.of_mem hstep).2.2.2
  | aside _ _ _ ih => exact ih

/-- The steps before the last one led to what it found. -/
theorem before_last {last : OwnStep M} (h : OwnSteps thread begun (steps ++ [last]) s) :
    OwnSteps thread begun steps last.before := by
  generalize hall : steps ++ [last] = all at h
  induction h with
  | start => exact absurd hall (by simp)
  | own hsteps =>
    obtain ⟨rfl, hlast⟩ := List.append_inj' hall rfl
    cases hlast
    exact hsteps
  | aside _ _ _ ih => exact ih hall

/-- The steps that a thread takes in a run. -/
def inRun (thread : Nat) (s : System M) : List (Event M) → List (OwnStep M)
  | [] => []
  | event :: rest =>
    match s.next event, event with
    | some s', .step t input _ =>
      if t = thread then ⟨s, input, s'⟩ :: inRun thread s' rest else inRun thread s' rest
    | some s', _ => inRun thread s' rest
    | none, _ => []

/-- A run takes a call the steps further that its thread takes, as far as the call lasts. -/
theorem run {s' : System M} {events : List (Event M)} (h : OwnSteps thread begun steps s)
    (hrun : s.run events = some s')
    (hlasts : ∀ step ∈ inRun thread s events,
      (step.before.returnsOf thread).length = (begun.returnsOf thread).length) :
    OwnSteps thread begun (steps ++ inRun thread s events) s' := by
  induction events generalizing s steps with
  | nil =>
    cases hrun
    rwa [inRun, List.append_nil]
  | cons event rest ih =>
    obtain ⟨between, hnext, hrest⟩ := Option.bind_eq_some_iff.1 hrun
    by_cases hown : ∃ input wakee, event = .step thread input wakee
    · obtain ⟨input, wakee, rfl⟩ := hown
      have hsteps : inRun thread s (.step thread input wakee :: rest) =
          ⟨s, input, between⟩ :: inRun thread between rest := by
        simp only [inRun, hnext, if_true]
      rw [hsteps] at hlasts ⊢
      rw [List.forall_mem_cons] at hlasts
      have hsame := (h.reachable.returnsOf_isPrefix thread).eq_of_length hlasts.1.symm
      rw [← List.singleton_append, ← List.append_assoc]
      exact ih (h.own hsame.symm hnext) hrest hlasts.2
    · have hsteps : inRun thread s (event :: rest) = inRun thread between rest := by
        cases event with
        | step t input wakee =>
          have ht : t ≠ thread := by
            rintro rfl
            exact hown ⟨input, wakee, rfl⟩
          simp only [inRun, hnext, if_neg ht]
        | _ => simp only [inRun, hnext]
      rw [hsteps] at hlasts ⊢
      refine ih (h.aside ?_ hnext) hrest hlasts
      rintro - input wakee rfl
      exact hown ⟨input, wakee, rfl⟩

/-- A property of the steps of a call so far, and of the place that they have led to, that every
step keeps which does not return. -/
structure Kept (thread : Nat) (begun : System M)
    (holds : List (OwnStep M) → M.Position → Prop) : Prop where
  /-- It holds where the call begins. -/
  begins : ∃ position, placeIn begun.threads thread = some position ∧ holds [] position
  goes : ∀ {steps step position move}, step.Moves thread begun position move →
    holds steps position → (∃ reply, move.outcome = .reply reply) ∨
      ∃ place, (Phase.ofOutcome move.outcome).place? = some place ∧ holds (steps ++ [step]) place

/-- How far a call has come by its own steps: it is at a place, or has returned at the last. -/
inductive Stage (thread : Nat) (begun : System M) (holds : List (OwnStep M) → M.Position → Prop)
    (call : Call M) (steps : List (OwnStep M)) (s : System M) : Prop
  | lasts {notes : List M.Note} {position : M.Position}
      (returns : s.returnsOf thread = begun.returnsOf thread)
      (opened : openCall thread s.journal = some (call.record notes))
      (place : placeIn s.threads thread = some position) (during : holds steps position)
  | ended {before : List (OwnStep M)} {last : OwnStep M} {position : M.Position}
      {move : Move M.State M.Position M.Reply M.Condition M.Note} {notes : List M.Note}
      {reply : M.Reply} (split : steps = before ++ [last])
      (moves : last.Moves thread begun position move) (during : holds before position)
      (outcome : move.outcome = .reply reply)
      (returned : last.after.returnsOf thread =
        begun.returnsOf thread ++ [(call.record notes, reply)])
      (later : last.after.Reachable s)

variable {holds : List (OwnStep M) → M.Position → Prop} {call : Call M}

/-- A call that has not returned goes on, or returns. -/
theorem Kept.stage (h : Kept thread begun holds)
    (hopen : openCall thread begun.journal = some call) (hsteps : OwnSteps thread begun steps s) :
    Stage thread begun holds call steps s := by
  induction hsteps with
  | start =>
    obtain ⟨position, hplace, hholds⟩ := h.begins
    exact .lasts rfl (by rw [Call.record_nil]; exact hopen) hplace hholds
  | @own steps s s' input wakee hsteps hlasts hnext ih =>
    cases ih with
    | @lasts notes position returns opened place during =>
      obtain ⟨position', move, hplace, moves, hlayout⟩ := System.moves_of_next hnext
      cases place.symm.trans hplace
      have hmoves : OwnStep.Moves thread begun ⟨s, input, s'⟩ position move :=
        ⟨hsteps.reachable, hlasts, ⟨wakee, hnext⟩, hplace, moves, hlayout⟩
      obtain ⟨reply, houtcome, hreturned⟩ | ⟨hreturns, hopened⟩ :=
        System.returns_or_goes_on hnext hplace moves opened
      · rw [returns, Call.record_record] at hreturned
        exact .ended rfl hmoves during houtcome hreturned .start
      · rw [Call.record_record] at hopened
        obtain ⟨reply, houtcome⟩ | ⟨there, hthere, hholds⟩ := h.goes hmoves during
        · -- a step that returns leaves no open call behind
          obtain ⟨threads, _, rfl⟩ := System.eq_of_next hnext hplace moves
          rw [openCall_entries, houtcome] at hopened
          contradiction
        · rw [← System.placeIn_of_layout hlayout] at hthere
          exact .lasts (hreturns.trans hlasts) hopened hthere hholds
    | ended split moves during outcome returned later =>
      have hlonger := (later.returnsOf_isPrefix thread).length_le
      rw [returned, hlasts] at hlonger
      exact absurd hlonger (by simp)
  | @aside steps s s' event hsteps hother hnext ih =>
    cases ih with
    | lasts returns opened place during =>
      obtain ⟨hplace, hreturns, hopened⟩ :=
        (System.next_eq_some_iff.1 hnext).aside (hother returns) place
      exact .lasts (hreturns.trans returns) (hopened.trans opened) hplace during
    | ended split moves during outcome returned later =>
      exact .ended split moves during outcome returned (.next later hnext)

/-- A call that has not returned is at the place that its steps have led to. -/
theorem Kept.of_lasts (h : Kept thread begun holds)
    (hopen : openCall thread begun.journal = some call) (hsteps : OwnSteps thread begun steps s)
    (hlasts : s.returnsOf thread = begun.returnsOf thread) :
    ∃ position, placeIn s.threads thread = some position ∧ holds steps position := by
  cases h.stage hopen hsteps with
  | @lasts notes position returns opened place during => exact ⟨position, place, during⟩
  | ended split moves during outcome returned later =>
    have hlonger := (later.returnsOf_isPrefix thread).length_le
    rw [returned, hlasts] at hlonger
    exact absurd hlonger (by simp)

/-- A call that has returned did so at its last step. -/
theorem Kept.of_returned (h : Kept thread begun holds)
    (hopen : openCall thread begun.journal = some call) (hsteps : OwnSteps thread begun steps s)
    {call' : Call M} {reply : M.Reply}
    (hreturned : begun.returnsOf thread ++ [(call', reply)] <+: s.returnsOf thread) :
    ∃ before last position move, steps = before ++ [last] ∧
      last.Moves thread begun position move ∧ holds before position ∧
      move.outcome = .reply reply := by
  cases h.stage hopen hsteps with
  | lasts returns =>
    rw [returns] at hreturned
    exact absurd hreturned.length_le (by simp)
  | @ended before last position move notes reply' split moves during outcome returned later =>
    have hprefix := later.returnsOf_isPrefix thread
    rw [returned] at hprefix
    have hsame := List.prefix_of_prefix_length_le hreturned hprefix (by simp)
    rw [List.prefix_append_right_inj] at hsame
    cases hsame.eq_of_length rfl
    exact ⟨before, last, position, move, split, moves, during, outcome⟩

end OwnSteps

end Backpressure
