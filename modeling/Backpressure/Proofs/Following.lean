import Backpressure.Proofs.View

/-!
# Systems that follow a view

A view forgets what the last call of a free thread returned, and whether a thread has ended. Still,
whatever one system with a view can do, any other system with that view can do as well, unless a
thread that has ended there would have to make a call.
-/

namespace Backpressure

variable {M : Monitor}

/-- Has the thread ended? -/
def Phase.isEnded : Phase M → Bool
  | .ended => true
  | _ => false

namespace Phase

@[simp]
theorem isEnded_wake (phase : Phase M) : phase.wake.isEnded = phase.isEnded := by
  cases phase <;> rfl

/-- A thread that is at a place has not ended. -/
theorem isEnded_of_place? {phase : Phase M} {position : M.Position}
    (h : phase.place? = some position) : phase.isEnded = false := by
  cases phase <;> first | rfl | contradiction

/-- An idle thread of a view is free in its system, unless it has ended. -/
theorem isFree_of_still {phase : Phase M} (h : phase.still = .idle)
    (hended : phase.isEnded = false) : phase.isFree = true := by
  cases phase <;> first | rfl | contradiction

end Phase

namespace System

/-- Has a thread of the system ended? -/
def hasEnded (s : System M) (thread : Nat) : Bool := s.threads[thread]?.any Phase.isEnded

section Ended

variable {threads threads' : List (Phase M)} {thread wakee : Nat}

theorem any_isEnded_deliverAll {signals : List (Signal M.Condition)}
    (h : deliverAll wakee signals threads = some threads') :
    threads'[thread]?.any Phase.isEnded = threads[thread]?.any Phase.isEnded := by
  have hends : ∀ list : List (Phase M),
      list[thread]?.any Phase.isEnded = (list.map Phase.isEnded)[thread]?.any id := by
    intro list
    rw [List.getElem?_map]
    cases list[thread]? <;> rfl
  rw [hends, hends, map_deliverAll Phase.isEnded_wake h]

theorem any_isEnded_set (phase : Phase M) (t : Nat)
    (h : (threads.set thread phase)[t]?.any Phase.isEnded = true) :
    t = thread ∧ phase.isEnded = true ∨ threads[t]?.any Phase.isEnded = true := by
  by_cases ht : t = thread
  · subst ht
    by_cases hlt : t < threads.length
    · rw [List.getElem?_set_self hlt] at h
      exact .inl ⟨rfl, h⟩
    · rw [List.getElem?_eq_none (by simpa using Nat.le_of_not_lt hlt)] at h
      contradiction
  · rw [List.getElem?_set_ne (Ne.symm ht)] at h
    exact .inr h

/-- A thread that has ended is not at any place. -/
theorem any_isEnded_of_place? {phase : Phase M} {position : M.Position}
    (here : threads[thread]? = some phase) (hplace : phase.place? = some position) :
    threads[thread]?.any Phase.isEnded = false := by
  rw [here, Option.any_some, Phase.isEnded_of_place? hplace]

theorem any_isEnded_set_of_ne {phase : Phase M} {t : Nat} (h : t ≠ thread) :
    (threads.set thread phase)[t]?.any Phase.isEnded = threads[t]?.any Phase.isEnded := by
  rw [List.getElem?_set_ne (Ne.symm h)]

end Ended

/-- A thread that has ended has done so for good. -/
theorem Change.hasEnded {s s' : System M} {event : Event M} (h : Change s event s') {t : Nat}
    (hended : s.hasEnded t = true) : s'.hasEnded t = true := by
  cases h with
  | elapse => exact hended
  | arrive =>
    have hlt : t < s.threads.length := by
      by_contra hge
      rw [System.hasEnded, List.getElem?_eq_none (Nat.le_of_not_lt hge)] at hended
      contradiction
    rw [System.hasEnded, List.getElem?_append_left hlt]
    exact hended
  | @call thread request phase here free =>
    have ht : t ≠ thread := by
      rintro rfl
      rw [System.hasEnded, here, Option.any_some] at hended
      cases phase <;> contradiction
    exact (any_isEnded_set_of_ne ht).trans hended
  | @rouse thread condition wakeAt position here =>
    have ht : t ≠ thread := by
      rintro rfl
      rw [System.hasEnded, here] at hended
      contradiction
    exact (any_isEnded_set_of_ne ht).trans hended
  | @step thread wakee input phase position move threads here awake moves wakes =>
    have ht : t ≠ thread := by
      rintro rfl
      rw [System.hasEnded, any_isEnded_of_place? here (Phase.place?_of_position? awake)] at hended
      contradiction
    exact (any_isEnded_set_of_ne ht).trans ((any_isEnded_deliverAll wakes).trans hended)

/-! ### Signals -/

section Delivery

variable {f : Phase M → Phase M}
  (sleeps : ∀ condition phase, (f phase).sleepsOn condition = phase.sleepsOn condition)
  (wakes : ∀ phase, f phase.wake = (f phase).wake)

include sleeps wakes

theorem deliver_map (threads : List (Phase M)) (wakee : Nat) (signal : Signal M.Condition) :
    deliver (threads.map f) wakee signal = (deliver threads wakee signal).map (·.map f) := by
  cases signal with
  | all condition =>
    simp only [deliver, List.map_map, Option.map_some, Option.some.injEq]
    apply List.map_congr_left
    intro phase _
    simp only [Function.comp_apply, sleeps]
    split
    · exact (wakes phase).symm
    · rfl
  | one condition =>
    simp only [deliver, List.any_map, Function.comp_def, sleeps, List.getElem?_map]
    split
    · cases threads[wakee]? with
      | none => rfl
      | some phase =>
        simp only [Option.map_some, sleeps]
        split
        · simp only [Option.map_some, List.map_set, wakes]
        · rfl
    · rfl

/-- Signals wake the same threads under any names that keep who sleeps on what. -/
theorem deliverAll_map (threads : List (Phase M)) (wakee : Nat)
    (signals : List (Signal M.Condition)) :
    deliverAll wakee signals (threads.map f) =
      (deliverAll wakee signals threads).map (·.map f) := by
  induction signals generalizing threads with
  | nil => rfl
  | cons signal rest ih =>
    rw [deliverAll, deliverAll, deliver_map sleeps wakes]
    cases deliver threads wakee signal with
    | none => rfl
    | some between => exact ih between

end Delivery

/-! ### Events -/

variable {m : System M} {thread : Nat}

theorem exists_of_view_threads {phase : Phase M} (h : m.view.threads[thread]? = some phase) :
    ∃ before, m.threads[thread]? = some before ∧ before.still = phase := by
  simpa [System.view] using h

/-- A new thread appears. -/
theorem exists_arrive (m : System M) :
    ∃ m', m.next .arrive = some m' ∧ m'.now = m.now ∧
      m'.view = { m.view with threads := m.view.threads ++ [.idle] } ∧
      ∀ t, m'.hasEnded t = true → m.hasEnded t = true := by
  refine ⟨_, rfl, rfl, by simp [System.view, Phase.still], ?_⟩
  intro t hended
  by_cases ht : t < m.threads.length
  · rwa [hasEnded, List.getElem?_append_left ht] at hended
  · rw [hasEnded, List.getElem?_append_right (Nat.le_of_not_lt ht)] at hended
    cases h : t - m.threads.length <;> rw [h] at hended <;> contradiction

/-- An idle thread of a view begins a call, unless it has ended. -/
theorem exists_call {request : M.Request} (here : m.view.threads[thread]? = some .idle)
    (alive : m.hasEnded thread = false) :
    ∃ m', m.next (.call thread request) = some m' ∧ m'.now = m.now ∧
      m'.view = { m.view with
        threads := m.view.threads.set thread (.ready (M.start request m.now)) } ∧
      ∀ t, m'.hasEnded t = true → m.hasEnded t = true := by
  obtain ⟨before, hbefore, hstill⟩ := exists_of_view_threads here
  rw [hasEnded, hbefore, Option.any_some] at alive
  have hfree := Phase.isFree_of_still hstill alive
  refine ⟨_, next_eq_some_iff.2 (.call hbefore hfree), rfl, ?_, ?_⟩
  · simp [System.view, List.map_set, List.filterMap_cons, Phase.still]
  · intro t hended
    rcases any_isEnded_set _ t hended with ⟨_, hnew⟩ | hold
    · contradiction
    · exact hold

/-- A sleeping thread of a view is roused. -/
theorem exists_rouse {condition : M.Condition} {wakeAt : Deadline} {position : M.Position}
    (here : m.view.threads[thread]? = some (.asleep condition wakeAt position)) :
    ∃ m', m.next (.rouse thread) = some m' ∧ m'.now = m.now ∧
      m'.view = { m.view with
        threads := m.view.threads.set thread (.woken condition position) } ∧
      ∀ t, m'.hasEnded t = true → m.hasEnded t = true := by
  obtain ⟨before, hbefore, hstill⟩ := exists_of_view_threads here
  obtain rfl : before = .asleep condition wakeAt position := by
    cases before <;> first | exact hstill | contradiction
  refine ⟨_, next_eq_some_iff.2 (.rouse hbefore), rfl, ?_, ?_⟩
  · simp [System.view, List.map_set, Phase.still]
  · intro t hended
    rcases any_isEnded_set _ t hended with ⟨_, hnew⟩ | hold
    · contradiction
    · exact hold

/-- A thread of a view takes a step. -/
theorem exists_step {wakee : Nat} {input : M.Input} {phase : Phase M} {position : M.Position}
    {move : Move M.State M.Position M.Reply M.Condition M.Note} {threads : List (Phase M)}
    (here : m.view.threads[thread]? = some phase) (awake : phase.position? = some position)
    (moves : M.step m.state m.now position input = some move)
    (wakes : deliverAll wakee move.signals m.view.threads = some threads) :
    ∃ m', m.next (.step thread input wakee) = some m' ∧ m'.now = m.now ∧
      m'.view =
        { state := move.state
          threads := threads.set thread (Phase.ofOutcome move.outcome).still
          notes := move.record thread ++ m.view.notes } ∧
      ∀ t, m'.hasEnded t = true →
        t = thread ∧ move.outcome = .exit ∨ m.hasEnded t = true := by
  obtain ⟨before, hbefore, rfl⟩ := exists_of_view_threads here
  rw [Phase.position?_still] at awake
  have hdelivered : deliverAll wakee move.signals (m.threads.map .still) = some threads := wakes
  rw [deliverAll_map Phase.sleepsOn_still Phase.still_wake] at hdelivered
  obtain ⟨after, hafter, rfl⟩ := Option.map_eq_some_iff.1 hdelivered
  refine ⟨_, next_eq_some_iff.2 (.step hbefore awake moves hafter), rfl, ?_, ?_⟩
  · simp only [System.view, List.map_set, filterMap_note?_append]
  · intro t hended
    rcases any_isEnded_set _ t hended with ⟨ht, hnew⟩ | hold
    · left
      refine ⟨ht, ?_⟩
      cases houtcome : move.outcome with
      | exit => rfl
      | _ =>
        rw [houtcome] at hnew
        contradiction
    · right
      rwa [any_isEnded_deliverAll hafter] at hold

end System

end Backpressure
