import Backpressure.Monitor

/-!
# What one event does

An event of a system is one of five changes, and each is spelled out once here. A wake-up moves no
thread to another place of its call, so that for most properties the place of every thread is all
that matters of it.
-/

namespace Backpressure

namespace Phase

variable {M : Monitor}

/-- The place of a thread within a call, whether it is awake or asleep. -/
def place? : Phase M → Option M.Position
  | .ready position | .asleep _ _ position | .woken _ position => some position
  | .idle | .returned _ | .ended => none

@[simp]
theorem place?_idle : (Phase.idle (M := M)).place? = none := rfl

@[simp]
theorem place?_returned (reply : M.Reply) : (Phase.returned (M := M) reply).place? = none := rfl

@[simp]
theorem place?_ended : (Phase.ended (M := M)).place? = none := rfl

@[simp]
theorem place?_ready (position : M.Position) :
    (Phase.ready (M := M) position).place? = some position := rfl

@[simp]
theorem place?_asleep (condition : M.Condition) (wakeAt : Deadline) (position : M.Position) :
    (Phase.asleep (M := M) condition wakeAt position).place? = some position := rfl

@[simp]
theorem place?_woken (condition : M.Condition) (position : M.Position) :
    (Phase.woken (M := M) condition position).place? = some position := rfl

/-- Has the thread been woken from this condition, and not looked at the state since? -/
def isWokenFrom (condition : M.Condition) : Phase M → Bool
  | .woken c _ => c = condition
  | _ => false

/-- The place of a thread that is awake within a call. -/
theorem place?_of_position? {phase : Phase M} {position : M.Position}
    (h : phase.position? = some position) : phase.place? = some position := by
  cases phase <;> simp_all [position?, place?]

@[simp]
theorem place?_wake (phase : Phase M) : phase.wake.place? = phase.place? := by
  cases phase <;> rfl

@[simp]
theorem isFree_wake (phase : Phase M) : phase.wake.isFree = phase.isFree := by
  cases phase <;> rfl

@[simp]
theorem sleepsOn_wake (condition : M.Condition) (phase : Phase M) :
    phase.wake.sleepsOn condition = false := by
  cases phase <;> rfl

@[simp]
theorem wake_wake (phase : Phase M) : phase.wake.wake = phase.wake := by
  cases phase <;> rfl

end Phase

namespace System

variable {M : Monitor}

/-- What an event does to a system, one kind of event at a time. -/
inductive Change (s : System M) : Event M → System M → Prop
  | elapse {duration : Duration} {now : Instant} (later : s.now.add? duration = some now) :
      Change s (.elapse duration) { s with now }
  | arrive : Change s .arrive { s with threads := s.threads ++ [.idle] }
  | call {thread : Nat} {request : M.Request} {phase : Phase M}
      (here : s.threads[thread]? = some phase) (free : phase.isFree = true) :
      Change s (.call thread request)
        { s with
          threads := s.threads.set thread (.ready (M.start request s.now))
          journal := .called thread request :: s.journal }
  | rouse {thread : Nat} {condition : M.Condition} {wakeAt : Deadline} {position : M.Position}
      (here : s.threads[thread]? = some (.asleep condition wakeAt position)) :
      Change s (.rouse thread)
        { s with threads := s.threads.set thread (.woken condition position) }
  | step {thread wakee : Nat} {input : M.Input} {phase : Phase M} {position : M.Position}
      {move : Move M.State M.Position M.Reply M.Condition M.Note} {threads : List (Phase M)}
      (here : s.threads[thread]? = some phase) (awake : phase.position? = some position)
      (moves : M.step s.state s.now position input = some move)
      (wakes : deliverAll wakee move.signals s.threads = some threads) :
      Change s (.step thread input wakee)
        { now := s.now
          state := move.state
          threads := threads.set thread (.ofOutcome move.outcome)
          journal := (entries thread move).reverse ++ s.journal }

/-- An event leads to a system exactly where it makes one of the changes. -/
theorem next_eq_some_iff {s s' : System M} {event : Event M} :
    s.next event = some s' ↔ Change s event s' := by
  constructor
  · intro h
    cases event with
    | elapse duration =>
      obtain ⟨now, hnow, rfl⟩ := Option.map_eq_some_iff.1 h
      exact .elapse hnow
    | arrive =>
      cases h
      exact .arrive
    | call thread request =>
      simp only [next] at h
      split at h
      · rename_i phase hphase
        split at h
        · rename_i hfree
          cases h
          exact .call hphase hfree
        · contradiction
      · contradiction
    | rouse thread =>
      simp only [next] at h
      split at h
      · rename_i hphase
        cases h
        exact .rouse hphase
      · contradiction
    | step thread input wakee =>
      simp only [next, Option.bind_eq_bind, Option.bind_eq_some_iff] at h
      obtain ⟨phase, hphase, position, hposition, move, hmove, hperform⟩ := h
      obtain ⟨threads, hthreads, rfl⟩ := Option.map_eq_some_iff.1 hperform
      exact .step hphase hposition hmove hthreads
  · intro h
    cases h with
    | elapse later => simp [next, later]
    | arrive => rfl
    | call here free => simp [next, here, free]
    | rouse here => simp [next, here]
    | step here awake moves wakes => simp [next, here, awake, moves, perform, wakes]

/-- The systems that the schedules made of allowed events lead to. -/
inductive ReachableBy (allowed : Event M → Prop) (start : System M) : System M → Prop
  | start : ReachableBy allowed start start
  | next {s s' : System M} {event : Event M} :
      ReachableBy allowed start s → allowed event → s.next event = some s' →
        ReachableBy allowed start s'

variable {allowed : Event M → Prop} {start s : System M}

/-- Every schedule is made of events of some kind. -/
theorem Reachable.reachableBy (h : start.Reachable s) : start.ReachableBy (fun _ => True) s := by
  induction h with
  | start => exact .start
  | next _ hnext ih => exact .next ih trivial hnext

/-- A list of events leads from a reachable system to a reachable one. -/
theorem Reachable.run {s' : System M} {events : List (Event M)} (h : start.Reachable s)
    (hrun : s.run events = some s') : start.Reachable s' := by
  induction events generalizing s with
  | nil =>
    cases hrun
    exact h
  | cons event rest ih =>
    obtain ⟨between, hnext, hrest⟩ := Option.bind_eq_some_iff.1 hrun
    exact ih (.next h hnext) hrest

/-- What holds at the start and is kept by every change holds of every reachable system. -/
theorem ReachableBy.invariant {P : System M → Prop} (h : start.ReachableBy allowed s)
    (hstart : P start)
    (hchange : ∀ {s s' event}, P s → allowed event → Change s event s' → P s') : P s := by
  induction h with
  | start => exact hstart
  | next _ hallowed hnext ih => exact hchange ih hallowed (next_eq_some_iff.1 hnext)

/-- A schedule of allowed events is a schedule. -/
theorem ReachableBy.reachable (h : start.ReachableBy allowed s) : start.Reachable s := by
  induction h with
  | start => exact .start
  | next _ _ hnext ih => exact .next ih hnext

/-- A schedule of events of one kind is one of events of a wider kind. -/
theorem ReachableBy.mono {allowed' : Event M → Prop} (h : start.ReachableBy allowed s)
    (hwider : ∀ event, allowed event → allowed' event) : start.ReachableBy allowed' s := by
  induction h with
  | start => exact .start
  | next _ hallowed hnext ih => exact .next ih (hwider _ hallowed) hnext

/-- Schedules of allowed events, one after the other. -/
theorem ReachableBy.trans {s' : System M} (h : start.ReachableBy allowed s)
    (h' : s.ReachableBy allowed s') : start.ReachableBy allowed s' := by
  induction h' with
  | start => exact h
  | next _ hallowed hnext ih => exact .next ih hallowed hnext

/-- A list of allowed events leads from a reachable system to a reachable one. -/
theorem ReachableBy.run {s' : System M} {events : List (Event M)}
    (h : start.ReachableBy allowed s) (hallowed : ∀ event ∈ events, allowed event)
    (hrun : s.run events = some s') : start.ReachableBy allowed s' := by
  induction events generalizing s with
  | nil =>
    cases hrun
    exact h
  | cons event rest ih =>
    obtain ⟨between, hnext, hrest⟩ := Option.bind_eq_some_iff.1 hrun
    rw [List.forall_mem_cons] at hallowed
    exact ih (.next h hallowed.1 hnext) hallowed.2 hrest

/-! ### Signals -/

variable {threads threads' : List (Phase M)} {wakee : Nat}

/-- A signal for one thread wakes a sleeper, or is lost where there is none. -/
theorem deliver_one_cases {condition : M.Condition}
    (h : deliver threads wakee (.one condition) = some threads') :
    ((∀ phase ∈ threads, phase.sleepsOn condition = false) ∧ threads' = threads) ∨
      ∃ phase, threads[wakee]? = some phase ∧ phase.sleepsOn condition = true ∧
        threads' = threads.set wakee phase.wake := by
  simp only [deliver] at h
  split at h
  · split at h
    · rename_i phase hphase
      split at h
      · rename_i hsleeps
        cases h
        exact .inr ⟨phase, hphase, hsleeps, rfl⟩
      · contradiction
    · contradiction
  · rename_i hnone
    cases h
    simp only [List.any_eq_true, not_exists, not_and, Bool.not_eq_true] at hnone
    exact .inl ⟨hnone, rfl⟩

/-- A signal leaves every thread alone or wakes it. -/
theorem mem_deliver {signal : Signal M.Condition}
    (h : deliver threads wakee signal = some threads') {phase : Phase M} (hmem : phase ∈ threads') :
    ∃ before ∈ threads, phase = before ∨ phase = before.wake := by
  cases signal with
  | all condition =>
    cases h
    obtain ⟨before, hbefore, rfl⟩ := List.mem_map.1 hmem
    refine ⟨before, hbefore, ?_⟩
    split
    · exact .inr rfl
    · exact .inl rfl
  | one condition =>
    rcases deliver_one_cases h with ⟨_, rfl⟩ | ⟨sleeper, hsleeper, _, rfl⟩
    · exact ⟨phase, hmem, .inl rfl⟩
    · rcases List.mem_or_eq_of_mem_set hmem with hold | rfl
      · exact ⟨phase, hold, .inl rfl⟩
      · exact ⟨sleeper, List.mem_of_getElem? hsleeper, .inr rfl⟩

/-- What a wake-up of one thread keeps, signals keep of all threads. -/
theorem forall_mem_deliverAll {P : Phase M → Prop} (hwake : ∀ phase, P phase → P phase.wake)
    {signals : List (Signal M.Condition)} (hthreads : ∀ phase ∈ threads, P phase)
    (h : deliverAll wakee signals threads = some threads') : ∀ phase ∈ threads', P phase := by
  induction signals generalizing threads with
  | nil =>
    cases h
    exact hthreads
  | cons signal rest ih =>
    obtain ⟨between, hfirst, hrest⟩ := Option.bind_eq_some_iff.1 h
    refine ih ?_ hrest
    intro phase hmem
    obtain ⟨before, hbefore, rfl | rfl⟩ := mem_deliver hfirst hmem
    · exact hthreads _ hbefore
    · exact hwake _ (hthreads _ hbefore)

/-- A signal changes nothing that a wake-up of one thread leaves alone. -/
theorem map_deliver {β : Type} {f : Phase M → β} (hf : ∀ phase, f phase.wake = f phase)
    {signal : Signal M.Condition} (h : deliver threads wakee signal = some threads') :
    threads'.map f = threads.map f := by
  cases signal with
  | all condition =>
    cases h
    rw [List.map_map]
    apply List.map_congr_left
    intro phase _
    simp only [Function.comp_apply]
    split
    · exact hf phase
    · rfl
  | one condition =>
    rcases deliver_one_cases h with ⟨_, rfl⟩ | ⟨phase, hphase, _, rfl⟩
    · rfl
    · obtain ⟨hi, rfl⟩ := List.getElem?_eq_some_iff.1 hphase
      rw [List.map_set, hf, ← List.getElem_map f]
      · exact List.set_getElem_self _
      · simpa using hi

/-- Signals change nothing that a wake-up of one thread leaves alone. -/
theorem map_deliverAll {β : Type} {f : Phase M → β} (hf : ∀ phase, f phase.wake = f phase)
    {signals : List (Signal M.Condition)}
    (h : deliverAll wakee signals threads = some threads') : threads'.map f = threads.map f := by
  induction signals generalizing threads with
  | nil =>
    cases h
    rfl
  | cons signal rest ih =>
    obtain ⟨between, hfirst, hrest⟩ := Option.bind_eq_some_iff.1 h
    exact (ih hrest).trans (map_deliver hf hfirst)

/-- Signals move no thread to another place. -/
theorem map_place?_deliverAll {signals : List (Signal M.Condition)}
    (h : deliverAll wakee signals threads = some threads') :
    threads'.map Phase.place? = threads.map Phase.place? := map_deliverAll Phase.place?_wake h

/-- Signals leave every thread its number. -/
theorem lt_of_deliverAll {signals : List (Signal M.Condition)} {thread : Nat} {phase : Phase M}
    (here : threads[thread]? = some phase) (h : deliverAll wakee signals threads = some threads') :
    thread < threads'.length := by
  have hlength := congrArg List.length (map_place?_deliverAll h)
  simp only [List.length_map] at hlength
  exact hlength ▸ (List.getElem?_eq_some_iff.1 here).1

end System

end Backpressure
