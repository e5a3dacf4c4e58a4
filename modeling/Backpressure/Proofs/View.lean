import Mathlib.Logic.Function.Basic
import Backpressure.Proofs.Event

/-!
# Views and layouts of systems

A view of a system keeps the state, what each thread is doing, and what the threads have recorded.
It forgets the time, and it forgets of a thread outside every call what its last call returned. A
layout forgets sleep as well, and keeps only the place of each thread in its call. Every event of a
system is at most one step of its view and of its layout; so a property of layouts that every step
keeps holds of all reachable systems.
-/

namespace Backpressure

variable {M : Monitor}

/-- A thread outside every call is like one that has made no call yet. -/
def Phase.still : Phase M → Phase M
  | .idle | .returned _ | .ended => .idle
  | phase => phase

/-- The place of a thread of a list within its call, if it is in one. -/
def placeIn (threads : List (Phase M)) (thread : Nat) : Option M.Position :=
  threads[thread]?.bind Phase.place?

namespace Phase

@[simp]
theorem place?_still (phase : Phase M) : phase.still.place? = phase.place? := by
  cases phase <;> rfl

@[simp]
theorem position?_still (phase : Phase M) : phase.still.position? = phase.position? := by
  cases phase <;> rfl

@[simp]
theorem sleepsOn_still (condition : M.Condition) (phase : Phase M) :
    phase.still.sleepsOn condition = phase.sleepsOn condition := by
  cases phase <;> rfl

@[simp]
theorem isWokenFrom_still (condition : M.Condition) (phase : Phase M) :
    phase.still.isWokenFrom condition = phase.isWokenFrom condition := by
  cases phase <;> rfl

theorem still_wake (phase : Phase M) : phase.wake.still = phase.still.wake := by
  cases phase <;> rfl

theorem still_of_isFree {phase : Phase M} (h : phase.isFree = true) : phase.still = .idle := by
  cases phase <;> simp_all [isFree, still]

end Phase

/-- A note in a journal, with the thread that recorded it. -/
def Entry.note? : Entry M → Option (Nat × M.Note)
  | .noted thread note => some (thread, note)
  | _ => none

namespace Entry

@[simp]
theorem note?_called (thread : Nat) (request : M.Request) :
    (Entry.called (M := M) thread request).note? = none := rfl

@[simp]
theorem note?_noted (thread : Nat) (note : M.Note) :
    (Entry.noted (M := M) thread note).note? = some (thread, note) := rfl

@[simp]
theorem note?_returned (thread : Nat) (reply : M.Reply) :
    (Entry.returned (M := M) thread reply).note? = none := rfl

end Entry

/-- What a thread's move records, latest first. -/
def Move.record {State Position Reply Condition Note : Type} (thread : Nat)
    (move : Move State Position Reply Condition Note) : List (Nat × Note) :=
  (move.notes.map (thread, ·)).reverse

/-- A system without its time and its calls. -/
structure View (M : Monitor) where
  /-- The state under the lock. -/
  state : M.State
  /-- What each thread is doing; a thread outside every call is idle. -/
  threads : List (Phase M)
  /-- What the threads have recorded, latest first. -/
  notes : List (Nat × M.Note)

/-- A system without its time, its calls and its sleepers. -/
structure Layout (M : Monitor) where
  /-- The state under the lock. -/
  state : M.State
  /-- The place of each thread within its call, if it is in one. -/
  place : Nat → Option M.Position
  /-- What the threads have recorded, latest first. -/
  notes : List (Nat × M.Note)

/-- Some of what a list of notes says, in the order in which it was recorded. The notes come latest
first. -/
def told {Noted β : Type} (tell : Noted → Option β) (notes : List Noted) : List β :=
  (notes.filterMap tell).reverse

@[simp]
theorem told_nil {Noted β : Type} (tell : Noted → Option β) : told tell [] = [] := rfl

@[simp]
theorem told_cons {Noted β : Type} (tell : Noted → Option β) (noted : Noted)
    (notes : List Noted) : told tell (noted :: notes) = told tell notes ++ (tell noted).toList := by
  cases h : tell noted <;> simp [told, h]

/-- A move adds its own notes, in its own order. -/
@[simp]
theorem told_record {State Position Reply Condition Note β : Type}
    (tell : Nat × Note → Option β) (thread : Nat)
    (move : Move State Position Reply Condition Note) (notes : List (Nat × Note)) :
    told tell (move.record thread ++ notes) =
      told tell notes ++ move.notes.filterMap fun note => tell (thread, note) := by
  simp only [told, Move.record, List.filterMap_append, List.filterMap_reverse,
    List.filterMap_map, List.reverse_append, List.reverse_reverse]
  rfl

/-- The view of a system. -/
def System.view (s : System M) : View M :=
  { state := s.state, threads := s.threads.map .still, notes := s.journal.filterMap Entry.note? }

/-- What the threads of a system have recorded is what its view shows, oldest first. -/
theorem System.notes_eq (s : System M) : s.notes = (s.view.notes.map (·.2)).reverse := by
  simp only [System.notes, System.view, List.filterMap_reverse, List.map_filterMap]
  congr 2
  funext entry
  cases entry <;> rfl

/-- What is told by what the threads have recorded, whichever of them did. -/
theorem System.filterMap_notes {β : Type} (tell : M.Note → Option β) (s : System M) :
    s.notes.filterMap tell = told (fun noted => tell noted.2) s.view.notes := by
  rw [notes_eq, List.filterMap_reverse, List.filterMap_map]
  rfl

theorem System.still_mem_view {s : System M} {thread : Nat} {phase : Phase M}
    (here : s.threads[thread]? = some phase) : phase.still ∈ s.view.threads :=
  List.mem_map_of_mem (List.mem_of_getElem? here)

/-- The layout of a view. -/
def View.layout (v : View M) : Layout M :=
  { state := v.state, place := placeIn v.threads, notes := v.notes }

/-- One step of a view, by an allowed event. -/
inductive View.Step (allowed : Event M → Prop) (v : View M) : View M → Prop
  | arrive : Step allowed v { v with threads := v.threads ++ [.idle] }
  | call {thread : Nat} {request : M.Request} {now : Instant}
      (asked : allowed (.call thread request)) (here : v.threads[thread]? = some .idle) :
      Step allowed v { v with threads := v.threads.set thread (.ready (M.start request now)) }
  | rouse {thread : Nat} {condition : M.Condition} {wakeAt : Deadline} {position : M.Position}
      (here : v.threads[thread]? = some (.asleep condition wakeAt position)) :
      Step allowed v { v with threads := v.threads.set thread (.woken condition position) }
  | move {thread wakee : Nat} {input : M.Input} {phase : Phase M} {position : M.Position}
      {now : Instant} {move : Move M.State M.Position M.Reply M.Condition M.Note}
      {threads : List (Phase M)} (asked : allowed (.step thread input wakee))
      (here : v.threads[thread]? = some phase) (awake : phase.position? = some position)
      (moves : M.step v.state now position input = some move)
      (wakes : System.deliverAll wakee move.signals v.threads = some threads) :
      Step allowed v
        { state := move.state
          threads := threads.set thread (Phase.ofOutcome move.outcome).still
          notes := move.record thread ++ v.notes }

/-- The layout after a thread's move. -/
abbrev Layout.after (l : Layout M) (thread : Nat)
    (move : Move M.State M.Position M.Reply M.Condition M.Note) : Layout M :=
  { state := move.state
    place := Function.update l.place thread (Phase.ofOutcome move.outcome).place?
    notes := move.record thread ++ l.notes }

/-- One step of a layout, by an allowed event. -/
inductive Layout.Step (allowed : Event M → Prop) (l : Layout M) : Layout M → Prop
  | call {thread : Nat} {request : M.Request} {now : Instant}
      (asked : allowed (.call thread request)) (free : l.place thread = none) :
      Step allowed l
        { l with place := Function.update l.place thread (some (M.start request now)) }
  | move {thread wakee : Nat} {input : M.Input} {position : M.Position} {now : Instant}
      {move : Move M.State M.Position M.Reply M.Condition M.Note}
      (asked : allowed (.step thread input wakee)) (here : l.place thread = some position)
      (moves : M.step l.state now position input = some move) :
      Step allowed l (l.after thread move)

/-- Once one thread has gone to another place, a thread that is somewhere is that one, or another
one that has stayed where it was. -/
theorem cases_of_update {Position : Type} {place : Nat → Option Position}
    {place? : Option Position} {thread t : Nat} {position : Position}
    (h : Function.update place thread place? t = some position) :
    t = thread ∧ place? = some position ∨ t ≠ thread ∧ place t = some position := by
  by_cases ht : t = thread
  · subst ht
    rw [Function.update_self] at h
    exact .inl ⟨rfl, h⟩
  · rw [Function.update_of_ne ht] at h
    exact .inr ⟨ht, h⟩

variable {allowed : Event M → Prop}

/-! ### Renaming what threads do -/

/-- A signal on a condition that may have another name, or none, in another monitor. -/
def Signal.through {Condition Condition' : Type} (condition? : Condition' → Option Condition) :
    Signal Condition' → Option (Signal Condition)
  | .one condition => (condition? condition).map .one
  | .all condition => (condition? condition).map .all

/-- A renaming of what threads do keeps, in a list of threads, who sleeps on which condition, and
what becomes of a thread that is woken. -/
structure KeepsSleepers {M' : Monitor} (rename : Phase M' → Phase M)
    (condition? : M'.Condition → Option M.Condition) (threads : List (Phase M')) : Prop where
  /-- The sleepers on a condition are the same under its other name. -/
  sleepsOn : ∀ phase ∈ threads, ∀ {c' c}, condition? c' = some c →
    (rename phase).sleepsOn c = phase.sleepsOn c'
  /-- A thread that is woken is woken under its other name. -/
  wake : ∀ phase ∈ threads, rename phase.wake = (rename phase).wake
  /-- A sleeper on a condition without another name does nothing under its own. -/
  other : ∀ phase ∈ threads, ∀ {c'}, condition? c' = none → phase.sleepsOn c' = true →
    rename phase.wake = rename phase

namespace KeepsSleepers

variable {M' : Monitor} {rename : Phase M' → Phase M}
  {condition? : M'.Condition → Option M.Condition} {threads threads' : List (Phase M')}
  {wakee : Nat}

theorem deliver_all {c' : M'.Condition} (h : KeepsSleepers rename condition? threads)
    (hdeliver : System.deliver threads wakee (.all c') = some threads') :
    System.deliverAll wakee ((Signal.all c').through condition?).toList (threads.map rename) =
      some (threads'.map rename) := by
  cases hdeliver
  cases hc : condition? c' with
  | none =>
    simp only [Signal.through, hc, Option.map_none, Option.toList_none, System.deliverAll,
      List.map_map, Option.some.injEq]
    apply List.map_congr_left
    intro phase hphase
    by_cases hsleeps : phase.sleepsOn c' = true
    · simp [hsleeps, h.other phase hphase hc hsleeps]
    · simp [hsleeps]
  | some c =>
    simp only [Signal.through, hc, Option.map_some, Option.toList_some, System.deliverAll,
      System.deliver, List.map_map, Option.bind_some, Option.some.injEq]
    apply List.map_congr_left
    intro phase hphase
    by_cases hsleeps : phase.sleepsOn c' = true
    · simp [h.sleepsOn phase hphase hc, hsleeps, h.wake phase hphase]
    · simp [h.sleepsOn phase hphase hc, hsleeps]

theorem deliver_one {c' : M'.Condition} (h : KeepsSleepers rename condition? threads)
    (hdeliver : System.deliver threads wakee (.one c') = some threads') :
    System.deliverAll wakee ((Signal.one c').through condition?).toList (threads.map rename) =
      some (threads'.map rename) := by
  rcases System.deliver_one_cases hdeliver with ⟨hnone, rfl⟩ | ⟨phase, hphase, hsleeps, rfl⟩
  · cases hc : condition? c' with
    | none => simp [Signal.through, hc, System.deliverAll]
    | some c =>
      have hany : (threads'.map rename).any (·.sleepsOn c) = false := by
        simp only [List.any_map, List.any_eq_false, Function.comp_apply]
        intro phase hphase
        simp [h.sleepsOn phase hphase hc, hnone phase hphase]
      simp [Signal.through, hc, System.deliverAll, System.deliver, hany]
  · have hmem := List.mem_of_getElem? hphase
    cases hc : condition? c' with
    | none =>
      obtain ⟨hi, rfl⟩ := List.getElem?_eq_some_iff.1 hphase
      simp only [Signal.through, hc, Option.map_none, Option.toList_none, System.deliverAll,
        List.map_set, h.other _ hmem hc hsleeps, Option.some.injEq]
      rw [← List.getElem_map rename]
      · exact (List.set_getElem_self _).symm
      · simpa using hi
    | some c =>
      have hrenamed : (rename phase).sleepsOn c = true := by
        rw [h.sleepsOn phase hmem hc, hsleeps]
      have hany : (threads.map rename).any (·.sleepsOn c) = true := by
        simp only [List.any_map, List.any_eq_true, Function.comp_apply]
        exact ⟨phase, hmem, hrenamed⟩
      simp [Signal.through, hc, System.deliverAll, System.deliver, hany, hphase, hrenamed,
        h.wake phase hmem]

/-- A signal keeps what a renaming needs. -/
theorem of_deliver {signal : Signal M'.Condition} (h : KeepsSleepers rename condition? threads)
    (hdeliver : System.deliver threads wakee signal = some threads') :
    KeepsSleepers rename condition? threads' where
  sleepsOn phase hmem c' c hc := by
    obtain ⟨before, hbefore, rfl | rfl⟩ := System.mem_deliver hdeliver hmem
    · exact h.sleepsOn phase hbefore hc
    · rw [h.wake before hbefore, Phase.sleepsOn_wake, Phase.sleepsOn_wake]
  wake phase hmem := by
    obtain ⟨before, hbefore, rfl | rfl⟩ := System.mem_deliver hdeliver hmem
    · exact h.wake phase hbefore
    · rw [Phase.wake_wake, h.wake before hbefore, Phase.wake_wake]
  other phase hmem c' hc hsleeps := by
    obtain ⟨before, hbefore, rfl | rfl⟩ := System.mem_deliver hdeliver hmem
    · exact h.other phase hbefore hc hsleeps
    · simp at hsleeps

/-- Signals wake the same threads under other names, those without another name being lost. -/
theorem deliverAll {signals : List (Signal M'.Condition)}
    (h : KeepsSleepers rename condition? threads)
    (hdeliver : System.deliverAll wakee signals threads = some threads') :
    System.deliverAll wakee (signals.filterMap (·.through condition?)) (threads.map rename) =
      some (threads'.map rename) := by
  induction signals generalizing threads with
  | nil =>
    cases hdeliver
    rfl
  | cons signal rest ih =>
    obtain ⟨between, hfirst, hrest⟩ := Option.bind_eq_some_iff.1 hdeliver
    have hrenamed : System.deliverAll wakee (signal.through condition?).toList
        (threads.map rename) = some (between.map rename) := by
      cases signal with
      | one c' => exact h.deliver_one hfirst
      | all c' => exact h.deliver_all hfirst
    have hlater := ih (h.of_deliver hfirst) hrest
    cases hthrough : signal.through condition? with
    | none =>
      simp only [hthrough, Option.toList_none, System.deliverAll, Option.some.injEq] at hrenamed
      rw [List.filterMap_cons, hthrough, hrenamed]
      exact hlater
    | some renamed =>
      rw [hthrough] at hrenamed
      obtain ⟨_, hone, hend⟩ := Option.bind_eq_some_iff.1 hrenamed
      cases hend
      rw [List.filterMap_cons, hthrough]
      exact Option.bind_eq_some_iff.2 ⟨_, hone, hlater⟩

end KeepsSleepers

/-! ### From systems to views -/

theorem keepsSleepers_still (threads : List (Phase M)) :
    KeepsSleepers Phase.still some threads where
  sleepsOn phase _ c' c hc := by
    cases hc
    exact Phase.sleepsOn_still _ phase
  wake phase _ := Phase.still_wake phase
  other _ _ _ hc := by contradiction

theorem filterMap_through_some {Condition : Type} (signals : List (Signal Condition)) :
    signals.filterMap (·.through some) = signals := by
  induction signals with
  | nil => rfl
  | cons signal rest ih =>
    have hsignal : signal.through some = some signal := by cases signal <;> rfl
    rw [List.filterMap_cons, hsignal, ih]

/-- Of a move's entries in the journal, a view keeps what they record. -/
@[simp]
theorem filterMap_note?_entries (thread : Nat)
    (move : Move M.State M.Position M.Reply M.Condition M.Note) :
    (System.entries thread move).filterMap Entry.note? = move.notes.map (thread, ·) := by
  have hnotes : (move.notes.map (Entry.noted (M := M) thread)).filterMap Entry.note? =
      move.notes.map (thread, ·) := by
    rw [List.filterMap_map, ← List.filterMap_eq_map]
    rfl
  unfold System.entries
  rw [List.filterMap_append, hnotes]
  split <;> simp

/-- A move adds what it records to the notes of a journal. -/
theorem filterMap_note?_append (thread : Nat)
    (move : Move M.State M.Position M.Reply M.Condition M.Note) (journal : List (Entry M)) :
    ((System.entries thread move).reverse ++ journal).filterMap Entry.note? =
      move.record thread ++ journal.filterMap Entry.note? := by
  simp [Move.record]

/-- An event of a system is nothing that its view shows, or one step of the view. -/
theorem System.Change.view {s s' : System M} {event : Event M} (h : Change s event s')
    (hallowed : allowed event) : s'.view = s.view ∨ s.view.Step allowed s'.view := by
  cases h with
  | elapse later => exact .inl rfl
  | arrive =>
    right
    have hview : ({ s with threads := s.threads ++ [.idle] } : System M).view =
        { s.view with threads := s.view.threads ++ [.idle] } := by
      simp [System.view, Phase.still]
    rw [hview]
    exact .arrive
  | @call thread request phase here free =>
    right
    have hidle : s.view.threads[thread]? = some .idle := by
      simp [System.view, here, Phase.still_of_isFree free]
    have hstep : s.view.Step allowed
        { s.view with
          threads := s.view.threads.set thread (.ready (M.start request s.now)) } :=
      .call hallowed hidle
    simpa [System.view, List.map_set, List.filterMap_cons, Phase.still] using hstep
  | @rouse thread condition wakeAt position here =>
    right
    have hasleep : s.view.threads[thread]? = some (.asleep condition wakeAt position) := by
      simp [System.view, here, Phase.still]
    have hstep : s.view.Step allowed
        { s.view with threads := s.view.threads.set thread (.woken condition position) } :=
      .rouse hasleep
    simpa [System.view, List.map_set, Phase.still] using hstep
  | @step thread wakee input phase position move threads here awake moves wakes =>
    right
    have hhere : s.view.threads[thread]? = some phase.still := by
      simp [System.view, here]
    have hawake : phase.still.position? = some position := by simpa using awake
    have hwakes := (keepsSleepers_still s.threads).deliverAll wakes
    rw [filterMap_through_some] at hwakes
    have hstep := View.Step.move hallowed hhere hawake moves hwakes
    simpa only [System.view, List.map_set, filterMap_note?_append] using hstep

/-- The views that steps by allowed events lead to. -/
inductive View.Reachable (allowed : Event M → Prop) (start : View M) : View M → Prop
  | start : Reachable allowed start start
  | step {v v' : View M} : Reachable allowed start v → v.Step allowed v' →
      Reachable allowed start v'

/-- The view of a reachable system is reachable. -/
theorem System.ReachableBy.view {start s : System M} (h : start.ReachableBy allowed s) :
    start.view.Reachable allowed s.view := by
  induction h with
  | start => exact .start
  | next _ hallowed hnext ih =>
    rcases (next_eq_some_iff.1 hnext).view hallowed with hsame | hstep
    · rwa [hsame]
    · exact .step ih hstep

/-! ### From views to layouts -/

section Places

variable {threads threads' : List (Phase M)} {thread : Nat} {phase : Phase M}

/-- The place of each thread depends on the list of places only. -/
theorem placeIn_congr (h : threads'.map Phase.place? = threads.map Phase.place?) :
    placeIn threads' = placeIn threads := by
  funext t
  have hplace : ∀ list : List (Phase M), placeIn list t = (list.map Phase.place?)[t]?.join := by
    intro list
    rw [List.getElem?_map, placeIn]
    cases list[t]? <;> rfl
  rw [hplace, hplace, h]

/-- A thread that is awake within a call is at the place of its next step. -/
theorem placeIn_of_awake {position : M.Position} (here : threads[thread]? = some phase)
    (awake : phase.position? = some position) : placeIn threads thread = some position := by
  rw [placeIn, here]
  exact Phase.place?_of_position? awake

theorem placeIn_map_still (threads : List (Phase M)) :
    placeIn (threads.map .still) = placeIn threads := by
  apply placeIn_congr
  rw [List.map_map]
  apply List.map_congr_left
  intro phase _
  exact Phase.place?_still phase

/-- One thread at another place leaves the others where they are. -/
theorem placeIn_set (hlt : thread < threads.length) :
    placeIn (threads.set thread phase) = Function.update (placeIn threads) thread phase.place? := by
  funext t
  by_cases ht : t = thread
  · subst ht
    simp [placeIn, hlt]
  · simp [placeIn, Function.update_of_ne ht, List.getElem?_set_ne (Ne.symm ht)]

/-- A thread that wakes is at the same place as before. -/
theorem placeIn_rouse {condition : M.Condition} {wakeAt : Deadline} {position : M.Position}
    (here : threads[thread]? = some (.asleep condition wakeAt position)) :
    placeIn (threads.set thread (.woken condition position)) = placeIn threads := by
  rw [placeIn_set (List.getElem?_eq_some_iff.1 here).1]
  apply Function.update_eq_self_iff.2
  simp [placeIn, here]

/-- Signals move no thread to another place. -/
theorem placeIn_deliverAll {wakee : Nat} {signals : List (Signal M.Condition)}
    (h : System.deliverAll wakee signals threads = some threads') :
    placeIn threads' = placeIn threads := placeIn_congr (System.map_place?_deliverAll h)

/-- A thread that moves leaves the others at their places. -/
theorem placeIn_deliverAll_set {wakee : Nat} {signals : List (Signal M.Condition)}
    {before : Phase M} (here : threads[thread]? = some before)
    (h : System.deliverAll wakee signals threads = some threads') :
    placeIn (threads'.set thread phase) =
      Function.update (placeIn threads) thread phase.place? := by
  rw [placeIn_set (System.lt_of_deliverAll here h), placeIn_deliverAll h]

/-- A new thread is nowhere. -/
theorem placeIn_append_idle : placeIn (threads ++ [.idle]) = placeIn threads := by
  funext t
  unfold placeIn
  by_cases ht : t < threads.length
  · rw [List.getElem?_append_left ht]
  · rw [List.getElem?_append_right (Nat.le_of_not_lt ht),
      List.getElem?_eq_none (Nat.le_of_not_lt ht)]
    cases t - threads.length <;> rfl

end Places

/-- A step of a view is nothing that its layout shows, or one step of the layout. -/
theorem View.Step.layout {v v' : View M} (h : v.Step allowed v') :
    v'.layout = v.layout ∨ v.layout.Step allowed v'.layout := by
  cases h with
  | arrive =>
    left
    simp only [View.layout, placeIn_append_idle]
  | @call thread request now asked here =>
    right
    have hlt := (List.getElem?_eq_some_iff.1 here).1
    have hfree : v.layout.place thread = none := by simp [View.layout, placeIn, here]
    have hstep : v.layout.Step allowed
        { v.layout with
          place := Function.update v.layout.place thread (some (M.start request now)) } :=
      .call asked hfree
    simpa only [View.layout, placeIn_set hlt, Phase.place?_ready] using hstep
  | @rouse thread condition wakeAt position here =>
    left
    simp only [View.layout, placeIn_rouse here]
  | @move thread wakee input phase position now move threads asked here awake moves wakes =>
    right
    have hhere : v.layout.place thread = some position := by
      simp [View.layout, placeIn, here, Phase.place?_of_position? awake]
    have hstep := Layout.Step.move asked hhere moves
    simpa only [View.layout, placeIn_deliverAll_set here wakes, Phase.place?_still] using hstep

/-- The layouts that steps by allowed events lead to. -/
inductive Layout.Reachable (allowed : Event M → Prop) (start : Layout M) : Layout M → Prop
  | start : Reachable allowed start start
  | step {l l' : Layout M} : Reachable allowed start l → l.Step allowed l' →
      Reachable allowed start l'

/-- The layout of a reachable view is reachable. -/
theorem View.Reachable.layout {start v : View M} (h : start.Reachable allowed v) :
    start.layout.Reachable allowed v.layout := by
  induction h with
  | start => exact .start
  | step _ hstep ih =>
    rcases hstep.layout with hsame | hmove
    · rwa [hsame]
    · exact .step ih hmove

/-- The layout of a system. -/
def System.layout (s : System M) : Layout M := s.view.layout

/-- The layout of a system has every thread where the system has it. -/
theorem System.place_layout (s : System M) : s.layout.place = placeIn s.threads :=
  placeIn_map_still s.threads

/-- A step of a thread is its move on the layout. -/
theorem System.layout_step {s : System M} {thread wakee : Nat} {phase : Phase M}
    {move : Move M.State M.Position M.Reply M.Condition M.Note} {threads : List (Phase M)}
    (here : s.threads[thread]? = some phase)
    (wakes : deliverAll wakee move.signals s.threads = some threads) :
    (System.mk s.now move.state (threads.set thread (.ofOutcome move.outcome))
      ((entries thread move).reverse ++ s.journal)).layout = s.layout.after thread move := by
  have hplace : placeIn ((threads.set thread (.ofOutcome move.outcome)).map .still) =
      Function.update (placeIn (s.threads.map .still)) thread
        (Phase.ofOutcome move.outcome).place? := by
    have hsame : placeIn (threads.set thread (.ofOutcome move.outcome)) =
        Function.update (placeIn s.threads) thread (Phase.ofOutcome move.outcome).place? :=
      placeIn_deliverAll_set here wakes
    rw [placeIn_map_still, placeIn_map_still, hsame]
  simp only [System.layout, System.view, View.layout, Layout.after]
  rw [hplace, filterMap_note?_append]

/-- A change of a system is nothing that its layout shows, or one step of the layout. -/
theorem System.Change.layout {s s' : System M} {event : Event M} (h : Change s event s')
    (hallowed : allowed event) : s'.layout = s.layout ∨ s.layout.Step allowed s'.layout := by
  rcases h.view hallowed with hsame | hstep
  · left
    rw [System.layout, hsame]
    rfl
  · exact hstep.layout

/-- The layout of a reachable system is reachable. -/
theorem System.ReachableBy.layout {start s : System M} (h : start.ReachableBy allowed s) :
    start.layout.Reachable allowed s.layout := h.view.layout

/-- What holds at the start and is kept by every step holds of every reachable view. -/
theorem View.Reachable.invariant {P : View M → Prop} {start v : View M}
    (h : start.Reachable allowed v) (hstart : P start)
    (hstep : ∀ {v v'}, P v → v.Step allowed v' → P v') : P v := by
  induction h with
  | start => exact hstart
  | step _ hmove ih => exact hstep ih hmove

/-- What holds at the start and is kept by every step holds of every reachable layout. -/
theorem Layout.Reachable.invariant {P : Layout M → Prop} {start l : Layout M}
    (h : start.Reachable allowed l) (hstart : P start)
    (hstep : ∀ {l l'}, P l → l.Step allowed l' → P l') : P l := by
  induction h with
  | start => exact hstart
  | step _ hmove ih => exact hstep ih hmove

end Backpressure
