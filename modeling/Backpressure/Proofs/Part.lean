import Backpressure.Proofs.View

/-!
# Parts of a larger monitor

A monitor may be made of smaller ones, in that some of its steps are steps of a part and the others
leave the part alone. The layout and the view of the whole then show a layout and a view of the
part, and what holds of every use of the part holds of it inside the whole.
-/

namespace Backpressure

/-- A thread is outside a monitor or at the beginning of a call on it. -/
def Monitor.Begins (M : Monitor) (place? : Option M.Position) : Prop :=
  place? = none ∨ ∃ request now, place? = some (M.start request now)

namespace Phase

variable {W M : Monitor}

/-- What a thread does that is awake at a place of its call, or outside every call. -/
def awake (place? : Option M.Position) : Phase M := (place?.map .ready).getD .idle

/-- What a thread of a larger monitor does inside a smaller one, where it can sleep only on a
condition of the smaller one. -/
def within (place? : W.Position → Option M.Position)
    (condition? : W.Condition → Option M.Condition) : Phase W → Phase M
  | .ready position => awake (place? position)
  | .asleep condition wakeAt position =>
    match place? position, condition? condition with
    | some p, some c => .asleep c wakeAt p
    | inside?, _ => awake inside?
  | .woken condition position =>
    match place? position, condition? condition with
    | some p, some c => .woken c p
    | inside?, _ => awake inside?
  | .idle | .returned _ | .ended => .idle

variable {place? : W.Position → Option M.Position} {condition? : W.Condition → Option M.Condition}

@[simp]
theorem awake_none : (awake none : Phase M) = .idle := rfl

@[simp]
theorem place?_awake (inside? : Option M.Position) : (awake inside?).place? = inside? := by
  cases inside? <;> rfl

@[simp]
theorem sleepsOn_awake (condition : M.Condition) (inside? : Option M.Position) :
    (awake inside?).sleepsOn condition = false := by
  cases inside? <;> rfl

@[simp]
theorem place?_within (phase : Phase W) :
    (phase.within place? condition?).place? = phase.place?.bind place? := by
  cases phase with
  | ready position => exact place?_awake _
  | asleep condition wakeAt position | woken condition position =>
    cases h : place? position <;> cases h' : condition? condition <;> simp [within, h, h']
  | idle | returned | ended => rfl

@[simp]
theorem within_still (phase : Phase W) :
    phase.still.within place? condition? = phase.within place? condition? := by
  cases phase <;> rfl

theorem within_wake (phase : Phase W) :
    phase.wake.within place? condition? = (phase.within place? condition?).wake := by
  cases phase with
  | ready position => cases h : place? position <;> simp [within, wake, awake, h]
  | asleep condition wakeAt position | woken condition position =>
    cases h : place? position <;> cases h' : condition? condition <;>
      simp [within, wake, awake, h, h']
  | idle | returned | ended => rfl

/-- A thread that is awake inside the smaller monitor. -/
theorem position?_within {phase : Phase W} {position : W.Position} {p : M.Position}
    (h : phase.position? = some position) (hplace : place? position = some p) :
    (phase.within place? condition?).position? = some p := by
  cases phase with
  | ready there =>
    cases h
    simp [within, awake, hplace, position?]
  | woken condition there =>
    cases h
    cases h' : condition? condition <;> simp [within, awake, hplace, h', position?]
  | _ => contradiction

/-- A thread that is awake outside the smaller monitor. -/
theorem within_eq_idle {phase : Phase W} {position : W.Position}
    (h : phase.position? = some position) (hplace : place? position = none) :
    phase.within place? condition? = .idle := by
  cases phase with
  | ready there | woken _ there =>
    cases h
    simp [within, awake, hplace]
  | _ => contradiction

end Phase

/-- After a step of a smaller monitor inside a larger one, a thread goes on with its call on the
smaller one, or that call has returned and the larger one goes on. -/
theorem cases_of_embed {W M : Monitor} {move : Move M.State M.Position M.Reply M.Condition M.Note}
    {state : M.State → W.State} {position : M.Position → W.Position}
    {condition : M.Condition → W.Condition} {note : M.Note → W.Note}
    {finish : M.Reply → Outcome W.Position W.Reply W.Condition} {place : W.Position}
    (h : (Phase.ofOutcome (M := W)
      (move.embed state position condition note finish).outcome).place? = some place) :
    (∃ p, place = position p ∧ (Phase.ofOutcome (M := M) move.outcome).place? = some p) ∨
      ∃ reply, move.outcome = .reply reply ∧
        (Phase.ofOutcome (M := W) (finish reply)).place? = some place := by
  simp only [Move.embed] at h
  cases houtcome : move.outcome with
  | proceed p | sleep _ _ p =>
    rw [houtcome] at h
    cases h
    exact .inl ⟨p, rfl, rfl⟩
  | reply reply =>
    rw [houtcome] at h
    exact .inr ⟨reply, rfl, h⟩
  | exit =>
    rw [houtcome] at h
    contradiction

section Embed

variable {W M : Monitor} {move : Move M.State M.Position M.Reply M.Condition M.Note}
  {state : M.State → W.State} {position : M.Position → W.Position}
  {condition : M.Condition → W.Condition} {note : M.Note → W.Note}
  {finish : M.Reply → Outcome W.Position W.Reply W.Condition}
  {place? : W.Position → Option M.Position} {condition? : W.Condition → Option M.Condition}

/-- A step of the smaller monitor leaves a thread inside it, unless its call there returns. -/
theorem within_embed (hposition : ∀ p, place? (position p) = some p)
    (hcondition : ∀ c, condition? (condition c) = some c) :
    (Phase.ofOutcome (M := W)
        (move.embed state position condition note finish).outcome).within place? condition? =
      (Phase.ofOutcome (M := M) move.outcome).still ∨
    ∃ reply, move.outcome = .reply reply ∧
      (move.embed state position condition note finish).outcome = finish reply := by
  simp only [Move.embed]
  cases houtcome : move.outcome with
  | proceed p =>
    left
    simp [Phase.ofOutcome, Phase.within, hposition, Phase.awake, Phase.still]
  | sleep c wakeAt p =>
    left
    simp [Phase.ofOutcome, Phase.within, hposition, hcondition, Phase.still]
  | reply reply => exact .inr ⟨reply, rfl, rfl⟩
  | exit => exact .inl rfl

/-- A step of another monitor leaves a thread outside the smaller one, unless its call there
returns. -/
theorem within_embed_other {N : Monitor} {place? : W.Position → Option N.Position}
    {condition? : W.Condition → Option N.Condition} (hposition : ∀ p, place? (position p) = none) :
    (Phase.ofOutcome (M := W)
        (move.embed state position condition note finish).outcome).within place? condition? =
      .awake none ∨
    ∃ reply, move.outcome = .reply reply ∧
      (move.embed state position condition note finish).outcome = finish reply := by
  simp only [Move.embed]
  cases houtcome : move.outcome with
  | proceed p | sleep c wakeAt p =>
    left
    simp [Phase.ofOutcome, Phase.within, hposition]
  | reply reply => exact .inr ⟨reply, rfl, rfl⟩
  | exit => exact .inl rfl

end Embed

section Signals

variable {Condition Condition' Other : Type} (condition : Condition → Condition')

/-- The signals of a step of the smaller monitor are its own. -/
theorem filterMap_through_map (condition? : Condition' → Option Condition)
    (h : ∀ c, condition? (condition c) = some c) (signals : List (Signal Condition)) :
    (signals.map (·.map condition)).filterMap (·.through condition?) = signals := by
  have hsignal : ∀ signal : Signal Condition,
      (signal.map condition).through condition? = some signal := by
    intro signal
    cases signal <;> simp [Signal.map, Signal.through, h]
  have hown : Signal.through condition? ∘ Signal.map condition = some := funext hsignal
  rw [List.filterMap_map, hown, List.filterMap_some]

/-- The signals of a step of another monitor are none of the smaller one. -/
theorem filterMap_through_map_other (condition? : Condition' → Option Other)
    (h : ∀ c, condition? (condition c) = none) (signals : List (Signal Condition)) :
    (signals.map (·.map condition)).filterMap (·.through condition?) = [] := by
  have hsignal : ∀ signal : Signal Condition,
      (signal.map condition).through condition? = none := by
    intro signal
    cases signal <;> simp [Signal.map, Signal.through, h]
  rw [List.filterMap_map]
  exact List.filterMap_eq_nil_iff.2 fun signal _ => hsignal signal

end Signals

/-- What a step of a larger monitor is for the layout of a smaller one inside it. -/
inductive Layout.Turn {M : Monitor} (m : Layout M) : Layout M → Prop
  /-- A thread outside the smaller monitor stays there, or begins a call on it. -/
  | begins {thread : Nat} {place? : Option M.Position} (free : m.place thread = none)
      (begins : M.Begins place?) :
      Turn m { m with place := Function.update m.place thread place? }
  /-- A thread takes a step of the smaller monitor, and may begin another call once the step has
  made it return. -/
  | moves {thread : Nat} {position : M.Position} {now : Instant} {input : M.Input}
      {move : Move M.State M.Position M.Reply M.Condition M.Note} {place? : Option M.Position}
      (here : m.place thread = some position)
      (moves : M.step m.state now position input = some move)
      (after : place? = (Phase.ofOutcome move.outcome).place? ∨
        (Phase.ofOutcome (M := M) move.outcome).place? = none ∧ M.Begins place?) :
      Turn m
        { state := move.state
          place := Function.update m.place thread place?
          notes := move.record thread ++ m.notes }

/-- A smaller monitor inside a larger one. -/
structure Part (W M : Monitor) where
  /-- The part's state. -/
  state : W.State → M.State
  /-- The place of a thread within the part, if it is there. -/
  place? : W.Position → Option M.Position
  /-- What a condition is called within the part, if it belongs to it. -/
  condition? : W.Condition → Option M.Condition
  /-- What a note says of the part. -/
  note? : W.Note → Option M.Note
  /-- The conditions of the part can be told apart. -/
  apart : ∀ {c c' k}, condition? c = some k → condition? c' = some k → c = c'
  /-- A call begins outside the part or at the beginning of a call on it. -/
  starts : ∀ request now, M.Begins (place? (W.start request now))
  /-- Threads sleep on the conditions of the part inside it only. -/
  sleeps : ∀ {w now position input move condition wakeAt place},
    W.step w now position input = some move → move.outcome = .sleep condition wakeAt place →
      (condition? condition).isSome = true → (place? place).isSome = true
  /-- A thread inside the part takes a step of the part. When its call on the part is over it may
  begin another one. -/
  inside : ∀ {w now position input move p}, W.step w now position input = some move →
    place? position = some p → ∃ input' move',
      M.step (state w) now p input' = some move' ∧ state move.state = move'.state ∧
      move.signals.filterMap (·.through condition?) = move'.signals ∧
      move.notes.filterMap note? = move'.notes ∧
      ((Phase.ofOutcome (M := W) move.outcome).within place? condition? =
          (Phase.ofOutcome (M := M) move'.outcome).still ∨
        (Phase.ofOutcome (M := M) move'.outcome).still = .idle ∧
          ∃ begun?, M.Begins begun? ∧
            (Phase.ofOutcome (M := W) move.outcome).within place? condition? = .awake begun?)
  /-- A thread outside the part leaves it alone, and may begin a call on it. -/
  outside : ∀ {w now position input move}, W.step w now position input = some move →
    place? position = none → state move.state = state w ∧
      move.signals.filterMap (·.through condition?) = [] ∧ move.notes.filterMap note? = [] ∧
      ∃ begun?, M.Begins begun? ∧
        (Phase.ofOutcome (M := W) move.outcome).within place? condition? = .awake begun?

namespace Part

variable {W M : Monitor} (part : Part W M)

/-- What the layout of the whole shows of the part. -/
def layout (l : Layout W) : Layout M :=
  { state := part.state l.state
    place := fun thread => (l.place thread).bind part.place?
    notes := l.notes.filterMap fun noted => (part.note? noted.2).map (noted.1, ·) }

theorem place_update (place : Nat → Option W.Position) (thread : Nat)
    (place? : Option W.Position) :
    (fun t => (Function.update place thread place? t).bind part.place?) =
      Function.update (fun t => (place t).bind part.place?) thread
        (place?.bind part.place?) := by
  funext t
  by_cases ht : t = thread
  · subst ht
    simp
  · simp [Function.update_of_ne ht]

theorem notes_record (thread : Nat)
    (move : Move W.State W.Position W.Reply W.Condition W.Note) (notes : List (Nat × W.Note)) :
    (move.record thread ++ notes).filterMap
        (fun noted => (part.note? noted.2).map (noted.1, ·)) =
      ((move.notes.filterMap part.note?).map (thread, ·)).reverse ++
        notes.filterMap (fun noted => (part.note? noted.2).map (noted.1, ·)) := by
  rw [List.filterMap_append, Move.record, List.filterMap_reverse, List.filterMap_map,
    List.map_filterMap]
  rfl

/-- A move of the whole adds to what the notes of the part tell what it records of the part. -/
theorem told_layout {β : Type} (tell : Nat × M.Note → Option β) (thread : Nat)
    (move : Move W.State W.Position W.Reply W.Condition W.Note)
    (place : Nat → Option W.Position) (notes : List (Nat × W.Note)) (state state' : W.State)
    (place' : Nat → Option W.Position) :
    told tell (part.layout ⟨state', place', move.record thread ++ notes⟩).notes =
      told tell (part.layout ⟨state, place, notes⟩).notes ++
        (move.notes.filterMap part.note?).filterMap fun note => tell (thread, note) := by
  simp only [layout, told]
  rw [notes_record, List.filterMap_append, List.filterMap_reverse, List.filterMap_map,
    List.reverse_append, List.reverse_reverse]
  rfl

/-- What the notes of the part tell, the notes of the whole tell. -/
theorem told_notes {β : Type} (tell : Nat × M.Note → Option β) (l : Layout W) :
    told tell (part.layout l).notes =
      told (fun noted => (part.note? noted.2).bind fun note => tell (noted.1, note)) l.notes := by
  simp only [layout, told, List.filterMap_filterMap, Option.bind_map]
  rfl

variable {allowed : Event W → Prop} {l l' : Layout W}

/-- A step of the whole is a turn of the part. -/
theorem turn_of_step (hstep : l.Step allowed l') : (part.layout l).Turn (part.layout l') := by
  cases hstep with
  | @call thread request now asked free =>
    have hfree : (part.layout l).place thread = none := by simp [layout, free]
    have hturn := Layout.Turn.begins hfree (part.starts request now)
    simpa only [layout, place_update, Option.bind_some] using hturn
  | @move thread wakee input position now move asked here moves =>
    cases hplace : part.place? position with
    | none =>
      obtain ⟨hstate, _, hnotes, begun?, hbegins, hphase⟩ := part.outside moves hplace
      have hafter := congrArg Phase.place? hphase
      rw [Phase.place?_within, Phase.place?_awake] at hafter
      have hfree : (part.layout l).place thread = none := by simp [layout, here, hplace]
      have hturn := Layout.Turn.begins hfree hbegins
      simpa only [layout, place_update, notes_record, hstate, hnotes, hafter, List.map_nil,
        List.reverse_nil, List.nil_append] using hturn
    | some p =>
      obtain ⟨input', move', hmoves, hstate, _, hnotes, hphase⟩ := part.inside moves hplace
      have hafter : (Phase.ofOutcome (M := W) move.outcome).place?.bind part.place? =
            (Phase.ofOutcome (M := M) move'.outcome).place? ∨
          (Phase.ofOutcome (M := M) move'.outcome).place? = none ∧
            M.Begins ((Phase.ofOutcome (M := W) move.outcome).place?.bind part.place?) := by
        rw [← Phase.place?_within (W := W),
          ← Phase.place?_still (Phase.ofOutcome (M := M) move'.outcome)]
        rcases hphase with hsame | ⟨hover, begun?, hbegins, hphase⟩
        · exact .inl (congrArg Phase.place? hsame)
        · rw [hover, hphase, Phase.place?_awake]
          exact .inr ⟨rfl, hbegins⟩
      have hhere : (part.layout l).place thread = some p := by simp [layout, here, hplace]
      have hturn := Layout.Turn.moves hhere hmoves hafter
      simp only [layout, place_update, notes_record, hstate, hnotes]
      exact hturn

/-- A thread outside a monitor may begin a call on it, by one step or none. -/
theorem begin_call {m : Layout M} {thread : Nat} {place? : Option M.Position}
    (hfree : m.place thread = none) (hbegins : M.Begins place?) {start : Layout M}
    (h : start.Reachable (fun _ => True) m) :
    start.Reachable (fun _ => True) { m with place := Function.update m.place thread place? } := by
  rcases hbegins with rfl | ⟨request, now, rfl⟩
  · rw [Function.update_eq_self_iff.2 hfree.symm]
    exact h
  · exact .step h (.call trivial hfree)

/-- A turn is some steps or none. -/
theorem reachable_of_turn {start m m' : Layout M} (h : start.Reachable (fun _ => True) m)
    (hturn : m.Turn m') : start.Reachable (fun _ => True) m' := by
  cases hturn with
  | begins free begins => exact begin_call free begins h
  | @moves thread position now input move place? here moves after =>
    have hmoved := Layout.Reachable.step h
      (@Layout.Step.move M _ _ thread 0 input position now move trivial here moves)
    rcases after with rfl | ⟨hover, hbegins⟩
    · exact hmoved
    · rw [Layout.after, hover] at hmoved
      have hbegun := begin_call (Function.update_self _ _ _) hbegins hmoved
      simp only [Function.update_idem] at hbegun
      exact hbegun

/-- The part of a reachable layout is reachable. -/
theorem reachable {start : Layout W} (h : start.Reachable allowed l) :
    (part.layout start).Reachable (fun _ => True) (part.layout l) := by
  induction h with
  | start => exact .start
  | step _ hstep ih => exact reachable_of_turn ih (part.turn_of_step hstep)

/-! ### Views of a part -/

/-- What a thread of the whole does inside the part. -/
def phase (p : Phase W) : Phase M := p.within part.place? part.condition?

/-- What the view of the whole shows of the part. -/
def view (v : View W) : View M :=
  { state := part.state v.state
    threads := v.threads.map part.phase
    notes := v.notes.filterMap fun noted => (part.note? noted.2).map (noted.1, ·) }

/-- The layout of a part is the same whether it is taken before the sleepers are forgotten or
after. -/
theorem layout_view (v : View W) : (part.view v).layout = part.layout v.layout := by
  have hplace : placeIn (v.threads.map part.phase) =
      fun thread => (placeIn v.threads thread).bind part.place? := by
    funext thread
    rw [placeIn, List.getElem?_map, placeIn]
    cases v.threads[thread]? with
    | none => rfl
    | some phase => exact Phase.place?_within phase
  simp only [view, View.layout, layout, hplace]

/-- A thread that sleeps on a condition of the part is inside the part. -/
def Tidy : Phase W → Prop
  | .asleep condition _ position =>
    (part.condition? condition).isSome = true → (part.place? position).isSome = true
  | _ => True

variable {part}

theorem Tidy.wake {p : Phase W} (h : part.Tidy p) : part.Tidy p.wake := by
  cases p with
  | asleep => trivial
  | _ => exact h

/-- A step of the whole keeps its threads tidy. -/
theorem tidy_of_step {v v' : View W} (h : ∀ p ∈ v.threads, part.Tidy p)
    (hstep : v.Step allowed v') : ∀ p ∈ v'.threads, part.Tidy p := by
  intro p hmem
  cases hstep with
  | arrive =>
    rcases List.mem_append.1 hmem with hold | hnew
    · exact h p hold
    · rw [List.mem_singleton.1 hnew]
      trivial
  | call | rouse =>
    rcases List.mem_or_eq_of_mem_set hmem with hold | rfl
    · exact h p hold
    · trivial
  | @move thread wakee input before position now move threads asked here awake moves wakes =>
    rcases List.mem_or_eq_of_mem_set hmem with hold | rfl
    · exact System.forall_mem_deliverAll (P := part.Tidy) (fun _ => Tidy.wake) h wakes p hold
    · cases houtcome : move.outcome with
      | sleep condition wakeAt place => exact part.sleeps moves houtcome
      | _ => trivial

/-- Where all threads are tidy, the part has the same sleepers as the whole. -/
theorem keepsSleepers {threads : List (Phase W)} (h : ∀ p ∈ threads, part.Tidy p) :
    KeepsSleepers part.phase part.condition? threads where
  sleepsOn p hmem c' c hc := by
    cases p with
    | asleep condition wakeAt position =>
      have htidy : (part.condition? condition).isSome = true →
        (part.place? position).isSome = true := h _ hmem
      cases hcondition : part.condition? condition with
      | none =>
        have hother : condition ≠ c' := by
          rintro rfl
          rw [hc] at hcondition
          contradiction
        have hawake : part.phase (.asleep condition wakeAt position) =
            .awake (part.place? position) := by simp [phase, Phase.within, hcondition]
        rw [hawake, Phase.sleepsOn_awake]
        simp [Phase.sleepsOn, hother]
      | some k =>
        rw [hcondition] at htidy
        obtain ⟨place, hplace⟩ := Option.isSome_iff_exists.1 (htidy rfl)
        have hsame : k = c ↔ condition = c' := by
          constructor
          · rintro rfl
            exact part.apart hcondition hc
          · rintro rfl
            exact Option.some.inj (hcondition.symm.trans hc)
        simp [phase, Phase.within, Phase.sleepsOn, hcondition, hplace, hsame]
    | ready position => exact Phase.sleepsOn_awake c _
    | woken condition position =>
      simp only [phase, Phase.within]
      split
      · rfl
      · exact Phase.sleepsOn_awake c _
    | idle | returned | ended => rfl
  wake p _ := Phase.within_wake p
  other p hmem c' hc hsleeps := by
    cases p with
    | asleep condition wakeAt position =>
      obtain rfl : condition = c' := of_decide_eq_true hsleeps
      cases hplace : part.place? position <;>
        simp [phase, Phase.within, Phase.wake, hc, hplace]
    | _ => contradiction

/-! ### Reachable views -/

/-- A thread that goes on as it was is no change. -/
theorem set_same {threads : List (Phase M)} {thread : Nat} {p : Phase M}
    (h : threads[thread]? = some p) : threads.set thread p = threads := by
  obtain ⟨_, rfl⟩ := List.getElem?_eq_some_iff.1 h
  exact List.set_getElem_self _

/-- A thread outside a monitor may begin a call on it, by one step or none, and be awake in it. -/
theorem begin_awake {start m : View M} {thread : Nat} {begun? : Option M.Position}
    (hidle : m.threads[thread]? = some .idle) (hbegins : M.Begins begun?)
    (h : start.Reachable (fun _ => True) m) :
    start.Reachable (fun _ => True)
      { m with threads := m.threads.set thread (.awake begun?) } := by
  rcases hbegins with rfl | ⟨request, now, rfl⟩
  · rwa [Phase.awake_none, set_same hidle]
  · exact .step h (.call trivial hidle)

/-- A step of the whole is some steps of the part or none. -/
theorem view_of_step {v v' : View W} {start : View M} (htidy : ∀ p ∈ v.threads, part.Tidy p)
    (h : start.Reachable (fun _ => True) (part.view v)) (hstep : v.Step allowed v') :
    start.Reachable (fun _ => True) (part.view v') := by
  cases hstep with
  | arrive =>
    have harrived := View.Reachable.step h .arrive
    simpa [view, phase, Phase.within] using harrived
  | @call thread request now asked here =>
    have hidle : (part.view v).threads[thread]? = some .idle := by
      simp [view, here, phase, Phase.within]
    have hready : part.phase (.ready (W.start request now)) =
        .awake (part.place? (W.start request now)) := rfl
    simp only [view, List.map_set, hready]
    exact begin_awake hidle (part.starts request now) h
  | @rouse thread condition wakeAt position here =>
    have hbefore : (v.threads.map part.phase)[thread]? =
        some (part.phase (.asleep condition wakeAt position)) := by
      simp [here]
    simp only [view, List.map_set]
    simp only [phase, Phase.within] at hbefore ⊢
    split at hbefore
    · exact .step h (.rouse hbefore)
    · rwa [set_same hbefore]
  | @move thread wakee input before position now move threads asked here awake moves wakes =>
    have hbefore : (part.view v).threads[thread]? = some (part.phase before) := by
      simp [view, here]
    have hwakes := (keepsSleepers htidy).deliverAll wakes
    cases hplace : part.place? position with
    | none =>
      obtain ⟨hstate, hsignals, hnotes, begun?, hbegins, hphase⟩ := part.outside moves hplace
      have hidle : part.phase before = .idle := Phase.within_eq_idle awake hplace
      rw [hsignals] at hwakes
      have hsame : v.threads.map part.phase = threads.map part.phase := Option.some.inj hwakes
      rw [hidle] at hbefore
      have hbegun := begin_awake hbefore hbegins h
      simp only [view, hsame, ← hphase] at hbegun
      simpa only [view, List.map_set, phase, Phase.within_still, hstate, part.notes_record, hnotes,
        List.map_nil, List.reverse_nil, List.nil_append] using hbegun
    | some p =>
      obtain ⟨input', move', hmoves, hstate, hsignals, hnotes, hphase⟩ := part.inside moves hplace
      have hawake : (part.phase before).position? = some p := Phase.position?_within awake hplace
      rw [hsignals] at hwakes
      have hmoved := View.Reachable.step h (.move trivial hbefore hawake hmoves hwakes)
      have hview : start.Reachable (fun _ => True)
          { state := move'.state
            threads := (threads.map part.phase).set thread (part.phase (.ofOutcome move.outcome))
            notes := move'.record thread ++ (part.view v).notes } := by
        rcases hphase with hsame | ⟨hover, begun?, hbegins, hphase⟩
        · rw [phase, hsame]
          exact hmoved
        · rw [hover] at hmoved
          have hidle : ((threads.map part.phase).set thread .idle)[thread]? = some .idle := by
            refine List.getElem?_set_self ?_
            rw [List.length_map]
            exact System.lt_of_deliverAll here wakes
          have hbegun := begin_awake hidle hbegins hmoved
          rw [phase, hphase]
          simpa only [List.set_set] using hbegun
      simp only [view, List.map_set, phase, Phase.within_still, hstate, part.notes_record, hnotes]
      exact hview

/-- The part of a reachable view is reachable, where its threads are tidy at the start. -/
theorem reachable_view {start v : View W} (h : start.Reachable allowed v)
    (htidy : ∀ p ∈ start.threads, part.Tidy p) :
    (part.view start).Reachable (fun _ => True) (part.view v) ∧ ∀ p ∈ v.threads, part.Tidy p := by
  induction h with
  | start => exact ⟨.start, htidy⟩
  | step _ hstep ih => exact ⟨view_of_step ih.2 ih.1 hstep, tidy_of_step ih.2 hstep⟩

end Part

end Backpressure
