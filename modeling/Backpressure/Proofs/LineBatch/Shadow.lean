import Backpressure.Proofs.LineBatch.Parts
import Backpressure.Proofs.Writer.Serving

/-!
# The writer of the batcher alone

To every run of the batcher there is a run of its writer alone, in which the main thread makes the
same calls at the same moments. So the writer of the batcher does what every writer does.
-/

namespace Backpressure.LineBatch

/-- A system of the writer alone that does what the batcher does with its writer. -/
structure Shadow (s : System monitor) (m : System (Writer.monitor String)) : Prop where
  /-- It is the same moment. -/
  now : m.now = s.now
  /-- The writer is in the same state, and its threads do the same. -/
  view : m.view = writerPart.view s.view
  /-- A thread that has ended in the writer alone has ended in the batcher. -/
  ended : ∀ thread, m.hasEnded thread = true → s.hasEnded thread = true
  /-- Threads sleep on the conditions of the writer inside it only. -/
  tidy : ∀ phase ∈ s.view.threads, writerPart.Tidy phase

/-- What may happen to the batcher where its writer is given some inputs only. -/
def Supplied (fits : Buffer.Input → Prop) : Event monitor → Prop
  | .step _ input _ => fits input.buffer
  | _ => True

namespace Shadow

variable {s s' : System monitor} {m : System (Writer.monitor String)} {thread : Nat}
  {event : Event monitor} {fits : Buffer.Input → Prop}

theorem layout (h : Shadow s m) : m.layout = writerPart.layout s.layout := by
  rw [System.layout, h.view, writerPart.layout_view]
  rfl

theorem state (h : Shadow s m) : m.state = s.state.writer := congrArg View.state h.view

/-- What the last call of a free thread returned is nothing to the writer. -/
theorem phase_still (phase : Phase monitor) : writerPart.phase phase.still = inWriter phase :=
  Phase.within_still phase

theorem map_phase_still (threads : List (Phase monitor)) :
    (threads.map .still).map writerPart.phase = threads.map inWriter := by
  rw [List.map_map]
  exact List.map_congr_left fun phase _ => phase_still phase

/-- What a thread of the batcher does in its writer, it does in the writer alone. -/
theorem getElem? (h : Shadow s m) {phase : Phase monitor} (here : s.threads[thread]? = some phase) :
    m.view.threads[thread]? = some (inWriter phase) := by
  rw [h.view]
  simp only [Part.view, System.view, map_phase_still, List.getElem?_map, here, Option.map_some]

/-- A thread of the batcher that is at a place has not ended in the writer alone. -/
theorem alive (h : Shadow s m) {phase : Phase monitor} {position : Position}
    (here : s.threads[thread]? = some phase) (hplace : phase.place? = some position) :
    m.hasEnded thread = false := by
  by_contra hended
  have hends := h.ended thread (Bool.of_not_eq_false hended)
  rw [System.hasEnded, System.any_isEnded_of_place? here hplace] at hends
  contradiction

/-- What the writer sees of the batcher after one thread has gone on to something else. -/
theorem view_set (h : Shadow s m) {phase : Phase monitor} {journal : List (Entry monitor)}
    (hjournal : journal.filterMap Entry.note? = s.journal.filterMap Entry.note?) :
    writerPart.view (System.mk s.now s.state (s.threads.set thread phase) journal).view =
      { m.view with threads := m.view.threads.set thread (inWriter phase) } := by
  rw [h.view]
  simp only [Part.view, System.view, map_phase_still, List.map_set, phase_still, hjournal]

/-- A change that the writer sees only as some of its own leaves the two alike. -/
theorem change_of (h : Shadow s m) (hchange : System.Change s event s')
    {m' : System (Writer.monitor String)} (hnow : m'.now = s'.now)
    (hview : m'.view = writerPart.view s'.view)
    (hended : ∀ t, m'.hasEnded t = true → s'.hasEnded t = true ∨ m.hasEnded t = true) :
    Shadow s' m' where
  now := hnow
  view := hview
  ended t ht := (hended t ht).elim id fun hold => hchange.hasEnded (h.ended t hold)
  tidy := by
    have hview : s'.view = s.view ∨ s.view.Step (fun _ => True) s'.view := hchange.view trivial
    rcases hview with hsame | hstep
    · rw [hsame]
      exact h.tidy
    · exact Part.tidy_of_step h.tidy hstep

/-- A thread that may make a call on the writer makes it there, and stands there as in the
batcher. -/
theorem exists_begin (fits : Buffer.Input → Prop) {m : System (Writer.monitor String)}
    {begun? : Option (Writer.Position String)} (hasks : Asks m.now begun?)
    (here : m.view.threads[thread]? = some .idle) (alive : m.hasEnded thread = false) :
    ∃ m', m.ReachableBy (Writer.Served fits) m' ∧ m'.now = m.now ∧
      m'.view = { m.view with threads := m.view.threads.set thread (.awake begun?) } ∧
      ∀ t, m'.hasEnded t = true → m.hasEnded t = true := by
  rcases hasks with rfl | ⟨request, hclient, rfl⟩
  · refine ⟨m, .start, rfl, ?_, fun _ => id⟩
    rw [Phase.awake_none, Part.set_same here]
  · obtain ⟨m', hnext, hnow, hview, hended⟩ := System.exists_call here alive
    have hserved : Writer.Served fits (.call thread request) := hclient thread
    exact ⟨m', .next .start hserved hnext, hnow, hview, hended⟩

section Step

variable {wakee : Nat} {input : Input} {phase : Phase monitor} {position : Position} {move : Step}
  {threads : List (Phase monitor)}

/-- What the writer sees of the batcher after a step. -/
theorem view_step (s : System monitor) (thread : Nat) (move : Step)
    (threads : List (Phase monitor)) :
    writerPart.view (System.mk s.now move.state (threads.set thread (.ofOutcome move.outcome))
        ((System.entries thread move).reverse ++ s.journal)).view =
      { state := move.state.writer
        threads := (threads.map inWriter).set thread (inWriter (.ofOutcome move.outcome))
        notes := ((move.notes.filterMap Note.ofWriter?).map (thread, ·)).reverse ++
          (writerPart.view s.view).notes } := by
  have hnotes := filterMap_note?_append (M := monitor) thread move s.journal
  simp only [Part.view, System.view, hnotes, map_phase_still, List.map_set]
  rw [writerPart.notes_record, phase_still]
  rfl

theorem wakes_writer (h : Shadow s m)
    (wakes : System.deliverAll wakee move.signals s.threads = some threads) :
    System.deliverAll wakee (move.signals.filterMap (·.through Condition.ofWriter?))
      m.view.threads = some (threads.map inWriter) := by
  have hstill := (keepsSleepers_still s.threads).deliverAll wakes
  rw [filterMap_through_some] at hstill
  have hwriter := (Part.keepsSleepers h.tidy).deliverAll hstill
  rw [map_phase_still] at hwriter
  rw [h.view]
  exact hwriter

/-- A step outside the writer is a call on it that begins, or nothing. -/
theorem step_outside (h : Shadow s m) (here : s.threads[thread]? = some phase)
    (awake : phase.position? = some position)
    (moves : monitor.step s.state s.now position input = some move)
    (wakes : System.deliverAll wakee move.signals s.threads = some threads)
    (houtside : position.inWriter? = none) :
    ∃ m', m.ReachableBy (Writer.Served fits) m' ∧
      Shadow (System.mk s.now move.state (threads.set thread (.ofOutcome move.outcome))
        ((System.entries thread move).reverse ++ s.journal)) m' := by
  obtain ⟨hstate, hsignals, hnotes, ⟨begun?, hasks, hnext⟩, _⟩ :=
    (effect_of_moves moves).aside houtside
  have hidle : m.view.threads[thread]? = some .idle := by
    rw [h.getElem? here]
    exact congrArg some (Phase.within_eq_idle awake houtside)
  have hwakes := h.wakes_writer wakes
  rw [hsignals] at hwakes
  have hthreads : m.view.threads = threads.map inWriter := Option.some.inj hwakes
  obtain ⟨m', hreached, hnow, hview, hended⟩ := exists_begin fits (h.now ▸ hasks) hidle
    (h.alive here (Phase.place?_of_position? awake))
  refine ⟨m', hreached, h.change_of (.step here awake moves wakes) (hnow.trans h.now) ?_
    fun t ht => .inr (hended t ht)⟩
  rw [hview, view_step, hstate, hnotes, hnext, hthreads, h.view]
  rfl

/-- A step in a call on the writer is a step of the writer, and the next call that begins, if its
call returns. -/
theorem step_inside (h : Shadow s m) (hfits : fits input.buffer)
    (here : s.threads[thread]? = some phase) (awake : phase.position? = some position)
    (moves : monitor.step s.state s.now position input = some move)
    (wakes : System.deliverAll wakee move.signals s.threads = some threads)
    {task : Task} {p : Writer.Position String} (hplace : position = .writer task p) :
    ∃ m', m.ReachableBy (Writer.Served fits) m' ∧
      Shadow (System.mk s.now move.state (threads.set thread (.ofOutcome move.outcome))
        ((System.entries thread move).reverse ++ s.journal)) m' := by
  subst hplace
  have hchange := System.Change.step here awake moves wakes
  obtain ⟨writerMove, hmoves, rfl⟩ := Option.map_eq_some_iff.1 moves
  have hawake : (inWriter phase).position? = some p := Phase.position?_within awake rfl
  have hwakes := h.wakes_writer wakes
  have hsignals := filterMap_through_map Condition.writer Condition.ofWriter? (fun _ => rfl)
    writerMove.signals
  simp only [Move.embed, hsignals] at hwakes
  rw [← h.state, ← h.now] at hmoves
  obtain ⟨m₁, hnext, hnow, hview, hended⟩ :=
    System.exists_step (h.getElem? here) hawake hmoves hwakes
  have hserved : Writer.Served (α := String) fits (.step thread input.buffer wakee) := hfits
  have hlt := System.lt_of_deliverAll here wakes
  have hreached : m.ReachableBy (Writer.Served fits) m₁ := .next .start hserved hnext
  have hnotes : (ofWriter s.state s.now task writerMove).notes.filterMap Note.ofWriter? =
      writerMove.notes := filterMap_ofWriter?_writer _
  rcases inWriter_ofWriter s.state s.now task writerMove with hstays | ⟨reply, hreply, hover⟩
  · refine ⟨m₁, hreached, h.change_of hchange (hnow.trans h.now) ?_ ?_⟩
    · rw [hview, view_step, hnotes, hstays, h.view]
      rfl
    · intro t ht
      refine (hended t ht).imp_left ?_
      rintro ⟨rfl, hexit⟩
      simp only [System.hasEnded, List.getElem?_set_self hlt, Move.embed, hexit]
      rfl
  · obtain ⟨begun?, hasks, hbegun⟩ := inWriter_afterWriter s.now task reply
    have hidle : m₁.view.threads[thread]? = some .idle := by
      rw [hview, hreply]
      exact List.getElem?_set_self (by simpa using hlt)
    have halive : m₁.hasEnded thread = false := by
      by_contra hends
      rcases hended thread (Bool.of_not_eq_false hends) with ⟨_, hexit⟩ | hold
      · rw [hreply] at hexit
        contradiction
      · rw [h.alive here (Phase.place?_of_position? awake)] at hold
        contradiction
    have hasks' : Asks m₁.now begun? := by
      rw [hnow, h.now]
      exact hasks
    obtain ⟨m₂, hbegins, hnow', hview', hended'⟩ := exists_begin fits hasks' hidle halive
    refine ⟨m₂, hreached.trans hbegins, h.change_of hchange (hnow'.trans (hnow.trans h.now)) ?_ ?_⟩
    · rw [hview', hview, view_step, hnotes, hover, hbegun, h.view, List.set_set]
      rfl
    · intro t ht
      refine .inr ((hended t (hended' t ht)).resolve_left ?_)
      rintro ⟨_, hexit⟩
      rw [hreply] at hexit
      contradiction

end Step

/-- Whatever happens to the batcher, the writer alone keeps up with it. -/
theorem change (h : Shadow s m) (hsupplied : Supplied fits event)
    (hchange : System.Change s event s') :
    ∃ m', m.ReachableBy (Writer.Served fits) m' ∧ Shadow s' m' := by
  have hchange' := hchange
  cases hchange with
  | @elapse duration now later =>
    rw [← h.now] at later
    have hnext : m.next (.elapse duration) = some { m with now } :=
      System.next_eq_some_iff.2 (.elapse later)
    have hserved : Writer.Served (α := String) fits (.elapse duration) := trivial
    exact ⟨_, .next .start hserved hnext, h.change_of hchange' rfl h.view fun t ht => .inr ht⟩
  | arrive =>
    obtain ⟨m', hnext, hnow, hview, hended⟩ := System.exists_arrive m
    have hserved : Writer.Served (α := String) fits .arrive := trivial
    refine ⟨m', .next .start hserved hnext, h.change_of hchange' (hnow.trans h.now) ?_
      fun t ht => .inr (hended t ht)⟩
    rw [hview, h.view]
    simp [Part.view, System.view, Phase.still, Part.phase, Phase.within]
  | @call thread request phase here free =>
    have hidle : m.view.threads[thread]? = some .idle := by
      rw [h.getElem? here]
      cases phase <;> first | rfl | contradiction
    refine ⟨m, .start, h.change_of hchange' h.now ?_ fun t ht => .inr ht⟩
    rw [h.view_set (by rw [List.filterMap_cons, Entry.note?_called])]
    exact (congrArg (View.mk _ · _) (Part.set_same hidle)).symm
  | @rouse thread condition wakeAt position here =>
    have hasleep := h.getElem? here
    have hsame : inWriter (.asleep condition wakeAt position) =
          inWriter (.woken condition position) ∨
        ∃ c p, inWriter (.asleep condition wakeAt position) = .asleep c wakeAt p ∧
          inWriter (.woken condition position) = .woken c p := by
      cases position <;> cases condition <;> first | exact .inl rfl | exact .inr ⟨_, _, rfl, rfl⟩
    rcases hsame with hsame | ⟨c, p, hbefore, hafter⟩
    · refine ⟨m, .start, h.change_of hchange' h.now ?_ fun t ht => .inr ht⟩
      rw [h.view_set rfl, ← hsame]
      exact (congrArg (View.mk _ · _) (Part.set_same hasleep)).symm
    · rw [hbefore] at hasleep
      obtain ⟨m', hnext, hnow, hview, hended⟩ := System.exists_rouse hasleep
      have hserved : Writer.Served (α := String) fits (.rouse thread) := trivial
      refine ⟨m', .next .start hserved hnext, h.change_of hchange' (hnow.trans h.now) ?_
        fun t ht => .inr (hended t ht)⟩
      rw [h.view_set rfl, hafter, hview]
  | @step thread wakee input phase position move threads here awake moves wakes =>
    cases hplace : position.inWriter? with
    | none => exact h.step_outside here awake moves wakes hplace
    | some p =>
      cases position with
      | writer task p' => exact h.step_inside hsupplied here awake moves wakes rfl
      | _ => contradiction

/-- At the beginning the batcher and the writer alone are alike. -/
theorem start (job : Job) (now : Instant) :
    Shadow (system job now) (Writer.system job.writer now) where
  now := rfl
  view := rfl
  ended thread hended := by
    match thread, hended with
    | 0, hended => contradiction
    | 1, hended => contradiction
  tidy phase hmem := by
    have hbackground : phase ∈ [Phase.ready (M := monitor) (.writer .own (.buffer .own .launch)),
        .ready (.writer .own (.channel .pump (.poll none)))] := hmem
    simp only [List.mem_cons, List.not_mem_nil, or_false] at hbackground
    rcases hbackground with rfl | rfl <;> trivial

end Shadow

/-- To every run of the batcher there is one of its writer alone. -/
theorem exists_shadow {job : Job} {now : Instant} {fits : Buffer.Input → Prop}
    {s : System monitor} (h : (system job now).ReachableBy (Supplied fits) s) :
    ∃ m, (Writer.system job.writer now).ReachableBy (Writer.Served fits) m ∧ Shadow s m := by
  induction h with
  | start => exact ⟨_, .start, .start job now⟩
  | next _ hsupplied hnext ih =>
    obtain ⟨m, hreached, hshadow⟩ := ih
    obtain ⟨m', hlater, hshadow'⟩ := hshadow.change hsupplied (System.next_eq_some_iff.1 hnext)
    exact ⟨m', hreached.trans hlater, hshadow'⟩

end Backpressure.LineBatch
