import Backpressure.Proofs.LineBatch.Outcome

/-!
# The batcher never gets stuck

As long as the main thread has not returned, it waits for the rate limiter, or some thread can go
on: the main thread itself outside the writer, or else a thread in the writer, which never gets
stuck.
-/

namespace Backpressure

/-- What holds of every thread that falls asleep holds of all that sleep. What the steps keep of the
state may be used for it. -/
theorem View.Reachable.asleep {M : Monitor} {allowed : Event M → Prop} {start v : View M}
    {K : M.State → Prop} {P : M.Condition → M.Position → Prop}
    (h : start.Reachable allowed v) (hkeeps : K start.state)
    (hstart : ∀ {condition wakeAt position},
      .asleep condition wakeAt position ∈ start.threads → P condition position)
    (hmoves : ∀ {state now position input move}, K state →
      M.step state now position input = some move → K move.state ∧
        ∀ condition wakeAt place, move.outcome = .sleep condition wakeAt place →
          P condition place) :
    K v.state ∧ ∀ {condition wakeAt position},
      .asleep condition wakeAt position ∈ v.threads → P condition position := by
  induction h with
  | start => exact ⟨hkeeps, hstart⟩
  | step _ hstep ih =>
    cases hstep with
    | arrive =>
      refine ⟨ih.1, fun hmem => ?_⟩
      rcases List.mem_append.1 hmem with hold | hnew
      · exact ih.2 hold
      · cases List.mem_singleton.1 hnew
    | call | rouse =>
      refine ⟨ih.1, fun hmem => ?_⟩
      rcases List.mem_or_eq_of_mem_set hmem with hold | hnew
      · exact ih.2 hold
      · cases hnew
    | @move thread wakee input before place now move threads asked here awake moves wakes =>
      obtain ⟨hkept, hsleeps⟩ := hmoves ih.1 moves
      refine ⟨hkept, fun {condition wakeAt position} hmem => ?_⟩
      rcases List.mem_or_eq_of_mem_set hmem with hold | hnew
      · refine System.forall_mem_deliverAll (P := fun phase => ∀ c w p,
          phase = .asleep c w p → P c p) ?_ ?_ wakes _ hold _ _ _ rfl
        · intro phase _ c w p hphase
          cases phase <;> contradiction
        · rintro _ hmem c w p rfl
          exact ih.2 hmem
      · cases houtcome : move.outcome with
        | sleep =>
          rw [houtcome] at hnew
          cases hnew
          exact hsleeps _ _ _ houtcome
        | _ =>
          rw [houtcome] at hnew
          contradiction

namespace LineBatch

variable {job : Job} {input : Reading} {now : Instant} {s : System monitor}
  {m : System (Writer.monitor String)} {fits : Buffer.Input → Prop} {position : Position}
  {move : Step} {thread : Nat}

/-- Can a thread take a step with nothing to wait for? It may be handed the end of its call of the
sink, whatever that comes to, and any reading of the clock, and the periodic trigger may notice that
it should stop. No tick, no deadline and no unfounded wake-up is counted on. -/
def GoesOn (s : System monitor) (thread : Nat) : Prop :=
  ∀ (reading : Instant) (outcome : SinkOutcome),
    ∃ buffer ∈ [Buffer.Input.nothing, .outcome outcome, .stop],
      ∃ wakee, (s.next (.step thread { reading, buffer } wakee)).isSome = true

/-- A step wakes one thread, or all that sleep on some conditions. -/
theorem signals_of_effect (h : Effect job now position move) :
    (∃ condition, move.signals = [.one condition]) ∨
      ∀ signal ∈ move.signals, ∃ condition, signal = .all condition := by
  cases h with
  | @writer task p writerInput writerMove moves =>
    simp only [Move.embed]
    rcases Writer.signals_of_effect (Writer.effect_of_moves moves) with ⟨c, hone⟩ | hall
    · exact .inl ⟨.writer c, by simp [hone, Signal.map]⟩
    · right
      intro signal hmem
      obtain ⟨before, hbefore, rfl⟩ := List.mem_map.1 hmem
      obtain ⟨c, rfl⟩ := hall before hbefore
      exact ⟨.writer c, rfl⟩
  | @permit line rest p reading limiter limits =>
    right
    have hwindow : ∀ signal ∈ (Bucket.step limiter now p reading).signals,
        signal = .all .refilled := by
      have heffect := Bucket.effect limiter now p reading
      generalize Bucket.step limiter now p reading = limiterMove at heffect
      cases heffect with
      | inspect => rintro _ ⟨⟩
      | grant | refuse | giveUp | wait | count =>
        intro signal hmem
        unfold Bucket.windowSignals at hmem
        split at hmem
        · exact List.mem_singleton.1 hmem
        · contradiction
    intro signal hmem
    obtain ⟨before, hbefore, rfl⟩ := List.mem_map.1 hmem
    exact ⟨.limiter .refilled, by rw [hwindow before hbefore]; rfl⟩
  | _ => exact .inr (by rintro _ ⟨⟩)

/-- A step that some input allows is one that a thread can take. -/
theorem exists_next {input : Input} {phase : Phase monitor} (here : s.threads[thread]? = some phase)
    (awake : phase.position? = some position)
    (moves : monitor.step s.state s.now position input = some move) :
    ∃ wakee, (s.next (.step thread input wakee)).isSome = true := by
  have hsignals := signals_of_effect (effect_of_moves moves)
  obtain ⟨wakee, hwakee⟩ := exists_deliverAll_of hsignals s.threads
  obtain ⟨threads, wakes⟩ := Option.isSome_iff_exists.1 hwakee
  have hnext := System.next_eq_some_iff.2 (.step here awake moves wakes)
  exact ⟨wakee, Option.isSome_iff_exists.2 ⟨_, hnext⟩⟩

/-- The main thread goes on wherever it is awake outside the writer. -/
theorem goesOn_of_outside {phase : Phase monitor} (here : s.threads[thread]? = some phase)
    (awake : phase.position? = some position) (houtside : position.inWriter? = none) :
    GoesOn s thread := by
  intro reading outcome
  have hmoves : ∃ move,
      monitor.step s.state s.now position { reading, buffer := .nothing } = some move := by
    cases position with
    | writer => contradiction
    | _ => exact ⟨_, rfl⟩
  obtain ⟨move, hmove⟩ := hmoves
  exact ⟨.nothing, by simp, exists_next here awake hmove⟩

/-- Who waits for the rate limiter has read a line, and there is a limiter. -/
def Outside (job : Job) : Condition → Position → Prop
  | .limiter _, position =>
    (∃ line rest p, position = .permit line rest p) ∧ job.limiter.isSome = true
  | .writer _, _ => True

/-- A thread that is awake in the writer alone is awake in the batcher. -/
theorem awake_of_inWriter {phase : Phase monitor} {p : Writer.Position String}
    (hasleep : ∀ condition wakeAt position, phase = .asleep condition wakeAt position →
      Outside job condition position)
    (h : (inWriter phase).position? = some p) :
    ∃ task, phase.position? = some (.writer task p) := by
  cases phase with
  | ready position =>
    cases position with
    | writer task p' =>
      cases h
      exact ⟨task, rfl⟩
    | _ => contradiction
  | woken condition position =>
    cases position with
    | writer task p' => cases condition <;> cases h <;> exact ⟨task, rfl⟩
    | _ => contradiction
  | asleep condition wakeAt position =>
    cases condition with
    | limiter condition =>
      obtain ⟨⟨line, rest, p', rfl⟩, _⟩ := hasleep _ _ _ rfl
      contradiction
    | writer condition => cases position <;> contradiction
  | _ => contradiction

/-- A thread that goes on in the writer alone goes on in the batcher. -/
theorem goesOn_of_shadow (h : Shadow s m)
    (hasleep : ∀ condition wakeAt position,
      s.threads[thread]? = some (.asleep condition wakeAt position) →
        Outside job condition position)
    (hgoes : Writer.GoesOn m thread) : GoesOn s thread := by
  intro reading outcome
  obtain ⟨buffer, hbuffer, wakee, hnext⟩ := hgoes outcome
  obtain ⟨m', hm'⟩ := Option.isSome_iff_exists.1 hnext
  cases System.next_eq_some_iff.1 hm' with
  | @step _ _ _ writerPhase p writerMove threads here awake moves wakes =>
    have hview : m.view.threads[thread]? = some writerPhase.still := by
      simp [System.view, here]
    rw [h.view] at hview
    simp only [Part.view, System.view, List.map_map, List.getElem?_map, Option.map_eq_some_iff,
      Function.comp_apply] at hview
    obtain ⟨phase, hhere, hphase⟩ := hview
    have hawake : (inWriter phase).position? = some p := by
      rw [← Shadow.phase_still, hphase, Phase.position?_still, awake]
    obtain ⟨task, hposition⟩ := awake_of_inWriter (fun c w position hasleep' =>
      hasleep c w position (hasleep' ▸ hhere)) hawake
    rw [h.state, h.now] at moves
    have hmoves : monitor.step s.state s.now (.writer task p) { reading, buffer } =
        some (ofWriter s.state s.now task writerMove) := Option.map_eq_some_iff.2 ⟨_, moves, rfl⟩
    exact ⟨buffer, hbuffer, exists_next hhere hposition hmoves⟩

/-- The threads that are there at the beginning are awake. -/
theorem not_asleep_underway {condition : Condition} {wakeAt : Deadline} :
    .asleep condition wakeAt position ∉ (underway job now input).view.threads := by
  intro hmem
  have hall : (underway job now input).view.threads =
      [.ready (.writer .own (.buffer .own .launch)),
        .ready (.writer .own (.channel .pump (.poll none))), .ready (.read input)] := rfl
  rw [hall] at hmem
  simp at hmem

/-- Whoever waits for the rate limiter has read a line, and there is a limiter, in every run. -/
theorem outside_of_asleep {allowed : Event monitor → Prop}
    (h : (underway job now input).ReachableBy allowed s) {condition : Condition} {wakeAt : Deadline}
    (here : s.threads[thread]? = some (.asleep condition wakeAt position)) :
    Outside job condition position := by
  have hmem : Phase.asleep (M := monitor) condition wakeAt position ∈ s.view.threads :=
    System.still_mem_view here
  refine (h.view.asleep (K := fun state : Job => state.limiter.isSome = job.limiter.isSome)
    (P := Outside job) rfl (fun hstart => absurd hstart not_asleep_underway) ?_).2 hmem
  intro state now position input move hlimiter moves
  have heffect := effect_of_moves moves
  refine ⟨(limiter_of_effect heffect).trans hlimiter, fun condition wakeAt place hsleep => ?_⟩
  rcases cases_of_sleep heffect hsleep with ⟨_, _, _, rfl, rfl⟩ | ⟨_, _, _, _, rfl, rfl, hlimits⟩
  · trivial
  · exact ⟨⟨_, _, _, rfl⟩, hlimiter ▸ hlimits⟩

/-- In the writer the main thread is in a call. -/
theorem Stage.isForCall {l : Layout monitor} {p : Writer.Position String}
    (h : Stage input l position) (hplace : position.inWriter? = some p)
    (hsuits : p.Suits (· = .inspect)) : p.isForCall = true := by
  cases h with
  | reading holds =>
    cases position with
    | writer task place =>
      cases hplace
      obtain ⟨line, rest, rfl, rfl, rfl⟩ := push_of_unread? holds
      rfl
    | _ => contradiction
  | reporting =>
    cases hplace
    rfl
  | closing closing =>
    cases hplace
    exact Writer.isForCall_of_isClosing hsuits closing
  | closed _ _ rest => cases rest <;> cases hplace <;> rfl

/-- The main thread waits for the rate limiter. -/
def Waits (s : System monitor) : Prop :=
  ∃ condition wakeAt position,
    s.threads[mainThread]? = some (.asleep (.limiter condition) wakeAt position)

/-- Outside the writer the main thread goes on, or waits for the rate limiter, if there is one. -/
theorem goesOn_or_waits_of_outside {allowed : Event monitor → Prop}
    (h : (underway job now input).ReachableBy allowed s) (hshadow : Shadow s m)
    (here : s.layout.place mainThread = some position) (houtside : position.inWriter? = none) :
    GoesOn s mainThread ∨ job.limiter.isSome = true ∧ Waits s := by
  rw [System.place_layout] at here
  obtain ⟨phase, hphase, hposition⟩ := Option.bind_eq_some_iff.1 here
  cases phase with
  | ready | woken => exact .inl (goesOn_of_outside hphase hposition houtside)
  | asleep condition wakeAt place =>
    cases hposition
    cases condition with
    | limiter condition =>
      exact .inr ⟨(outside_of_asleep h hphase).2, condition, wakeAt, position, hphase⟩
    | writer condition =>
      have hinside : position.inWriter?.isSome = true :=
        hshadow.tidy _ (System.still_mem_view hphase) rfl
      rw [houtside] at hinside
      contradiction
  | _ => contradiction

/-- As long as the main thread has not returned, some thread can go on, or the main thread waits for
the rate limiter, if there is one. -/
theorem goesOn_or_waits (hbegun : Begun job) (hfits : ∀ input, fits input → input.Accepts)
    (h : (underway job now input).ReachableBy (Working fits) s)
    (hreturned : ∀ status, s.threads[mainThread]? ≠ some (.returned status)) :
    (∃ thread, GoesOn s thread) ∨ job.limiter.isSome = true ∧ Waits s := by
  obtain ⟨m, htracked⟩ := Tracked.of_reachable hbegun hfits h
  by_contra hneither
  obtain ⟨hnobody, hwaits⟩ := not_or.1 hneither
  have hstuck : ∀ t, ¬ Writer.GoesOn m t := fun t hgoes =>
    hnobody ⟨t, goesOn_of_shadow htracked.shadow (fun c w position here => outside_of_asleep h here)
      hgoes⟩
  have hclient := htracked.reached.mono fun _ => Writer.client_of_served
  have hoverseen := Writer.Overseen.of_reachable hbegun.fresh hbegun.unlocked
    (hclient.mono fun _ hallowed => hallowed.mono fun _ _ => trivial)
  have hsuits : ∀ {p}, m.layout.place mainThread = some p → p.Suits (· = .inspect) :=
    (Writer.Posts.of_reachable hclient.layout).suits
  cases htracked.main with
  | returned here =>
    obtain ⟨phase, hphase, hstatus⟩ := Option.bind_eq_some_iff.1 here
    cases phase with
    | returned status => exact hreturned status hphase
    | _ => contradiction
  | @works place here stage =>
    cases hplace : place.inWriter? with
    | some p =>
      have hthere : m.layout.place mainThread = some p := by
        rw [htracked.shadow.layout]
        simp [Part.layout, here, writerPart, hplace]
      obtain ⟨hpump, hticker⟩ :=
        Writer.role_of_isForCall (stage.isForCall hplace (hsuits hthere))
      rcases Writer.role_of_stuck hoverseen hstuck hthere with hrole | hrole
      · exact hpump hrole
      · exact hticker hrole
    | none =>
      rcases goesOn_or_waits_of_outside h htracked.shadow here hplace with hgoes | hlimited
      · exact hnobody ⟨mainThread, hgoes⟩
      · exact hwaits hlimited

end LineBatch

end Backpressure
