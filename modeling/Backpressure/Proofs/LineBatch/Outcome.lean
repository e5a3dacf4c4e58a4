import Backpressure.Proofs.LineBatch.Reading

/-!
# What a run of the batcher comes to

Beside the main thread only the pump and the periodic trigger are at work, and neither of them
touches what the main thread has done and found. So, however the threads take turns, the main
thread comes to the status of its input, and leaves the writer quiet.
-/

namespace Backpressure.LineBatch

variable {job : Job} {input : Reading} {now : Instant} {s s' : System monitor}
  {m m' : System (Writer.monitor String)} {l l' : Layout monitor} {position : Position}
  {move : Step} {thread : Nat} {fits : Buffer.Input → Prop}

/-! ### The other threads -/

/-- Does a thread at this place belong to the writer? -/
def Position.IsBackground (position : Position) : Prop :=
  ∃ p, position = .writer .own p ∧ (p.role = .pump ∨ p.role = .ticker)

/-- Every thread but the main thread belongs to the writer. -/
def Company (l : Layout monitor) : Prop :=
  ∀ thread position, thread ≠ mainThread → l.place thread = some position →
    position.IsBackground

/-- A thread of the writer stays one, or ends. -/
theorem isBackground_of_effect (h : Effect l.state now position move)
    (hposts : Writer.Posts (· = .inspect) (writerPart.layout l))
    (here : l.place thread = some position) (hbackground : position.IsBackground) {place : Position}
    (hplace : (Phase.ofOutcome (M := monitor) move.outcome).place? = some place) :
    place.IsBackground := by
  obtain ⟨p, rfl, hrole⟩ := hbackground
  cases h with
  | @writer _ _ writerInput writerMove moves =>
    have hhere : (writerPart.layout l).place thread = some p := by
      simp [Part.layout, here, writerPart, Position.inWriter?]
    rcases cases_of_embed (W := monitor) (M := Writer.monitor String) hplace with
      ⟨p', rfl, hstays⟩ | ⟨reply, _, hover⟩
    · have hroles := (Writer.role_of_effect (Writer.effect_of_moves moves) (hposts.suits hhere)
        hstays).2
      rcases hroles with hsame | ⟨rfl, _⟩
      · exact ⟨p', rfl, hsame ▸ hrole⟩
      · rcases hrole with hrole | hrole <;> contradiction
    · contradiction

theorem Company.after (h : Company l) (heffect : Effect l.state now position move)
    (hposts : Writer.Posts (· = .inspect) (writerPart.layout l))
    (here : l.place thread = some position) : Company (l.after thread move) := by
  intro t place ht hplace
  rcases cases_of_update hplace with ⟨rfl, hnew⟩ | ⟨_, hold⟩
  · exact isBackground_of_effect heffect hposts here (h _ _ ht here) hnew
  · exact h _ _ ht hold

/-- A thread of the writer changes nothing of what the main thread has done and found. -/
theorem unchanged_of_background (h : Effect l.state now position move)
    (hposts : Writer.Posts (· = .inspect) (writerPart.layout l))
    (here : l.place thread = some position) (hbackground : position.IsBackground)
    (hquiet : Writer.Quiet (writerPart.layout l) →
      Writer.Quiet (writerPart.layout (l.after thread move))) :
    Unchanged l (l.after thread move) := by
  obtain ⟨p, rfl, hrole⟩ := hbackground
  cases h with
  | @writer _ _ writerInput writerMove moves =>
    have hhere : (writerPart.layout l).place thread = some p := by
      simp [Part.layout, here, writerPart, Position.inWriter?]
    have heffect := Writer.effect_of_moves moves
    have hsuits := hposts.suits hhere
    obtain ⟨hoffers, hother⟩ := Writer.offered?_of_background hsuits hrole
    refine ⟨?_, ?_, ?_, hquiet⟩
    · rw [written_after]
      simp only [Move.embed, filterMap_ofWriter?_writer]
      rw [Writer.accepts_nothing heffect hsuits hoffers, List.append_nil]
    · exact congrArg Sideband.unread (Writer.errors_of_effect heffect hsuits hother)
    · exact Writer.closed_of_background heffect hsuits hrole

/-! ### The main thread -/

/-- The status with which a thread has returned. -/
def status? : Phase monitor → Option Nat
  | .returned status => some status
  | _ => none

@[simp]
theorem status?_wake (phase : Phase monitor) : status? phase.wake = status? phase := by
  cases phase <;> rfl

/-- How the main thread stands. -/
inductive Main (input : Reading) (s : System monitor) : Prop
  /-- It is somewhere in its call. -/
  | works {place} (here : s.layout.place mainThread = some place)
      (stage : Stage input s.layout place)
  /-- It has returned. -/
  | returned (here : s.threads[mainThread]?.bind status? = some input.status)
      (finished : Finished input s.layout)

theorem bind_status?_deliverAll {wakee : Nat} {signals : List (Signal Condition)}
    {threads threads' : List (Phase monitor)} (t : Nat)
    (h : System.deliverAll (M := monitor) wakee signals threads = some threads') :
    threads'[t]?.bind status? = threads[t]?.bind status? := by
  have hmap : ∀ list : List (Phase monitor),
      list[t]?.bind status? = (list.map status?)[t]?.join := by
    intro list
    rw [List.getElem?_map]
    cases list[t]? <;> rfl
  rw [hmap, hmap, System.map_deliverAll status?_wake h]

/-- What happens apart from a step leaves the main thread as it stands. -/
theorem Main.aside (h : Main input s) (hlayout : s'.layout = s.layout)
    (hstatus : s'.threads[mainThread]?.bind status? = s.threads[mainThread]?.bind status?) :
    Main input s' := by
  cases h with
  | works here stage => exact .works (hlayout ▸ here) (hlayout ▸ stage)
  | returned here finished => exact .returned (hstatus.trans here) (hlayout ▸ finished)

/-- A step of any thread takes the main thread on, or leaves it as it stands. -/
theorem Main.step {wakee : Nat} {stepInput : Input} {phase : Phase monitor}
    {threads : List (Phase monitor)} (h : Main input s) (hcompany : Company s.layout)
    (hknown : Writer.Known (writerPart.layout s.layout))
    (hfine : s.state.writer.buffer.tally.failedBatches = 0)
    (here : s.threads[thread]? = some phase) (awake : phase.position? = some position)
    (moves : monitor.step s.state s.now position stepInput = some move)
    (wakes : System.deliverAll wakee move.signals s.threads = some threads)
    (hquiet : Writer.Quiet (writerPart.layout s.layout) →
      Writer.Quiet (writerPart.layout (s.layout.after thread move))) :
    Main input (System.mk s.now move.state (threads.set thread (.ofOutcome move.outcome))
      ((System.entries thread move).reverse ++ s.journal)) := by
  have heffect := effect_of_moves moves
  have hlayout := System.layout_step here wakes
  have hplace : s.layout.place thread = some position := by
    rw [System.place_layout]
    exact placeIn_of_awake here awake
  by_cases hmain : thread = mainThread
  · subst hmain
    cases h with
    | returned hreturned =>
      rw [here, Option.bind_some] at hreturned
      cases phase <;> contradiction
    | works there stage =>
      cases there.symm.trans hplace
      obtain ⟨hgoes, hends, hstays⟩ := stage.leads hknown hfine hplace heffect hquiet
      have hafter : (s.layout.after mainThread move).place mainThread =
          (Phase.ofOutcome (M := monitor) move.outcome).place? :=
        Function.update_self mainThread _ s.layout.place
      cases houtcome : move.outcome with
      | proceed place | sleep condition wakeAt place =>
        rw [houtcome] at hgoes hafter hlayout
        exact .works (hlayout ▸ hafter) (hlayout ▸ hgoes rfl)
      | reply status =>
        obtain ⟨rfl, hfinished⟩ := hends houtcome
        refine .returned ?_ ?_
        · rw [List.getElem?_set_self (System.lt_of_deliverAll here wakes), Option.bind_some]
          rfl
        · rw [houtcome] at hlayout
          exact hlayout ▸ hfinished
      | exit => exact absurd houtcome hstays
  · have hunchanged := unchanged_of_background heffect hknown.posts hplace
      (hcompany _ _ hmain hplace) hquiet
    cases h with
    | works there stage =>
      have hthere : (s.layout.after thread move).place mainThread = some _ :=
        (Function.update_of_ne (Ne.symm hmain) _ _).trans there
      exact .works (hlayout ▸ hthere) (hlayout ▸ stage.unchanged hunchanged)
    | returned hreturned finished =>
      refine .returned ?_ (hlayout ▸ finished.unchanged hunchanged)
      rw [← hreturned, ← bind_status?_deliverAll mainThread wakes]
      simp only [List.getElem?_set_ne hmain]

/-- Apart from a step or a call, no thread moves, and none returns. -/
theorem layout_of_aside {event : Event monitor} (hchange : System.Change s event s')
    (hstep : ∀ thread input wakee, event ≠ .step thread input wakee)
    (hcall : ∀ thread request, event ≠ .call thread request) :
    s'.layout = s.layout ∧
      ∀ t : Nat, s'.threads[t]?.bind status? = s.threads[t]?.bind status? := by
  refine ⟨?_, ?_⟩
  · rcases hchange.cases_layout with ⟨_, hsame⟩ | ⟨thread, request, hevent, _⟩ |
      ⟨thread, input, wakee, _, _, hevent, _⟩
    · exact hsame
    · exact absurd hevent (hcall thread request)
    · exact absurd hevent (hstep thread input wakee)
  · intro t
    cases hchange with
    | elapse => rfl
    | arrive =>
      by_cases ht : t < s.threads.length
      · rw [List.getElem?_append_left ht]
      · rw [List.getElem?_append_right (Nat.le_of_not_lt ht),
          List.getElem?_eq_none (Nat.le_of_not_lt ht)]
        cases t - s.threads.length <;> rfl
    | @rouse thread condition wakeAt place here =>
      by_cases ht : t = thread
      · subst ht
        rw [List.getElem?_set_self (List.getElem?_eq_some_iff.1 here).1, here]
        rfl
      · rw [List.getElem?_set_ne (Ne.symm ht)]
    | @call thread request => exact absurd rfl (hcall thread request)
    | @step thread wakee input => exact absurd rfl (hstep thread input wakee)

/-! ### Whole runs -/

/-- A job at its beginning. -/
structure Begun (job : Job) : Prop where
  fresh : Writer.Fresh job.writer
  unlocked : job.writer.locked = false
  isOpen : job.writer.channel.closed = false
  clean : job.writer.channel.errors.unread = []
  tally : job.writer.buffer.tally = {}

/-- The batcher under way, next to its writer alone. -/
structure Tracked (job : Job) (now : Instant) (input : Reading) (fits : Buffer.Input → Prop)
    (s : System monitor) (m : System (Writer.monitor String)) : Prop where
  reached : (Writer.system job.writer now).ReachableBy (Writer.Served fits) m
  shadow : Shadow s m
  company : Company s.layout
  main : Main input s

namespace Tracked

/-- What is known of the writer inside. -/
theorem known (h : Tracked job now input fits s m) (hbegun : Begun job) :
    Writer.Known (writerPart.layout s.layout) := by
  rw [← h.shadow.layout]
  have hclient := h.reached.mono fun _ => Writer.client_of_served
  exact Writer.Known.of_reachable hbegun.fresh hclient.layout

/-- Where the sink accepts everything, no delivery has failed. -/
theorem fine (h : Tracked job now input fits s m) (hbegun : Begun job)
    (hfits : ∀ input, fits input → input.Accepts) :
    s.state.writer.buffer.tally.failedBatches = 0 := by
  rw [← h.shadow.state]
  exact Writer.failedBatches_eq_zero hfits h.reached hbegun.fresh.pending hbegun.fresh.flushing
    hbegun.tally

/-- Whatever happens, the main thread goes on or stands as it does. -/
theorem change {event : Event monitor} (h : Tracked job now input fits s m) (hbegun : Begun job)
    (hfits : ∀ input, fits input → input.Accepts) (hworking : Working fits event)
    (hchange : System.Change s event s') : ∃ m', Tracked job now input fits s' m' := by
  have hsupplied : Supplied fits event := by
    cases event with
    | call => exact hworking.elim
    | step => exact hworking
    | elapse | arrive | rouse => trivial
  obtain ⟨m', hlater, hshadow⟩ := h.shadow.change hsupplied hchange
  have hknown := h.known hbegun
  have hquiet : Writer.Quiet (writerPart.layout s.layout) →
      Writer.Quiet (writerPart.layout s'.layout) := by
    intro hquiet
    rw [← h.shadow.layout] at hquiet
    rw [← hshadow.layout]
    have hbefore := h.reached.mono fun _ => Writer.client_of_served
    have hafter := hlater.mono fun _ => Writer.client_of_served
    exact (hquiet.closes_empty hbegun.fresh hbefore hafter).1
  have haside : (∀ thread input wakee, event ≠ .step thread input wakee) →
      (∀ thread request, event ≠ .call thread request) →
        Tracked job now input fits s' m' := by
    intro hstep hcall
    obtain ⟨hlayout, hstatus⟩ := layout_of_aside hchange hstep hcall
    exact ⟨h.reached.trans hlater, hshadow, hlayout ▸ h.company, h.main.aside hlayout (hstatus _)⟩
  refine ⟨m', ?_⟩
  cases hchange with
  | elapse | arrive | rouse => exact haside nofun nofun
  | call => exact hworking.elim
  | @step thread wakee stepInput phase position move threads here awake moves wakes =>
    have hlayout := System.layout_step here wakes
    have hplace : s.layout.place thread = some position := by
      rw [System.place_layout]
      exact placeIn_of_awake here awake
    rw [hlayout] at hquiet
    exact
      { reached := h.reached.trans hlater
        shadow := hshadow
        company := hlayout ▸ h.company.after (effect_of_moves moves) hknown.posts hplace
        main := h.main.step h.company hknown (h.fine hbegun hfits) here awake moves wakes hquiet }

/-- So it is all along a run. -/
theorem of_reachable (hbegun : Begun job) (hfits : ∀ input, fits input → input.Accepts)
    (h : (underway job now input).ReachableBy (Working fits) s) :
    ∃ m, Tracked job now input fits s m := by
  induction h with
  | start =>
    have hcalled : (system job now).run [.arrive, .call mainThread input] =
        some (underway job now input) := rfl
    have hreached : (system job now).ReachableBy (Supplied fits) (underway job now input) :=
      .run .start (by simp [Supplied]) hcalled
    obtain ⟨m, hm, hshadow⟩ := exists_shadow hreached
    refine ⟨m, hm, hshadow, ?_, .works rfl (.reading rfl rfl rfl hbegun.isOpen hbegun.clean)⟩
    intro thread position hmain hplace
    rw [System.place_layout] at hplace
    match thread, hplace with
    | 0, hplace =>
      cases hplace
      exact ⟨_, rfl, .inr rfl⟩
    | 1, hplace =>
      cases hplace
      exact ⟨_, rfl, .inl rfl⟩
    | 2, hplace => exact absurd rfl hmain
  | next _ hworking hnext ih =>
    obtain ⟨m, htracked⟩ := ih
    exact htracked.change hbegun hfits hworking (System.next_eq_some_iff.1 hnext)

end Tracked

end Backpressure.LineBatch
