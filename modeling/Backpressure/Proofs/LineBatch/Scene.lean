import Backpressure.Proofs.LineBatch.Printing

/-!
# Runs in which nobody sleeps

A scene shows the batcher at a moment at which nobody sleeps. Then a signal reaches nobody, so that
a step of one thread concerns no other, and runs are put together from what single threads do.
-/

namespace Backpressure.LineBatch

/-- The batcher at a moment at which nobody sleeps. -/
structure Scene where
  /-- The present moment. -/
  now : Instant
  /-- What the threads share. -/
  job : Job
  /-- What each thread is doing. -/
  threads : List (Phase monitor)
  /-- The batches that have been printed, latest first. -/
  printed : List (List String)

/-- Is a thread awake, or outside every call? -/
def isUp : Phase monitor → Bool
  | .asleep _ _ _ => false
  | _ => true

namespace Scene

variable {fits : Buffer.Input → Prop} {a b c : Scene} {thread : Nat}

/-- The batcher looks like this. -/
structure Shows (scene : Scene) (s : System monitor) : Prop where
  now : s.now = scene.now
  state : s.state = scene.job
  threads : s.threads = scene.threads
  printed : batches s = scene.printed.reverse
  up : ∀ phase ∈ scene.threads, isUp phase = true

/-- Where the batcher looks like the one scene, it can come to look like the other. -/
def CanBecome (fits : Buffer.Input → Prop) (a b : Scene) : Prop :=
  ∀ s, a.Shows s → ∃ s', s.ReachableBy (Working fits) s' ∧ b.Shows s'

theorem CanBecome.refl : CanBecome fits a a := fun s h => ⟨s, .start, h⟩

theorem CanBecome.trans (first : CanBecome fits a b) (second : CanBecome fits b c) :
    CanBecome fits a c := by
  intro s h
  obtain ⟨between, hfirst, hbetween⟩ := first s h
  obtain ⟨s', hsecond, hs'⟩ := second between hbetween
  exact ⟨s', hfirst.trans hsecond, hs'⟩

/-- The scene after a step of a thread. -/
def after (scene : Scene) (thread : Nat) (move : Step) : Scene :=
  { scene with
    job := move.state
    threads := scene.threads.set thread (.ofOutcome move.outcome)
    printed := (move.notes.filterMap Note.accepted?).reverse ++ scene.printed }

/-- The scene after a step of a thread that gets nothing from the surroundings, where it can take
one and does not fall asleep. -/
def next? (scene : Scene) (thread : Nat) : Option Scene :=
  match scene.threads[thread]? with
  | some (.ready position) =>
    (step scene.job scene.now position ⟨scene.now, .nothing⟩).bind fun move =>
      if isUp (.ofOutcome move.outcome) then some (scene.after thread move) else none
  | _ => none

/-- The scene after such steps of some threads. -/
def run? (scene : Scene) : List Nat → Option Scene
  | [] => some scene
  | thread :: rest => (scene.next? thread).bind (·.run? rest)

/-- Signals reach nobody where nobody sleeps. -/
theorem deliverAll_of_up {wakee : Nat} {threads : List (Phase monitor)}
    (h : ∀ phase ∈ threads, isUp phase = true) (signals : List (Signal Condition)) :
    System.deliverAll (M := monitor) wakee signals threads = some threads := by
  have hnone : ∀ phase ∈ threads, ∀ condition, phase.sleepsOn condition = false := by
    intro phase hmem condition
    have hup := h phase hmem
    cases phase <;> first | rfl | contradiction
  induction signals with
  | nil => rfl
  | cons signal rest ih =>
    have hsignal : System.deliver (M := monitor) threads wakee signal = some threads := by
      cases signal with
      | one condition =>
        have hany : threads.any (·.sleepsOn condition) = false := by
          rw [List.any_eq_false]
          intro phase hmem
          simp [hnone phase hmem condition]
        simp [System.deliver, hany]
      | all condition =>
        simp only [System.deliver, Option.some.injEq]
        refine (List.map_congr_left fun phase hmem => ?_).trans (List.map_id _)
        simp [hnone phase hmem condition]
    rw [System.deliverAll, hsignal]
    exact ih

/-- A step adds to the batches that have been printed those that its notes tell of. -/
theorem batches_of_entries (s : System monitor) (move : Step) (threads : List (Phase monitor)) :
    batches (System.mk s.now move.state threads
      ((System.entries thread move).reverse ++ s.journal)) =
        batches s ++ move.notes.filterMap Note.accepted? := by
  have hview : (System.mk (M := monitor) s.now move.state threads
      ((System.entries thread move).reverse ++ s.journal)).view.notes =
        move.record thread ++ s.view.notes :=
    filterMap_note?_append (M := monitor) thread move s.journal
  rw [batches, batches, System.notes_eq, System.notes_eq, hview, List.map_append,
    List.reverse_append, List.filterMap_append]
  congr 2
  simp [Move.record, Function.comp_def]

/-- A step of a thread that does not fall asleep is a step of the batcher. -/
theorem CanBecome.of_step (thread : Nat) (input : Input) {position : Position} {move : Step}
    (here : a.threads[thread]? = some (.ready position)) (hfits : fits input.buffer)
    (moves : step a.job a.now position input = some move)
    (hup : isUp (.ofOutcome move.outcome) = true) : CanBecome fits a (a.after thread move) := by
  intro s hs
  have hthere : s.threads[thread]? = some (.ready position) := by rw [hs.threads, here]
  have hmoves : monitor.step s.state s.now position input = some move := by
    rw [hs.state, hs.now]
    exact moves
  have hwakes : System.deliverAll (M := monitor) 0 move.signals s.threads = some s.threads :=
    deliverAll_of_up (hs.threads ▸ hs.up) _
  have hchange := System.Change.step hthere rfl hmoves hwakes
  have hworking : Working fits (.step thread input 0) := hfits
  refine ⟨_, .next .start hworking (System.next_eq_some_iff.2 hchange), hs.now, rfl, ?_, ?_, ?_⟩
  · rw [hs.threads]
    rfl
  · rw [batches_of_entries, hs.printed, after, List.reverse_append, List.reverse_reverse]
  · intro phase hmem
    rcases List.mem_or_eq_of_mem_set hmem with hold | rfl
    · exact hs.up phase hold
    · exact hup

/-- Time passes. -/
theorem CanBecome.elapse {later : Instant} (h : a.now ≤ later) :
    CanBecome fits a { a with now := later } := by
  intro s hs
  have hlater : s.now.add? (later.since s.now) = some later := by
    rw [Instant.add?_eq_some_iff, hs.now]
    exact (Nat.add_sub_cancel' h).symm
  have hworking : Working fits (.elapse (later.since s.now)) := trivial
  exact ⟨_, .next .start hworking (System.next_eq_some_iff.2 (.elapse hlater)), rfl, hs.state,
    hs.threads, hs.printed, hs.up⟩

/-- A thread takes another step right after the last one. -/
theorem CanBecome.goOn {last move : Step} {position : Position}
    (so : CanBecome fits a (b.after thread last)) (input : Input) (hlt : thread < b.threads.length)
    (hgoes : last.outcome = .proceed position) (hfits : fits input.buffer)
    (moves : step last.state b.now position input = some move)
    (hup : isUp (.ofOutcome move.outcome) = true) :
    CanBecome fits a (b.after thread { move with notes := last.notes ++ move.notes }) := by
  have here : (b.after thread last).threads[thread]? = some (.ready position) := by
    rw [after, List.getElem?_set_self hlt, hgoes]
    rfl
  have htwo : (b.after thread last).after thread move =
      b.after thread { move with notes := last.notes ++ move.notes } := by
    simp [after, List.set_set]
  rw [← htwo]
  exact so.trans (.of_step thread input here hfits moves hup)

/-- A step for which the surroundings supply nothing is a step of the batcher. -/
theorem CanBecome.of_next (hnothing : fits .nothing) (h : a.next? thread = some b) :
    CanBecome fits a b := by
  unfold next? at h
  split at h
  · rename_i position here
    obtain ⟨move, hmove, hafter⟩ := Option.bind_eq_some_iff.1 h
    split at hafter
    · rename_i hup
      cases hafter
      exact .of_step thread _ here hnothing hmove hup
    · contradiction
  · contradiction

/-- Some threads take steps for which the surroundings supply nothing. -/
theorem CanBecome.of_run (threads : List Nat) (hnothing : fits .nothing)
    (h : a.run? threads = some b) : CanBecome fits a b := by
  induction threads generalizing a with
  | nil =>
    cases h
    exact .refl
  | cons thread rest ih =>
    obtain ⟨between, hnext, hrest⟩ := Option.bind_eq_some_iff.1 h
    exact (of_next hnothing hnext).trans (ih hrest)

/-- A thread that is about to flush what is pending hands it over to the sink, which accepts it. -/
theorem CanBecome.deliver (thread : Nat) {task : Task} {part : Writer.Task}
    {errand : Buffer.Errand} {batch : List String} (hnothing : fits .nothing)
    (haccepted : fits (.outcome .accepted))
    (here : a.threads[thread]? = some (.ready (.writer task (.buffer part (.enter errand)))))
    (hidle : a.job.writer.buffer.flushing = false)
    (hpending : a.job.writer.buffer.pending = batch) (hsome : batch ≠ []) :
    CanBecome fits a
      { a with
        job := { a.job with
          writer := { a.job.writer with buffer := a.job.writer.buffer.take } }
        threads := a.threads.set thread
          (.ready (.writer task (.buffer part (.record errand batch.length true))))
        printed := batch :: a.printed } := by
  have hlt : thread < a.threads.length := (List.getElem?_eq_some_iff.1 here).1
  have hfull : batch.isEmpty = false := by simpa using hsome
  have henter : Buffer.stepEnter a.job.writer.buffer a.now errand =
      { state := a.job.writer.buffer.take, outcome := .proceed (.call errand batch), signals := [],
        notes := [.taken errand batch] } := by
    simp only [Buffer.stepEnter, hidle, hpending, hfull, Bool.false_eq_true, if_false]
  have htakes : step a.job a.now (.writer task (.buffer part (.enter errand))) ⟨a.now, .nothing⟩ =
      some (ofWriter a.job a.now task (Writer.ofBuffer a.job.writer part
        (Buffer.stepEnter a.job.writer.buffer a.now errand))) := rfl
  rw [henter] at htakes
  have first := CanBecome.of_step thread _ here hnothing htakes rfl
  have second := first.goOn ⟨a.now, .nothing⟩ hlt rfl hnothing (by rfl) (by rfl)
  exact second.goOn ⟨a.now, .outcome .accepted⟩ hlt rfl haccepted (by rfl) (by rfl)

/-- Where the batcher looks like a scene, it can come to its end with these batches printed, latest
first. -/
def CanEnd (fits : Buffer.Input → Prop) (scene : Scene) (printed : List (List String)) : Prop :=
  ∃ (last : Scene) (status : Nat), CanBecome fits scene last ∧
    last.threads[mainThread]? = some (.returned status) ∧ last.printed = printed

theorem CanBecome.canEnd {printed : List (List String)} (h : CanBecome fits a b)
    (hends : CanEnd fits b printed) : CanEnd fits a printed := by
  obtain ⟨last, status, hleads, hreturned, hprinted⟩ := hends
  exact ⟨last, status, h.trans hleads, hreturned, hprinted⟩

end Scene

end Backpressure.LineBatch
