import Backpressure.LineBatch.Run
import Backpressure.Proofs.Bucket.Effect
import Backpressure.Proofs.Following
import Backpressure.Proofs.Part
import Backpressure.Proofs.Writer.Roles

/-!
# The limiter and the writer of the batcher

A step of the batcher is a step of its writer, a step of its limiter, or a step of the main thread
between the two. So the writer of the batcher is a writer in use.
-/

namespace Backpressure.LineBatch

/-- A step of the writer as a step of the batcher. -/
abbrev ofWriter (job : Job) (now : Instant) (task : Task) (move : Writer.Step String) : Step :=
  move.embed (fun writer => { job with writer }) (.writer task) .writer .writer
    (afterWriter now task)

/-- A step of the limiter as a step of the batcher. -/
abbrev ofLimiter (job : Job) (line : String) (rest : Reading) (move : Bucket.Step) : Step :=
  move.embed (fun limiter => { job with limiter := some limiter }) (.permit line rest) .limiter
    .limiter (fun _ => .proceed (.write line rest))

/-- What a step at a place does to a job. -/
inductive Effect (job : Job) (now : Instant) : Position → Step → Prop
  /-- A line is read, and has to be admitted. -/
  | limited {input line lines limiter} (first : input.lines = line :: lines)
      (limits : job.limiter = some limiter) :
      Effect job now (.read input)
        (.proceed job (.permit line { input with lines } (Bucket.start .acquire now)))
  /-- A line is read, and goes straight on. -/
  | unlimited {input line lines} (first : input.lines = line :: lines)
      (limits : job.limiter = none) :
      Effect job now (.read input) (.proceed job (.write line { input with lines }))
  /-- A line cannot be read. -/
  | broken {input} (last : input.lines = []) (breaks : input.broken = true) :
      Effect job now (.read input)
        (.proceed job (ask .report (.channel (.reportError unreadable)) now))
  /-- The input is over. -/
  | exhausted {input} (last : input.lines = []) (whole : input.broken = false) :
      Effect job now (.read input) (.proceed job (ask .close .close now))
  /-- A step of the limiter. -/
  | permit {line rest p reading limiter} (limits : job.limiter = some limiter) :
      Effect job now (.permit line rest p)
        (ofLimiter job line rest (Bucket.step limiter now p reading))
  /-- Without a limiter, a line needs no permit. -/
  | waive {line rest p} (limits : job.limiter = none) :
      Effect job now (.permit line rest p) (.proceed job (.write line rest))
  /-- A line is going to be written. -/
  | write {line rest} :
      Effect job now (.write line rest)
        { state := job, outcome := .proceed (ask (.write rest) (.write line) now), signals := [],
          notes := [.read line] }
  /-- A step of the writer. -/
  | writer {task p input} {move : Writer.Step String}
      (moves : (Writer.monitor String).step job.writer now p input = some move) :
      Effect job now (.writer task p) (ofWriter job now task move)
  /-- The counts are summed up. -/
  | sumUp {tally} :
      Effect job now (.sumUp tally)
        { state := job, signals := [], notes := [.summary tally],
          outcome :=
            .proceed (ask (.errors (0 < tally.failedBatches)) (.channel .pollError) now) }
  /-- An error is told of. -/
  | tell {error} :
      Effect job now (.tell error)
        { state := job, outcome := .proceed (ask (.errors true) (.channel .pollError) now),
          signals := [], notes := [.failure error] }

variable {job : Job} {now : Instant} {position place : Position} {input : Input} {move : Step}

theorem effect_stepRead (reading : Reading) :
    Effect job now (.read reading) (stepRead job now reading) := by
  unfold stepRead
  split
  · rename_i line lines hfirst
    split
    · rename_i limiter hlimits
      exact .limited hfirst hlimits
    · rename_i hlimits
      exact .unlimited hfirst hlimits
  · rename_i hlast
    split
    · rename_i hbreaks
      exact .broken hlast hbreaks
    · rename_i hwhole
      exact .exhausted hlast (eq_false_of_ne_true hwhole)

theorem effect_stepPermit (line : String) (rest : Reading) (p : Bucket.Position)
    (reading : Instant) :
    Effect job now (.permit line rest p) (stepPermit job now line rest p reading) := by
  unfold stepPermit
  split
  · rename_i limiter hlimits
    exact .permit hlimits
  · rename_i hlimits
    exact .waive hlimits

/-- Every move of a thread of the batcher has one of the effects. -/
theorem effect_of_moves (h : monitor.step job now position input = some move) :
    Effect job now position move := by
  cases position with
  | writer task p =>
    obtain ⟨writerMove, hmoves, rfl⟩ := Option.map_eq_some_iff.1 h
    exact .writer hmoves
  | read reading =>
    cases h
    exact effect_stepRead reading
  | permit line rest p =>
    cases h
    exact effect_stepPermit line rest p input.reading
  | write line rest =>
    cases h
    exact .write
  | sumUp tally =>
    cases h
    exact .sumUp
  | tell error =>
    cases h
    exact .tell

/-- The place of a thread within a call on the writer. -/
def Position.inWriter? : Position → Option (Writer.Position String)
  | .writer _ position => some position
  | _ => none

/-- A condition of the writer. -/
def Condition.ofWriter? : Condition → Option Writer.Condition
  | .writer condition => some condition
  | .limiter _ => none

/-- What a note says of the writer. -/
def Note.ofWriter? : Note → Option (Writer.Note String)
  | .writer note => some note
  | _ => none

@[simp]
theorem filterMap_ofWriter?_writer (notes : List (Writer.Note String)) :
    (notes.map Note.writer).filterMap Note.ofWriter? = notes := by
  simp [List.filterMap_map, Function.comp_def, Note.ofWriter?]

@[simp]
theorem filterMap_ofWriter?_limiter (notes : List Bucket.Note) :
    (notes.map Note.limiter).filterMap Note.ofWriter? = [] := by
  simp [List.filterMap_map, Function.comp_def, Note.ofWriter?]

/-- What a thread of the batcher does in the writer. -/
abbrev inWriter (phase : Phase monitor) : Phase (Writer.monitor String) :=
  phase.within Position.inWriter? Condition.ofWriter?

/-- A thread is outside the writer, or at the beginning of a call that the main thread makes at a
moment. -/
def Asks (now : Instant) (place? : Option (Writer.Position String)) : Prop :=
  place? = none ∨
    ∃ request, (∀ thread, Writer.Client (· = .inspect) (.call thread request)) ∧
      place? = some (Writer.start request now)

theorem Asks.begins {place? : Option (Writer.Position String)} (h : Asks now place?) :
    (Writer.monitor String).Begins place? :=
  h.imp id fun ⟨request, _, hstart⟩ => ⟨request, now, hstart⟩

/-- After a call on the writer a thread is outside it, or makes the next call. -/
theorem inWriter_afterWriter (now : Instant) (task : Task) (reply : Writer.Reply String) :
    ∃ begun?, Asks now begun? ∧
      inWriter (Phase.ofOutcome (M := monitor) (afterWriter now task reply)) = .awake begun? := by
  unfold afterWriter
  split
  · exact ⟨none, .inl rfl, rfl⟩
  · exact ⟨none, .inl rfl, rfl⟩
  · exact ⟨_, .inr ⟨.close, fun _ => trivial, rfl⟩, rfl⟩
  · exact ⟨_, .inr ⟨.close, fun _ => trivial, rfl⟩, rfl⟩
  · exact ⟨_, .inr ⟨.buffer .inspect, fun _ => rfl, rfl⟩, rfl⟩
  all_goals exact ⟨none, .inl rfl, rfl⟩

theorem ne_sleep_afterWriter (now : Instant) (task : Task) (reply : Writer.Reply String)
    (condition : Condition) (wakeAt : Deadline) (place : Position) :
    afterWriter now task reply ≠ .sleep condition wakeAt place := by
  unfold afterWriter
  split <;> exact nofun

/-- A line that waits for its permit gets it, or sleeps until it may look again. -/
theorem admitted_or_sleeps (job : Job) (line : String) (rest : Reading) (limiter : Bucket)
    (now : Instant) (p : Bucket.Position) (reading : Instant) :
    (ofLimiter job line rest (Bucket.step limiter now p reading)).outcome =
        .proceed (.write line rest) ∨
      ∃ wakeAt p', (ofLimiter job line rest (Bucket.step limiter now p reading)).outcome =
        .sleep (.limiter .refilled) wakeAt (.permit line rest p') := by
  have heffect := Bucket.effect limiter now p reading
  simp only [Move.embed]
  generalize Bucket.step limiter now p reading = move at heffect
  cases heffect with
  | wait => exact .inr ⟨_, _, rfl⟩
  | grant | refuse | giveUp | count | inspect => exact .inl rfl

/-- What a step outside the writer leaves of it, and where it leads. -/
structure Aside (job : Job) (now : Instant) (move : Step) : Prop where
  state : move.state.writer = job.writer
  signals : move.signals.filterMap (·.through Condition.ofWriter?) = []
  notes : move.notes.filterMap Note.ofWriter? = []
  goes : ∃ begun?, Asks now begun? ∧
    inWriter (Phase.ofOutcome (M := monitor) move.outcome) = .awake begun?
  stays : move.outcome ≠ .exit

/-- A thread outside the writer leaves it alone, and may make a call on it. -/
theorem Effect.aside (h : Effect job now position move) (hplace : position.inWriter? = none) :
    Aside job now move := by
  cases h with
  | limited | unlimited | waive => exact ⟨rfl, rfl, rfl, ⟨none, .inl rfl, rfl⟩, nofun⟩
  | broken =>
    exact ⟨rfl, rfl, rfl, ⟨_, .inr ⟨.channel (.reportError unreadable), fun _ => rfl, rfl⟩, rfl⟩,
      nofun⟩
  | exhausted => exact ⟨rfl, rfl, rfl, ⟨_, .inr ⟨.close, fun _ => trivial, rfl⟩, rfl⟩, nofun⟩
  | @permit line rest p reading limiter limits =>
    have hsignals := filterMap_through_map_other Condition.limiter Condition.ofWriter?
      (fun _ => rfl) (Bucket.step limiter now p reading).signals
    refine ⟨rfl, hsignals, filterMap_ofWriter?_limiter _, ⟨none, .inl rfl, ?_⟩, ?_⟩ <;>
      rcases admitted_or_sleeps job line rest limiter now p reading with
        hadmitted | ⟨wakeAt, p', hsleeps⟩
    · rw [hadmitted]
      rfl
    · rw [hsleeps]
      rfl
    · rw [hadmitted]
      nofun
    · rw [hsleeps]
      nofun
  | @write line rest =>
    exact ⟨rfl, rfl, rfl, ⟨_, .inr ⟨.write line, fun _ => trivial, rfl⟩, rfl⟩, nofun⟩
  | writer => contradiction
  | sumUp | tell =>
    exact ⟨rfl, rfl, rfl, ⟨_, .inr ⟨.channel .pollError, fun _ => rfl, rfl⟩, rfl⟩, nofun⟩

/-- A thread in a call on the writer stays in it until it returns. -/
theorem inWriter_ofWriter (job : Job) (now : Instant) (task : Task) (move : Writer.Step String) :
    inWriter (Phase.ofOutcome (M := monitor) (ofWriter job now task move).outcome) =
      (Phase.ofOutcome (M := Writer.monitor String) move.outcome).still ∨
    ∃ reply, move.outcome = .reply reply ∧
      (ofWriter job now task move).outcome = afterWriter now task reply :=
  within_embed (fun _ => rfl) (fun _ => rfl)

/-- A thread falls asleep in a call on the writer, on a condition of the writer, or before its
permit, on a condition of the limiter, if there is one. -/
theorem cases_of_sleep {condition : Condition} {wakeAt : Deadline}
    (h : Effect job now position move) (hsleep : move.outcome = .sleep condition wakeAt place) :
    (∃ k task p, condition = .writer k ∧ place = .writer task p) ∨
      ∃ k line rest p, condition = .limiter k ∧ place = .permit line rest p ∧
        job.limiter.isSome = true := by
  cases h with
  | @writer task p input writerMove moves =>
    simp only [Move.embed] at hsleep
    cases houtcome : writerMove.outcome with
    | sleep k _ p' =>
      rw [houtcome] at hsleep
      cases hsleep
      exact .inl ⟨k, task, p', rfl, rfl⟩
    | reply reply =>
      rw [houtcome] at hsleep
      exact absurd hsleep (ne_sleep_afterWriter now task reply condition wakeAt place)
    | proceed | exit => simp [houtcome] at hsleep
  | @permit line rest p reading limiter limits =>
    rcases admitted_or_sleeps job line rest limiter now p reading with
      hadmitted | ⟨wakeAt', p', hsleeps⟩
    · rw [hadmitted] at hsleep
      contradiction
    · rw [hsleeps] at hsleep
      cases hsleep
      exact .inr ⟨.refilled, line, rest, p', rfl, rfl, by rw [limits]; rfl⟩
  | _ => contradiction

/-- No step makes a limiter, or does away with one. -/
theorem limiter_of_effect (h : Effect job now position move) :
    move.state.limiter.isSome = job.limiter.isSome := by
  cases h with
  | permit limits =>
    rw [limits]
    rfl
  | _ => rfl

/-- The writer as a part of the batcher. -/
def writerPart : Part monitor (Writer.monitor String) where
  state := Job.writer
  place? := Position.inWriter?
  condition? := Condition.ofWriter?
  note? := Note.ofWriter?
  apart := by
    rintro (_ | _) (_ | _) k ⟨⟩ ⟨⟩
    rfl
  starts _ _ := .inl rfl
  sleeps := by
    intro job now position input move condition wakeAt place h hsleep hcondition
    rcases cases_of_sleep (effect_of_moves h) hsleep with
      ⟨_, _, _, rfl, rfl⟩ | ⟨_, _, _, _, rfl, rfl, _⟩
    · rfl
    · contradiction
  inside := by
    intro job now position input move p h hplace
    cases effect_of_moves h with
    | @writer task p' input' writerMove moves =>
      cases hplace
      have hsignals := filterMap_through_map Condition.writer Condition.ofWriter? (fun _ => rfl)
        writerMove.signals
      refine ⟨input', writerMove, moves, rfl, hsignals, filterMap_ofWriter?_writer _, ?_⟩
      rcases inWriter_ofWriter job now task writerMove with hstays | ⟨reply, hreply, hover⟩
      · exact .inl hstays
      · obtain ⟨begun?, hasks, hnext⟩ := inWriter_afterWriter now task reply
        rw [hreply, hover]
        exact .inr ⟨rfl, begun?, hasks.begins, hnext⟩
    | _ => contradiction
  outside := by
    intro job now position input move h hplace
    obtain ⟨hstate, hsignals, hnotes, ⟨begun?, hasks, hnext⟩, _⟩ :=
      (effect_of_moves h).aside hplace
    exact ⟨hstate, hsignals, hnotes, begun?, hasks.begins, hnext⟩

end Backpressure.LineBatch
