import Backpressure.Proofs.Bucket.Effect
import Backpressure.Proofs.History
import Mathlib.Logic.Relation

/-!
# The account of a token bucket

What is left in a bucket depends on the readings of the clock, in the order in which the lock was
held, and on the tokens taken at them. The account of a bucket keeps just that. It changes in small
steps: a reading falls into the window or begins a new one, and a token is taken at the last
reading. Whatever threads do is a sequence of such steps.
-/

namespace Backpressure.Bucket

/-! ### Readings of the clock -/

/-- The reading of the clock that an event of a system takes, if it takes one. -/
def reading? (s : System monitor) : Event monitor → Option Instant
  | .step thread reading _ =>
    if (placeIn s.threads thread).any Position.readsClock then some reading else none
  | _ => none

/-- The systems that some schedule leads to, with the readings that it takes, in order. -/
inductive Reads (start : System monitor) : List Instant → System monitor → Prop
  | start : Reads start [] start
  | next {readings : List Instant} {s s' : System monitor} {event : Event monitor} :
      Reads start readings s → s.next event = some s' →
      Reads start (readings ++ (reading? s event).toList) s'

/-- The readings that a list of events takes. -/
def readingsBy (s : System monitor) : List (Event monitor) → List Instant
  | [] => []
  | event :: rest =>
    (reading? s event).toList ++ ((s.next event).map (readingsBy · rest)).getD []

section Readings

variable {start s s' : System monitor} {readings : List Instant}

/-- Every schedule takes some readings. -/
theorem exists_reads (h : start.Reachable s) : ∃ readings, Reads start readings s := by
  induction h with
  | start => exact ⟨[], .start⟩
  | next _ hnext ih =>
    obtain ⟨readings, hreads⟩ := ih
    exact ⟨_, hreads.next hnext⟩

theorem Reads.run {events : List (Event monitor)} (h : Reads start readings s)
    (hrun : s.run events = some s') : Reads start (readings ++ readingsBy s events) s' := by
  induction events generalizing s readings with
  | nil =>
    cases hrun
    simpa [readingsBy] using h
  | cons event rest ih =>
    obtain ⟨middle, hnext, hrest⟩ := Option.bind_eq_some_iff.1 hrun
    have hreads := ih (h.next hnext) hrest
    simpa [readingsBy, hnext] using hreads

end Readings

/-! ### Notes -/

/-- The reading that began a new window. -/
def refilled? : Nat × Note → Option Instant
  | (_, .refilled reading _ _) => some reading
  | _ => none

/-- The thread that took a token, with the reading at which it did. -/
def admitted? : Nat × Note → Option (Nat × Instant)
  | (thread, .admitted reading) => some (thread, reading)
  | _ => none

/-- The admissions since the last new window. The notes come latest first. -/
def sinceRefill : List (Nat × Note) → List (Nat × Instant)
  | [] => []
  | (_, .refilled _ _ _) :: _ => []
  | (thread, .admitted reading) :: earlier => sinceRefill earlier ++ [(thread, reading)]
  | (_, .refused _) :: earlier | (_, .gaveUp) :: earlier | (_, .waiting _) :: earlier =>
    sinceRefill earlier

/-- Does a note concern neither windows nor tokens? -/
def Note.isAside : Note → Bool
  | .refilled _ _ _ | .admitted _ => false
  | .refused _ | .gaveUp | .waiting _ => true

section Aside

variable {thread : Nat} {note : Note} {notes : List (Nat × Note)} (h : note.isAside = true)
include h

theorem told_refilled?_aside :
    told refilled? ((thread, note) :: notes) = told refilled? notes := by
  cases note <;> first | contradiction | simp [refilled?]

theorem told_admitted?_aside :
    told admitted? ((thread, note) :: notes) = told admitted? notes := by
  cases note <;> first | contradiction | simp [admitted?]

theorem sinceRefill_aside : sinceRefill ((thread, note) :: notes) = sinceRefill notes := by
  cases note <;> first | contradiction | rfl

end Aside

/-! ### Accounts -/

/-- A bucket with what has been recorded of it, latest first, and the readings so far. -/
structure Account where
  bucket : Bucket
  notes : List (Nat × Note)
  readings : List Instant

namespace Account

/-- One step of an account. -/
inductive Step (a : Account) : Account → Prop
  /-- A reading falls into the window. -/
  | read {reading : Instant} (within : a.bucket.isOver reading = false) :
      Step a { a with readings := a.readings ++ [reading] }
  /-- A reading begins a new window. -/
  | refill {thread : Nat} {reading : Instant} (ended : a.bucket.isOver reading = true) :
      Step a
        { bucket := { a.bucket with tokens := a.bucket.threshold, checkpoint := reading }
          notes :=
            (thread, .refilled reading a.bucket.threshold a.bucket.tokens) :: a.notes
          readings := a.readings ++ [reading] }
  /-- A token is taken at the last reading. -/
  | take {thread : Nat} {reading : Instant} (last : a.readings.getLast? = some reading)
      (left : 0 < a.bucket.tokens) :
      Step a
        { a with
          bucket := { a.bucket with tokens := a.bucket.tokens - 1 }
          notes := (thread, .admitted reading) :: a.notes }
  /-- Something else is recorded. -/
  | aside {thread : Nat} {note : Note} (quiet : note.isAside = true) :
      Step a { a with notes := (thread, note) :: a.notes }

/-- A step takes one reading at most. -/
theorem Step.readings_isPrefix {a a' : Account} (h : a.Step a') : a.readings <+: a'.readings := by
  cases h with
  | read | refill => exact List.prefix_append _ _
  | take | aside => exact List.prefix_rfl

/-- What steps of an account lead to. -/
abbrev Steps : Account → Account → Prop := Relation.ReflTransGen Step

/-- A reading of the clock is a step. -/
theorem step_reading (a : Account) (thread : Nat) (reading : Instant) :
    Step a
      { bucket := a.bucket.refill reading
        notes := (windowNotes a.bucket reading).map (thread, ·) ++ a.notes
        readings := a.readings ++ [reading] } := by
  cases hover : a.bucket.isOver reading with
  | true =>
    rw [refill_of_isOver hover, windowNotes, hover]
    exact .refill hover
  | false =>
    rw [refill_of_not_isOver hover, windowNotes, hover]
    exact .read hover

section Record

variable {b state : Bucket} {reading : Instant} {thread : Nat}
  {outcome : Outcome Position Reply Condition} {signals : List (Signal Condition)}

theorem record_windowNotes :
    (Move.mk state outcome signals (windowNotes b reading)).record thread =
      (windowNotes b reading).map (thread, ·) := by
  unfold Move.record windowNotes
  cases b.isOver reading <;> rfl

/-- What a step records: the new window first, and then what came of it. -/
theorem record_windowNotes_concat {note : Note} :
    (Move.mk state outcome signals (windowNotes b reading ++ [note])).record thread =
      (thread, note) :: (windowNotes b reading).map (thread, ·) := by
  unfold Move.record windowNotes
  cases b.isOver reading <;> rfl

end Record

/-- Whatever a step does, it is a reading of the clock and at most one more step of the account. -/
theorem steps_of_effect {b : Bucket} {now reading : Instant} {position : Position}
    {move : Bucket.Step} (h : Effect b now reading position move)
    (hreads : position.readsClock = true) (thread : Nat) (notes : List (Nat × Note))
    (readings : List Instant) :
    Steps ⟨b, notes, readings⟩
      ⟨move.state, move.record thread ++ notes, readings ++ [reading]⟩ := by
  have hreading := step_reading ⟨b, notes, readings⟩ thread reading
  cases h with
  | grant asks left =>
    obtain ⟨hleft, rfl⟩ := take?_eq_some_iff.1 left
    rw [record_windowNotes_concat]
    exact .tail (.single hreading) (.take (by simp) hleft)
  | refuse | giveUp | wait =>
    rw [record_windowNotes_concat]
    exact .tail (.single hreading) (.aside rfl)
  | count =>
    rw [record_windowNotes]
    exact .single hreading
  | inspect => contradiction

end Account

/-- The account of a bucket that threads share, after some readings. -/
def accountOf (s : System monitor) (readings : List Instant) : Account :=
  ⟨s.state, s.view.notes, readings⟩

theorem reading?_step {s : System monitor} {thread wakee : Nat} {reading : Instant}
    {position : Position} (hplace : placeIn s.threads thread = some position) :
    reading? s (.step thread reading wakee) =
      if position.readsClock then some reading else none := by
  rw [reading?, hplace, Option.any_some]

/-- An event is a sequence of steps of the account. -/
theorem steps_of_change {s s' : System monitor} {event : Event monitor}
    (h : System.Change s event s') (readings : List Instant) :
    Account.Steps (accountOf s readings)
      (accountOf s' (readings ++ (reading? s event).toList)) := by
  cases h with
  | elapse | arrive | call | rouse =>
    change Account.Steps _ (accountOf s (readings ++ []))
    rw [List.append_nil]
  | @step thread wakee reading phase position move threads here awake moves wakes =>
    have hplace : placeIn s.threads thread = some position := placeIn_of_awake here awake
    have hafter : ∀ rs, accountOf (System.mk s.now move.state
        (threads.set thread (.ofOutcome move.outcome))
        ((System.entries thread move).reverse ++ s.journal)) rs =
          ⟨move.state, move.record thread ++ s.view.notes, rs⟩ := fun rs =>
      congrArg (Account.mk move.state · rs)
        (congrArg Layout.notes (System.layout_step here wakes))
    rw [reading?_step hplace, hafter]
    cases hreads : position.readsClock with
    | true =>
      have heffect := effect s.state s.now position reading
      rw [Option.some.inj moves] at heffect
      exact Account.steps_of_effect heffect hreads thread _ readings
    | false =>
      cases position with
      | inspect =>
        cases moves
        change Account.Steps _ (accountOf s (readings ++ []))
        rw [List.append_nil]
      | _ => contradiction

/-- Whatever threads do is a sequence of steps of the account. -/
theorem Reads.steps {start s : System monitor} {readings : List Instant}
    (h : Reads start readings s) :
    Account.Steps (accountOf start []) (accountOf s readings) := by
  induction h with
  | start => exact .refl
  | next _ hnext ih => exact ih.trans (steps_of_change (System.next_eq_some_iff.1 hnext) _)

end Backpressure.Bucket
