import Backpressure.Bucket.Script
import Backpressure.Proofs.Bucket.Waking
import Backpressure.Proofs.OwnSteps
import Backpressure.Proofs.Twins

/-!
# Acquisitions that fail

An acquisition looks for a token as often as it takes, and each look reads the clock and may begin a
new window. But a new window has a token, so a look that begins one also takes one and returns. A
look that waits or gives up has begun none. An acquisition that fails has therefore left the bucket
alone at every one of its looks, however many there were.
-/

namespace Backpressure.Bucket

/-- What one look for a token comes to, at a moment and a reading of the clock, and the bucket that
it leaves. The patience is the deadline of a call that may wait. -/
inductive Attempt (patience : Option Deadline) (b : Bucket) (now reading : Instant) :
    Option Bool → Bucket → Prop
  /-- A token is left at the reading, and one is taken. -/
  | take (left : 0 < (b.refill reading).tokens) :
      Attempt patience b now reading (some true)
        { b.refill reading with tokens := (b.refill reading).tokens - 1 }
  /-- No token is left at the reading, and there is no time to wait for one. -/
  | refuse (spent : (b.refill reading).tokens = 0)
      (late : ∀ deadline, patience = some deadline → deadline.reached now = true) :
      Attempt patience b now reading (some false) b
  /-- No token is left at the reading, and the deadline has not come. -/
  | wait {deadline : Deadline} (spent : (b.refill reading).tokens = 0)
      (waits : patience = some deadline) (early : deadline.reached now = false) :
      Attempt patience b now reading none b

section Looks

variable {b b' : Bucket} {now reading : Instant} {patience : Option Deadline} {taken? : Option Bool}
  {position : Position} {move : Bucket.Step}

/-- A look that takes no token leaves the bucket as it was. -/
theorem Attempt.unchanged (h : Attempt patience b now reading taken? b')
    (hnone : taken? ≠ some true) : b' = b := by
  cases h with
  | take => exact absurd rfl hnone
  | refuse | wait => rfl

/-- A look fails only where there is no time to wait. -/
theorem Attempt.late (h : Attempt patience b now reading (some false) b') (deadline : Deadline)
    (hpatience : patience = some deadline) : deadline.reached now = true := by
  cases h with
  | refuse _ late => exact late deadline hpatience

/-- A step of an acquisition is a look for a token, after which the call returns with what came of
it, or stands where it looks again with the same patience. -/
theorem Effect.attempt (h : Effect b now reading position move) (hasks : position.asks = true) :
    ∃ taken?, Attempt position.deadline? b now reading taken? move.state ∧
      ((∃ taken, taken? = some taken ∧ move.outcome = .reply (.acquired taken)) ∨
        taken? = none ∧ ∃ place, (Phase.ofOutcome (M := monitor) move.outcome).place? = some place ∧
          place.asks = true ∧ place.deadline? = position.deadline?) := by
  cases h with
  | grant asks left =>
    obtain ⟨hleft, rfl⟩ := take?_eq_some_iff.1 left
    exact ⟨some true, .take hleft, .inl ⟨true, rfl, rfl⟩⟩
  | refuse spent =>
    rw [refill_of_spent spent]
    exact ⟨some false, .refuse (take?_eq_none_iff.1 spent) nofun, .inl ⟨false, rfl, rfl⟩⟩
  | @giveUp _ deadline waits spent reached =>
    rw [refill_of_spent spent, waits]
    refine ⟨some false, .refuse (take?_eq_none_iff.1 spent) ?_, .inl ⟨false, rfl, rfl⟩⟩
    rintro _ ⟨⟩
    exact reached
  | @wait _ deadline waits spent early =>
    rw [refill_of_spent spent, waits]
    exact ⟨none, .wait (take?_eq_none_iff.1 spent) rfl early, .inr ⟨rfl, _, rfl, rfl, rfl⟩⟩
  | count | inspect => contradiction

end Looks

/-! ### The looks of one call -/

section Calls

variable {began begun s : System monitor} {thread : Nat} {request : Request}
  {steps : List (OwnStep monitor)}

end Calls

end Backpressure.Bucket
