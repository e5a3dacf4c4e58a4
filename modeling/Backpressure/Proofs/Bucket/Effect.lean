import Backpressure.Bucket.Monitor

/-!
# What a step does to a token bucket

Every step but a look at the whole bucket reads the clock once. The reading begins a new window if
the old one is over. After that an acquisition takes a token, if one is left, and returns; if none
is left, it returns or waits and leaves the bucket as it is.
-/

namespace Backpressure.Bucket

variable {b : Bucket} {reading : Instant}

/-! ### Buckets -/

/-- A bucket is created where the threshold and the period are positive, and begins full. -/
theorem create_eq_ok_iff {threshold : Nat} {period : Duration} :
    create threshold period reading = .ok b ↔
      b.threshold = threshold ∧ b.period = period ∧ b.tokens = threshold ∧
        b.checkpoint = reading := by
  unfold create
  constructor
  · intro h
    split at h
    · split at h
      · cases h
        exact ⟨rfl, rfl, rfl, rfl⟩
      · contradiction
    · contradiction
  · rintro ⟨hthreshold, hperiod, htokens, hcheckpoint⟩
    subst hthreshold hperiod hcheckpoint
    rw [dif_pos b.threshold_pos, dif_pos b.period_pos]
    congr
    exact htokens.symm

/-- A reading begins a new window where a period has passed since the checkpoint. -/
theorem isOver_iff :
    b.isOver reading = true ↔ b.checkpoint.nanos + b.period.nanos ≤ reading.nanos := by
  have hperiod := b.period_pos
  have hsince : (reading.since b.checkpoint).nanos = reading.nanos - b.checkpoint.nanos := rfl
  rw [isOver, decide_eq_true_iff, hsince]
  omega

theorem refill_of_isOver (h : b.isOver reading = true) :
    b.refill reading = { b with tokens := b.threshold, checkpoint := reading } := if_pos h

theorem refill_of_not_isOver (h : b.isOver reading = false) : b.refill reading = b :=
  if_neg (ne_true_of_eq_false h)

theorem take?_eq_some_iff {b' : Bucket} :
    b.take? = some b' ↔ 0 < b.tokens ∧ b' = { b with tokens := b.tokens - 1 } := by
  unfold take?
  split
  · rename_i hleft
    constructor
    · rintro ⟨⟩
      exact ⟨hleft, rfl⟩
    · rintro ⟨_, rfl⟩
      rfl
  · rename_i hnone
    constructor
    · intro h
      contradiction
    · rintro ⟨hleft, _⟩
      contradiction

theorem take?_eq_none_iff : b.take? = none ↔ b.tokens = 0 := by
  unfold take?
  split <;> simp <;> omega

/-- At the beginning of a window there is a token, so a look that finds none begins no window. -/
theorem take?_refill_eq_none_iff :
    (b.refill reading).take? = none ↔ b.isOver reading = false ∧ b.tokens = 0 := by
  cases hover : b.isOver reading with
  | true =>
    rw [refill_of_isOver hover, take?_eq_none_iff]
    have hthreshold := b.threshold_pos
    simp only [Bool.true_eq_false, false_and, iff_false]
    omega
  | false =>
    rw [refill_of_not_isOver hover, take?_eq_none_iff]
    exact (and_iff_right rfl).symm

/-- A reading that leaves no token begins no window. -/
theorem refill_of_spent (hspent : (b.refill reading).take? = none) : b.refill reading = b :=
  refill_of_not_isOver (take?_refill_eq_none_iff.1 hspent).1

/-! ### Steps -/

/-- Does a step at this place read the clock? -/
def Position.readsClock : Position → Bool
  | .inspect => false
  | _ => true

/-- The deadline of an acquisition that may wait. -/
def Position.deadline? : Position → Option Deadline
  | .acquire deadline | .resume deadline _ => some deadline
  | _ => none

/-- Does a step at this place ask for a token? -/
def Position.asks (position : Position) : Bool :=
  position = .tryAcquire || position.deadline?.isSome

/-- What a reading tells of the window that it begins, if it begins one. -/
def windowNotes (b : Bucket) (reading : Instant) : List Note :=
  if b.isOver reading then [.refilled reading b.threshold b.tokens] else []

/-- A reading that begins a window wakes all who wait for one. -/
def windowSignals (b : Bucket) (reading : Instant) : List (Signal Condition) :=
  if b.isOver reading then [.all .refilled] else []

/-- What a step at a reading does. -/
inductive Effect (b : Bucket) (now reading : Instant) : Position → Step → Prop
  /-- A token is left, and is taken. -/
  | grant {position : Position} {b' : Bucket} (asks : position.asks = true)
      (left : (b.refill reading).take? = some b') :
      Effect b now reading position
        { state := b', outcome := .reply (.acquired true), signals := windowSignals b reading,
          notes := windowNotes b reading ++ [.admitted reading] }
  /-- No token is left for a call that does not wait. -/
  | refuse (spent : (b.refill reading).take? = none) :
      Effect b now reading .tryAcquire
        { state := b.refill reading, outcome := .reply (.acquired false),
          signals := windowSignals b reading,
          notes := windowNotes b reading ++ [.refused reading] }
  /-- No token is left when the deadline has come. -/
  | giveUp {position : Position} {deadline : Deadline} (waits : position.deadline? = some deadline)
      (spent : (b.refill reading).take? = none) (reached : deadline.reached now = true) :
      Effect b now reading position
        { state := b.refill reading, outcome := .reply (.acquired false),
          signals := windowSignals b reading, notes := windowNotes b reading ++ [.gaveUp] }
  /-- No token is left, and there is time to wait for one. -/
  | wait {position : Position} {deadline : Deadline} (waits : position.deadline? = some deadline)
      (spent : (b.refill reading).take? = none) (early : deadline.reached now = false) :
      Effect b now reading position
        { state := b.refill reading
          outcome := .sleep .refilled ((b.refill reading).wakeAt reading now deadline)
            (.resume deadline (b.refill reading).checkpoint)
          signals := windowSignals b reading
          notes := windowNotes b reading ++
            [.waiting ((b.refill reading).untilRefill reading)] }
  /-- The tokens are counted. -/
  | count :
      Effect b now reading .available
        { state := b.refill reading, outcome := .reply (.available (b.refill reading).tokens),
          signals := windowSignals b reading, notes := windowNotes b reading }
  /-- Somebody looks, and reads no clock. -/
  | inspect : Effect b now reading .inspect (.reply b (.snapshot b))

theorem atReading_eq (b : Bucket) (reading : Instant)
    (rest : Bucket → Bucket × Outcome Position Reply Condition × List Note) :
    atReading b reading rest =
      { state := (rest (b.refill reading)).1, outcome := (rest (b.refill reading)).2.1,
        signals := windowSignals b reading,
        notes := windowNotes b reading ++ (rest (b.refill reading)).2.2 } := by
  unfold atReading windowSignals windowNotes
  cases b.isOver reading <;> rfl

theorem effect_stepAcquire {now : Instant} {position : Position} {deadline : Deadline}
    (waits : position.deadline? = some deadline) :
    Effect b now reading position (stepAcquire b now reading deadline) := by
  rw [stepAcquire, atReading_eq]
  cases htake : (b.refill reading).take? with
  | some b' => exact .grant (by simp [Position.asks, waits]) htake
  | none =>
    cases hreached : deadline.reached now with
    | true => exact .giveUp waits htake hreached
    | false => exact .wait waits htake hreached

/-- Every step has one of the effects. -/
theorem effect (b : Bucket) (now : Instant) (position : Position) (reading : Instant) :
    Effect b now reading position (step b now position reading) := by
  cases position with
  | tryAcquire =>
    rw [step, stepTryAcquire, atReading_eq]
    cases htake : (b.refill reading).take? with
    | some b' => exact .grant rfl htake
    | none => exact .refuse htake
  | available =>
    rw [step, atReading_eq, List.append_nil]
    exact .count
  | acquire deadline => exact effect_stepAcquire rfl
  | resume deadline checkpoint => exact effect_stepAcquire rfl
  | inspect => exact .inspect

end Backpressure.Bucket
