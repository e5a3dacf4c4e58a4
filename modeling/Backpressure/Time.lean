/-!
# Lengths of time and moments

A duration is a whole number of nanoseconds below `2 ^ 64` seconds, and a moment is such a number of
nanoseconds from the earliest moment there is. Adding a duration to a moment may leave the range;
the distance of two moments never does.
-/

namespace Backpressure

/-- Nanoseconds in one second. -/
abbrev nanosPerSecond : Nat := 1000000000

/-- A length of time, exact to the nanosecond. -/
structure Duration where
  /-- The whole length in nanoseconds. -/
  nanos : Nat
  /-- Whole seconds fill at most 64 bits. -/
  nanos_lt : nanos < 18446744073709551616 * nanosPerSecond
  deriving DecidableEq, Repr

namespace Duration

/-- No time at all. -/
def zero : Duration := ⟨0, by decide⟩

/-- The longest duration. -/
def longest : Duration := ⟨18446744073709551616 * nanosPerSecond - 1, by decide⟩

/-- The duration of a number of nanoseconds, or the longest one where that is out of range. -/
def ofNanos (nanos : Nat) : Duration :=
  if h : nanos < 18446744073709551616 * nanosPerSecond then ⟨nanos, h⟩ else longest

/-- The duration of a number of milliseconds, or the longest one where that is out of range. -/
def ofMillis (millis : Nat) : Duration := ofNanos (millis * 1000000)

/-- The duration of a number of seconds, or the longest one where that is out of range. -/
def ofSeconds (seconds : Nat) : Duration := ofNanos (seconds * nanosPerSecond)

/-- Seconds and nanoseconds together, where a billion nanoseconds or more carry into the seconds;
nothing where the seconds then leave their 64 bits. -/
def ofParts? (seconds nanos : Nat) : Option Duration :=
  if h : seconds * nanosPerSecond + nanos < 18446744073709551616 * nanosPerSecond then
    some ⟨seconds * nanosPerSecond + nanos, h⟩
  else none

/-- The whole seconds of a duration. -/
def seconds (d : Duration) : Nat := d.nanos / nanosPerSecond

/-- The nanoseconds beyond the whole seconds. -/
def subsecond (d : Duration) : Nat := d.nanos % nanosPerSecond

/-- Is this no time at all? -/
def isZero (d : Duration) : Bool := d.nanos == 0

end Duration

/-- A moment on a clock, exact to the nanosecond. -/
structure Instant where
  /-- Nanoseconds since the earliest moment. -/
  nanos : Nat
  /-- Whole seconds fill at most 64 bits. -/
  nanos_lt : nanos < 18446744073709551616 * nanosPerSecond
  deriving DecidableEq, Repr

namespace Instant

instance : LE Instant := ⟨fun a b => a.nanos ≤ b.nanos⟩

instance : LT Instant := ⟨fun a b => a.nanos < b.nanos⟩

instance (a b : Instant) : Decidable (a ≤ b) := inferInstanceAs (Decidable (a.nanos ≤ b.nanos))

instance (a b : Instant) : Decidable (a < b) := inferInstanceAs (Decidable (a.nanos < b.nanos))

instance : Min Instant := ⟨fun a b => if a ≤ b then a else b⟩

theorem le_def {a b : Instant} : a ≤ b ↔ a.nanos ≤ b.nanos := Iff.rfl

theorem lt_def {a b : Instant} : a < b ↔ a.nanos < b.nanos := Iff.rfl

/-- The moment a duration later, if it is still in range. -/
def add? (t : Instant) (d : Duration) : Option Instant :=
  if h : t.nanos + d.nanos < 18446744073709551616 * nanosPerSecond then
    some ⟨t.nanos + d.nanos, h⟩
  else none

/-- A later moment exists exactly where the sum is in range, and is that sum. -/
theorem add?_eq_some_iff {t u : Instant} {d : Duration} :
    t.add? d = some u ↔ u.nanos = t.nanos + d.nanos := by
  unfold add?
  constructor
  · intro h
    split at h
    · cases h
      rfl
    · contradiction
  · intro h
    have hlt := u.nanos_lt
    rw [h] at hlt
    rw [dif_pos hlt]
    cases u
    simp_all

/-- A later moment is missing exactly where the sum is out of range. -/
theorem add?_eq_none_iff {t : Instant} {d : Duration} :
    t.add? d = none ↔ 18446744073709551616 * nanosPerSecond ≤ t.nanos + d.nanos := by
  unfold add?
  split <;> simp_all

/-- The moment a duration earlier, or the earliest moment where that is out of range. -/
def back (t : Instant) (d : Duration) : Instant :=
  ⟨t.nanos - d.nanos, Nat.lt_of_le_of_lt (Nat.sub_le _ _) t.nanos_lt⟩

/-- The time from an earlier moment to this one, and no time if that moment is not earlier. -/
def since (t earlier : Instant) : Duration :=
  ⟨t.nanos - earlier.nanos, Nat.lt_of_le_of_lt (Nat.sub_le _ _) t.nanos_lt⟩

/-- The time from an earlier moment leads back to the later one. -/
theorem add?_since {earlier later : Instant} (h : earlier ≤ later) :
    earlier.add? (later.since earlier) = some later :=
  add?_eq_some_iff.2 (Nat.add_sub_of_le h).symm

/-- The moment a number of milliseconds later, or earlier where that is negative. -/
def shift (t : Instant) (millis : Int) : Instant :=
  if millis < 0 then t.back (.ofMillis millis.natAbs)
  else (t.add? (.ofMillis millis.toNat)).getD t

/-- The moment in the middle of the range, where clocks of a simulation start. -/
def midrange : Instant := ⟨9223372036854775808 * nanosPerSecond, by decide⟩

end Instant

/-- The moment at which a wait is given up; none for a wait without end. -/
abbrev Deadline := Option Instant

namespace Deadline

/-- The deadline a timeout from now; a timeout that leaves the range of moments sets none. -/
def after (now : Instant) (timeout : Duration) : Deadline := now.add? timeout

/-- Has the deadline come? A missing one never comes. -/
def reached (deadline : Deadline) (now : Instant) : Bool :=
  match deadline with
  | none => false
  | some moment => moment ≤ now

@[simp]
theorem reached_none (now : Instant) : reached none now = false := rfl

@[simp]
theorem reached_some (moment now : Instant) : reached (some moment) now = decide (moment ≤ now) :=
  rfl

/-- A deadline that has come has come for good. -/
theorem reached_of_le {deadline : Deadline} {now later : Instant} (hle : now ≤ later)
    (h : deadline.reached now = true) : deadline.reached later = true := by
  cases deadline with
  | none => contradiction
  | some moment =>
    rw [reached_some, decide_eq_true_eq] at h ⊢
    exact Nat.le_trans h hle

/-- The earlier of two deadlines. -/
def earlier (a b : Deadline) : Deadline :=
  match a, b with
  | none, b => b
  | a, none => a
  | some x, some y => some (min x y)

/-- The earlier of two deadlines is missing only where both are. -/
theorem earlier_eq_none_iff {a b : Deadline} : a.earlier b = none ↔ a = none ∧ b = none := by
  cases a <;> cases b <;> simp [earlier]

/-- The earlier of two deadlines is one of them. -/
theorem eq_or_eq_of_earlier {a b : Deadline} {moment : Instant}
    (h : a.earlier b = some moment) : a = some moment ∨ b = some moment := by
  cases a with
  | none => exact .inr h
  | some x =>
    cases b with
    | none => exact .inl h
    | some y =>
      by_cases hle : x ≤ y
      · exact .inl ((congrArg some (if_pos hle)).symm.trans h)
      · exact .inr ((congrArg some (if_neg hle)).symm.trans h)

/-- The earlier of two deadlines has come where one of them has. -/
theorem reached_earlier (a b : Deadline) (now : Instant) :
    (a.earlier b).reached now = (a.reached now || b.reached now) := by
  cases a with
  | none => rfl
  | some x =>
    cases b with
    | none => exact (Bool.or_false _).symm
    | some y =>
      have hmin : (earlier (some x) (some y)).reached now =
          decide ((if x ≤ y then x else y) ≤ now) := rfl
      rw [hmin, reached_some, reached_some, ← Bool.decide_or, decide_eq_decide]
      simp only [Instant.le_def]
      split <;> omega

end Deadline

end Backpressure
