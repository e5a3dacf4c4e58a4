import Mathlib.Tactic.ByContra
import Backpressure.Proofs.Bucket.Effect

/-!
# Waits for the end of a window

An acquisition that finds no token looks again when the window ends, or at its deadline. The end is
a period after the checkpoint, and what is missing to it is measured with the reading that found no
token, while the wait itself is measured in real time. So a wait is as long as a clock that goes
along with time takes to the end, and it has no moment only where it has no deadline and the end is
out of range.
-/

namespace Backpressure.Bucket

variable {b : Bucket} {reading now : Instant} {deadline : Deadline}

/-! ### The end and the readings -/

/-- A reading begins a new window exactly where the window has an end and the end has come. -/
theorem isOver_iff_windowEnd : b.isOver reading = true ↔
    ∃ windowEnd, b.checkpoint.add? b.period = some windowEnd ∧ windowEnd ≤ reading := by
  rw [isOver_iff]
  constructor
  · intro hover
    exact ⟨⟨_, Nat.lt_of_le_of_lt hover reading.nanos_lt⟩, Instant.add?_eq_some_iff.2 rfl, hover⟩
  · rintro ⟨windowEnd, hend, hcome⟩
    rwa [Instant.le_def, Instant.add?_eq_some_iff.1 hend] at hcome

/-- A window without an end is not over at any reading. -/
theorem isOver_of_endless (hendless : b.windowEnd? = none) (reading : Instant) :
    b.isOver reading = false := by
  by_contra hover
  obtain ⟨windowEnd, hend, _⟩ := isOver_iff_windowEnd.1 (eq_true_of_ne_false hover)
  exact absurd (hendless.symm.trans hend) nofun

/-- Nothing is said to be left of a window only where its end is out of range. -/
theorem untilRefill_eq_none_iff : b.untilRefill reading = none ↔
    18446744073709551616 * nanosPerSecond ≤ b.checkpoint.nanos + b.period.nanos :=
  Option.map_eq_none_iff.trans Instant.add?_eq_none_iff

/-- A time that is left of a window that is not over is some time. -/
theorem untilRefill_pos {left : Duration} (hwithin : b.isOver reading = false)
    (hleft : b.untilRefill reading = some left) : 0 < left.nanos := by
  obtain ⟨windowEnd, hend, rfl⟩ := Option.map_eq_some_iff.1 hleft
  have hnanos := Instant.add?_eq_some_iff.1 hend
  have hlater := ne_true_of_eq_false hwithin
  rw [isOver_iff] at hlater
  change 0 < windowEnd.nanos - reading.nanos
  omega

/-- What is left of a window that is not over leads from the reading to the end. -/
theorem add?_untilRefill {windowEnd : Instant} (hwithin : b.isOver reading = false)
    (hend : b.windowEnd? = some windowEnd) :
    b.untilRefill reading = some (windowEnd.since reading) ∧
      0 < (windowEnd.since reading).nanos ∧
      reading.add? (windowEnd.since reading) = some windowEnd := by
  have hleft : b.untilRefill reading = some (windowEnd.since reading) := by
    rw [untilRefill, hend]
    rfl
  have hearly : reading ≤ windowEnd := by
    by_contra hlate
    rw [isOver_iff_windowEnd.2 ⟨windowEnd, hend, Nat.le_of_not_le hlate⟩] at hwithin
    contradiction
  exact ⟨hleft, untilRefill_pos hwithin hleft, Instant.add?_since hearly⟩

/-! ### Clocks that go along with time -/

section Along

variable {elapsed : Duration} {later present : Instant} (hlater : reading.add? elapsed = some later)
include hlater

/-- A window is over once the time that was left of it has passed on the clock, and not before. -/
theorem isOver_iff_elapsed {left : Duration} (hwithin : b.isOver reading = false)
    (hleft : b.untilRefill reading = some left) :
    b.isOver later = true ↔ left.nanos ≤ elapsed.nanos := by
  obtain ⟨windowEnd, hend, rfl⟩ := Option.map_eq_some_iff.1 hleft
  have hnanos := Instant.add?_eq_some_iff.1 hend
  have hfrom := Instant.add?_eq_some_iff.1 (add?_untilRefill hwithin hend).2.2
  rw [isOver_iff, Instant.add?_eq_some_iff.1 hlater]
  omega

/-- The moment that is chosen for the end of a window has come exactly when the window is over on a
clock that has gone along with time since. -/
theorem reached_windowEnd (hpresent : now.add? elapsed = some present)
    (hwithin : b.isOver reading = false) :
    Deadline.reached ((b.untilRefill reading).bind now.add?) present = b.isOver later := by
  cases hleft : b.untilRefill reading with
  | none => exact (isOver_of_endless (Option.map_eq_none_iff.1 hleft) later).symm
  | some left =>
    rw [Option.bind_some, Bool.eq_iff_iff, isOver_iff_elapsed hlater hwithin hleft]
    have hnow := Instant.add?_eq_some_iff.1 hpresent
    cases hmoment : now.add? left with
    | none =>
      -- the moment is out of range, which time has not left
      have hbeyond := Instant.add?_eq_none_iff.1 hmoment
      have hrange := present.nanos_lt
      rw [Deadline.reached_none]
      simp only [Bool.false_eq_true, false_iff]
      omega
    | some moment =>
      rw [Deadline.reached_some, decide_eq_true_iff, Instant.le_def, hnow,
        Instant.add?_eq_some_iff.1 hmoment]
      omega

/-- A wait has come to its moment exactly when the window is over on a clock that has gone along
with time since, or the deadline has come. -/
theorem reached_wakeAt (hpresent : now.add? elapsed = some present)
    (hwithin : b.isOver reading = false) :
    (b.wakeAt reading now deadline).reached present =
      (b.isOver later || deadline.reached present) := by
  rw [wakeAt, Deadline.reached_earlier, reached_windowEnd hlater hpresent hwithin]

end Along

/-! ### The choice of a moment -/

/-- A wait in a window without an end has its deadline alone. -/
theorem wakeAt_of_endless (hendless : b.windowEnd? = none) :
    b.wakeAt reading now deadline = deadline := by
  rw [wakeAt, untilRefill, hendless]
  rfl

/-- A wait has no moment only where it has no deadline, and what is left of the window, if it ends
at all, leads out of range. -/
theorem wakeAt_eq_none_iff : b.wakeAt reading now deadline = none ↔
    deadline = none ∧ ∀ windowEnd, b.checkpoint.add? b.period = some windowEnd →
      now.add? (windowEnd.since reading) = none := by
  rw [wakeAt, Deadline.earlier_eq_none_iff, and_comm, untilRefill, windowEnd?]
  cases b.checkpoint.add? b.period <;> simp

/-- A clock that is no later than real time reaches the end of the window by the moment that is
chosen for it. -/
theorem isOver_of_windowEnd {moment later : Instant}
    (hmoment : (b.untilRefill reading).bind now.add? = some moment) (hreading : reading ≤ now)
    (hlater : moment ≤ later) : b.isOver later = true := by
  obtain ⟨left, hleft, hadd⟩ := Option.bind_eq_some_iff.1 hmoment
  obtain ⟨windowEnd, hend, rfl⟩ := Option.map_eq_some_iff.1 hleft
  have hnanos := Instant.add?_eq_some_iff.1 hend
  have hchosen : moment.nanos = now.nanos + (windowEnd.nanos - reading.nanos) :=
    Instant.add?_eq_some_iff.1 hadd
  rw [Instant.le_def] at hreading hlater
  rw [isOver_iff]
  omega

/-- A wait lasts some time. -/
theorem lt_of_wakeAt {moment : Instant} (hwithin : b.isOver reading = false)
    (hearly : deadline.reached now = false)
    (hmoment : b.wakeAt reading now deadline = some moment) : now < moment := by
  rw [Instant.lt_def]
  rcases Deadline.eq_or_eq_of_earlier hmoment with hend | rfl
  · obtain ⟨left, hleft, hadd⟩ := Option.bind_eq_some_iff.1 hend
    rw [Instant.add?_eq_some_iff.1 hadd]
    exact Nat.lt_add_of_pos_right (untilRefill_pos hwithin hleft)
  · rw [Deadline.reached_some, decide_eq_false_iff_not] at hearly
    exact Nat.lt_of_not_le hearly

/-- A wait does not last longer than what was left of the window. -/
theorem le_of_wakeAt {moment windowEnd : Instant} (hwithin : b.isOver reading = false)
    (hend : b.windowEnd? = some windowEnd)
    (hmoment : b.wakeAt reading now deadline = some moment) :
    moment.nanos - now.nanos ≤ windowEnd.nanos - reading.nanos := by
  have hleads := (add?_untilRefill hwithin hend).2.2
  cases hpresent : now.add? (windowEnd.since reading) with
  | none =>
    have hbeyond : _ ≤ now.nanos + (windowEnd.nanos - reading.nanos) :=
      Instant.add?_eq_none_iff.1 hpresent
    have hrange := moment.nanos_lt
    omega
  | some present =>
    have hover : b.isOver windowEnd = true :=
      isOver_iff_windowEnd.2 ⟨windowEnd, hend, Nat.le_refl _⟩
    have hreached : (b.wakeAt reading now deadline).reached present = true := by
      rw [reached_wakeAt hleads hpresent hwithin, hover, Bool.true_or]
    rw [hmoment, Deadline.reached_some, decide_eq_true_iff] at hreached
    have hnanos : present.nanos = now.nanos + (windowEnd.nanos - reading.nanos) :=
      Instant.add?_eq_some_iff.1 hpresent
    rw [Instant.le_def, hnanos] at hreached
    omega

/-- What is right about a wait that begins at a moment, when the clock shows a reading. -/
structure WaitsRight (b : Bucket) (reading now : Instant) (deadline wakeAt : Deadline) : Prop where
  /-- No token is left of a window that is not over. -/
  within : b.isOver reading = false
  spent : b.tokens = 0
  /-- If the window has no end, the wait has its deadline alone. -/
  endless : b.windowEnd? = none → wakeAt = deadline
  /-- If it has, some time is left of it, which leads to the end without loss; once it has passed on
  the clock, and not before, the window is over. -/
  left : ∀ windowEnd, b.windowEnd? = some windowEnd → ∃ left, b.untilRefill reading = some left ∧
    0 < left.nanos ∧ reading.add? left = some windowEnd ∧
    ∀ elapsed later, reading.add? elapsed = some later →
      (b.isOver later = true ↔ left.nanos ≤ elapsed.nanos)
  /-- If the clock goes along with time, the wait lasts until the window is over or the deadline has
  come, neither shorter nor longer. -/
  exact : ∀ elapsed later present, reading.add? elapsed = some later →
    now.add? elapsed = some present →
    wakeAt.reached present = (b.isOver later || deadline.reached present)
  /-- The moment of a wait lies ahead, and the time to it from any moment before it is what is
  missing. -/
  ahead : ∀ moment, wakeAt = some moment → now < moment ∧ ∀ present, present < moment →
    0 < (moment.since present).nanos ∧ present.add? (moment.since present) = some moment

theorem waitsRight_wakeAt (hwithin : b.isOver reading = false) (hspent : b.tokens = 0)
    (hearly : deadline.reached now = false) :
    WaitsRight b reading now deadline (b.wakeAt reading now deadline) := by
  refine ⟨hwithin, hspent, wakeAt_of_endless, ?_, ?_, ?_⟩
  · intro windowEnd hend
    obtain ⟨hleft, hsome, hleads⟩ := add?_untilRefill hwithin hend
    exact ⟨_, hleft, hsome, hleads, fun _ _ hlater => isOver_iff_elapsed hlater hwithin hleft⟩
  · intro elapsed later present hlater hpresent
    exact reached_wakeAt hlater hpresent hwithin
  · intro moment hmoment
    refine ⟨lt_of_wakeAt hwithin hearly hmoment, ?_⟩
    intro present hbefore
    exact ⟨Nat.sub_pos_of_lt hbefore, Instant.add?_since (Nat.le_of_lt hbefore)⟩

/-! ### Looks for a token -/

/-- What an acquisition comes to that finds no token. -/
theorem outcome_of_spent (hspent : (b.refill reading).take? = none) :
    (stepAcquire b now reading deadline).outcome =
      if deadline.reached now then .reply (.acquired false)
      else .sleep .refilled (b.wakeAt reading now deadline) (.resume deadline b.checkpoint) := by
  rw [stepAcquire, atReading_eq, hspent, refill_of_spent hspent]
  cases deadline.reached now <;> rfl

/-- An acquisition that finds the window over or its deadline come returns. It has a token exactly
in a new window, if there was none left in the old one. -/
theorem outcome_stepAcquire (hspent : b.tokens = 0)
    (hlate : b.isOver reading = true ∨ deadline.reached now = true) :
    (stepAcquire b now reading deadline).outcome = .reply (.acquired (b.isOver reading)) := by
  cases htake : (b.refill reading).take? with
  | some b' =>
    have hover : b.isOver reading = true := by
      by_contra hwithin
      rw [take?_refill_eq_none_iff.2 ⟨eq_false_of_ne_true hwithin, hspent⟩] at htake
      contradiction
    rw [stepAcquire, atReading_eq, htake, hover]
  | none =>
    have hwithin := (take?_refill_eq_none_iff.1 htake).1
    rw [hwithin] at hlate
    rw [outcome_of_spent htake, hwithin, if_pos (hlate.resolve_left Bool.false_ne_true)]

/-- An acquisition waits only where it finds no token before its deadline, and waits right. -/
theorem waitsRight {condition : Condition} {wakeAt : Deadline} {place : Position}
    (hsleep : (stepAcquire b now reading deadline).outcome = .sleep condition wakeAt place) :
    WaitsRight b reading now deadline wakeAt := by
  cases htake : (b.refill reading).take? with
  | some b' =>
    rw [stepAcquire, atReading_eq, htake] at hsleep
    contradiction
  | none =>
    obtain ⟨hwithin, hspent⟩ := take?_refill_eq_none_iff.1 htake
    rw [outcome_of_spent htake] at hsleep
    split at hsleep
    · contradiction
    · rename_i hearly
      cases hsleep
      exact waitsRight_wakeAt hwithin hspent (eq_false_of_ne_true hearly)

end Backpressure.Bucket
