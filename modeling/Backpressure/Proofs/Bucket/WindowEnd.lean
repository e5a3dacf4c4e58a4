import Backpressure.Proofs.Bucket.Waking

/-!
# The end of a window

A reading of the clock begins a new window if a period has passed since the checkpoint, while a wait
for the new window is computed from its end, a period after the checkpoint. Both are about the same
moment. Where that moment is out of range, no reading that there is begins a new window, and a wait
has its deadline alone. Where it is not, a wait before it is as long as a clock that goes along with
time takes to get there.
-/

namespace Backpressure.Bucket

/-- Where no token is left of a window without an end, it stays so. -/
theorem state_eq_of_endless {s s' : System monitor} (h : s.Reachable s')
    (hendless : s.state.windowEnd? = none) (hspent : s.state.tokens = 0) :
    s'.state = s.state ∧ refills s' = refills s := by
  induction h with
  | start => exact ⟨rfl, rfl⟩
  | @next between s' event _ hnext ih =>
    obtain ⟨hstate, hrefills⟩ := ih
    have hchange := System.next_eq_some_iff.1 hnext
    have hsame : refills s' = refills between := by
      rcases hchange.moves with ⟨_, hnotes⟩ | ⟨_, moment, _, place, move, _, _, moves, hlayout⟩
      · rw [refills, refills, hnotes]
      · cases moves
        rw [refills_of_layout hlayout (effect between.state between.now place moment), begins,
          hstate, isOver_of_endless hendless, Bool.and_false, if_neg Bool.false_ne_true,
          List.append_nil]
    have hkept := state_eq_of_change hchange (hstate ▸ hspent) hsame
    exact ⟨hkept.trans hstate, hsame.trans hrefills⟩

/-- The two ways to tell the end of a window agree, for every checkpoint, period and reading, up to
the last moment there is. A reading begins a new window exactly where the end of the window is in
range and has come; the end is missing exactly where it is out of range. Then no reading begins a
new window, and once no token is left nothing ever changes and an acquisition can only wait for its
deadline. Whatever else an acquisition waits for is right: if the window has an end, the wait is as
long as a clock that goes along with time takes to reach it, which is some time. No difference of
moments and no sum is cut off, and a token is taken only where there is one. -/
theorem window_end_agrees (b : Bucket) (reading : Instant) :
    (b.isOver reading = true ↔
      ∃ windowEnd, b.checkpoint.add? b.period = some windowEnd ∧ windowEnd ≤ reading) ∧
      b.refill reading =
        (if b.isOver reading then { b with tokens := b.threshold, checkpoint := reading } else b) ∧
      (b.checkpoint.add? b.period = none ↔
        18446744073709551616 * nanosPerSecond ≤ b.checkpoint.nanos + b.period.nanos) ∧
      (b.checkpoint.add? b.period = none → (∀ later, b.isOver later = false) ∧
        (b.tokens = 0 → ∀ s s' : System monitor, s.state = b → s.Reachable s' →
          s'.state = b ∧ refills s' = refills s ∧
          ∀ later now deadline, (stepAcquire s'.state now later deadline).outcome =
            if deadline.reached now then .reply (.acquired false)
            else .sleep .refilled deadline (.resume deadline b.checkpoint))) ∧
      (∀ now deadline condition wakeAt place,
        (stepAcquire b now reading deadline).outcome = .sleep condition wakeAt place →
          WaitsRight b reading now deadline wakeAt) ∧
      (b.checkpoint ≤ reading → b.checkpoint.add? (reading.since b.checkpoint) = some reading) ∧
      ∀ b', (b.refill reading).take? = some b' → b'.tokens + 1 = (b.refill reading).tokens := by
  refine ⟨isOver_iff_windowEnd, rfl, Instant.add?_eq_none_iff, ?_, ?_, Instant.add?_since, ?_⟩
  · intro hendless
    refine ⟨isOver_of_endless hendless, ?_⟩
    rintro hspent s s' rfl hlater
    obtain ⟨hstate, hrefills⟩ := state_eq_of_endless hlater hendless hspent
    refine ⟨hstate, hrefills, ?_⟩
    intro later now deadline
    have hnone := take?_refill_eq_none_iff.2 ⟨isOver_of_endless hendless later, hspent⟩
    rw [hstate, outcome_of_spent hnone, wakeAt_of_endless hendless]
  · intro now deadline condition wakeAt place hsleep
    exact waitsRight hsleep
  · intro b' htake
    obtain ⟨hleft, rfl⟩ := take?_eq_some_iff.1 htake
    exact Nat.sub_add_cancel hleft

/-- What a clock shows so many nanoseconds before the last moment that there is. -/
def beforeLast (nanos : Nat) : Instant :=
  Instant.back ⟨Duration.longest.nanos, Duration.longest.nanos_lt⟩ (.ofNanos nanos)

/-- A bucket without a token, whose window began five nanoseconds before the last moment. -/
def lastWindow (period : Duration) (period_pos : 0 < period.nanos) : Bucket :=
  { threshold := 1, period, tokens := 0, checkpoint := beforeLast 5,
    threshold_pos := Nat.one_pos, period_pos }

theorem window_end_agrees_lastWindow :
    (stepAcquire (lastWindow ⟨3, by decide⟩ (by decide)) (clockAt 100) (beforeLast 4)
        none).outcome = .sleep .refilled (some (clockAt 102)) (.resume none (beforeLast 5)) ∧
      WaitsRight (lastWindow ⟨3, by decide⟩ (by decide)) (beforeLast 4) (clockAt 100) none
        (some (clockAt 102)) ∧
      (lastWindow ⟨6, by decide⟩ (by decide)).checkpoint.add? ⟨6, by decide⟩ = none ∧
      ∀ later, (lastWindow ⟨6, by decide⟩ (by decide)).isOver later = false := by
  have hsleep : (stepAcquire (lastWindow ⟨3, by decide⟩ (by decide)) (clockAt 100) (beforeLast 4)
      none).outcome = .sleep .refilled (some (clockAt 102)) (.resume none (beforeLast 5)) := rfl
  have hendless :
      (lastWindow ⟨6, by decide⟩ (by decide)).checkpoint.add? ⟨6, by decide⟩ = none := by
    decide +kernel
  obtain ⟨_, _, _, _, hwaits, _⟩ :=
    window_end_agrees (lastWindow ⟨3, by decide⟩ (by decide)) (beforeLast 4)
  obtain ⟨_, _, _, hnever, _⟩ :=
    window_end_agrees (lastWindow ⟨6, by decide⟩ (by decide)) (beforeLast 4)
  exact ⟨hsleep, hwaits _ _ _ _ _ hsleep, hendless, (hnever hendless).1⟩

end Backpressure.Bucket
