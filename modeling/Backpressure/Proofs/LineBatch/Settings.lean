import Backpressure.LineBatch.Run
import Backpressure.Proofs.Settings

/-!
# Options of the batcher that are in order

The options are refused exactly where one of the numbers that they lead to is zero. Otherwise the
batcher begins with a full limiter, if there is one, and with a writer at its beginning.
-/

namespace Backpressure.LineBatch

/-- How many lines may wait: as many as the options say, or else twice as many as make a batch, up
to the largest number of 64 bits. -/
def Options.room (options : Options) : Nat :=
  options.channelSize.getD (min (options.maxSize * 2) 18446744073709551615)

/-- One of the numbers that the options lead to is zero. -/
def Options.HasZero (options : Options) : Prop :=
  options.rate = some 0 ∨ options.maxSize = 0 ∨ options.maxDuration = 0 ∨ options.room = 0

theorem nanos_ofMillis_pos_iff {millis : Nat} :
    0 < (Duration.ofMillis millis).nanos ↔ millis ≠ 0 := by
  unfold Duration.ofMillis Duration.ofNanos
  split
  · change 0 < millis * 1000000 ↔ millis ≠ 0
    omega
  · rename_i hlarge
    refine ⟨?_, fun _ => by decide⟩
    rintro _ rfl
    exact hlarge (by decide)

/-- The settings of the writer pass their check where none of their numbers is zero. -/
theorem validate_writerConfig {options : Options} :
    options.writerConfig.validate = .ok () ↔
      options.maxSize ≠ 0 ∧ options.maxDuration ≠ 0 ∧ options.room ≠ 0 := by
  rw [WriterConfig.validate_eq_ok_iff, ChannelConfig.validate_eq_ok_iff,
    BufferConfig.validate_eq_ok_iff]
  change (0 < options.room ∧ 0 < 1024) ∧
    0 < options.maxSize ∧ 0 < (Duration.ofMillis options.maxDuration).nanos ↔ _
  rw [nanos_ofMillis_pos_iff]
  omega

/-- The settings of the limiter pass their check where the rate is not zero. -/
theorem validate_rateConfig {rate : Nat} :
    ({ threshold := rate, period := .ofSeconds 1 } : RateConfig).validate = .ok () ↔ rate ≠ 0 := by
  rw [RateConfig.validate_eq_ok_iff]
  change 0 < rate ∧ 0 < (Duration.ofSeconds 1).nanos ↔ _
  have hsecond : 0 < (Duration.ofSeconds 1).nanos := by decide
  omega

theorem exists_error_of_ne_ok {check : Except ConfigError Unit} (h : check ≠ .ok ()) :
    ∃ error, check = .error error := by
  cases check with
  | error error => exact ⟨error, rfl⟩
  | ok => exact absurd rfl h

/-- The limiter at its beginning: one for a rate that is not zero, which admits so many lines in the
second after a reading of the clock. -/
def limiterOf (rate : Option Nat) (clock : Instant) (h : rate ≠ some 0) : Option Bucket :=
  match rate, h with
  | none, _ => none
  | some threshold, h =>
    some { threshold, period := .ofSeconds 1, tokens := threshold, checkpoint := clock
           threshold_pos := Nat.pos_of_ne_zero fun hzero => h (congrArg some hzero)
           period_pos := by decide }

/-- There is time for a number of windows of a limiter, if there is one. -/
def HasWindows (limiter : Option Bucket) (windows : Nat) : Prop :=
  ∀ bucket, limiter = some bucket →
    bucket.checkpoint.nanos + windows * bucket.period.nanos < 18446744073709551616 * nanosPerSecond

theorem HasWindows.mono {limiter : Option Bucket} {m n : Nat} (h : HasWindows limiter n)
    (hle : m ≤ n) : HasWindows limiter m := by
  intro bucket hbucket
  have hmul := Nat.mul_le_mul_right bucket.period.nanos hle
  have hclock := h bucket hbucket
  omega

/-- Does a reading begin the next window of a limiter, if there is one, and does so as soon as can
be? -/
def BeginsWindow (limiter : Option Bucket) (reading : Instant) : Prop :=
  ∀ bucket, limiter = some bucket →
    reading.nanos = bucket.checkpoint.nanos + bucket.period.nanos

theorem HasWindows.exists_reading {limiter : Option Bucket} {n : Nat}
    (h : HasWindows limiter (n + 1)) : ∃ reading, BeginsWindow limiter reading := by
  cases limiter with
  | none => exact ⟨.midrange, nofun⟩
  | some bucket =>
    have hclock := h bucket rfl
    rw [Nat.succ_mul] at hclock
    refine ⟨⟨bucket.checkpoint.nanos + bucket.period.nanos, by omega⟩, ?_⟩
    rintro _ ⟨⟩
    rfl

/-- A rate that is not zero makes a limiter. -/
theorem mapM_ofConfig {options : Options} (h : options.rate ≠ some 0) (clock : Instant) :
    options.rateConfig?.mapM (Bucket.ofConfig · clock) =
      .ok (limiterOf options.rate clock h) := by
  obtain ⟨join, maxSize, maxDuration, channelSize, rate⟩ := options
  cases rate with
  | none => rfl
  | some threshold =>
    have hvalid := validate_rateConfig.2 fun hzero => h (congrArg some hzero)
    obtain ⟨_, _, hmade⟩ := Bucket.ofConfig_eq_ok hvalid clock
    simp only [Options.rateConfig?, Option.map_some, Option.mapM_some, hmade]
    rfl

/-- A rate of zero is found by the check of the settings. -/
theorem mapM_ofConfig_zero {options : Options} (h : options.rate = some 0) (clock : Instant) :
    ∃ error, options.rateConfig?.mapM (Bucket.ofConfig · clock) = .error (.config error) := by
  have hinvalid : ({ threshold := 0, period := .ofSeconds 1 } : RateConfig).validate ≠ .ok () :=
    fun hvalid => validate_rateConfig.1 hvalid rfl
  obtain ⟨error, herror⟩ := exists_error_of_ne_ok hinvalid
  refine ⟨error, ?_⟩
  simp only [Options.rateConfig?, h, Option.map_some, Option.mapM_some,
    Bucket.ofConfig_eq_error herror]
  rfl

/-- Options with a zero are refused by the check of the settings, before any contract is broken. -/
theorem ofOptions_of_hasZero {options : Options} (h : options.HasZero) (clock : Instant) :
    ∃ error, Job.ofOptions options clock = .error (.config error) := by
  by_cases hrate : options.rate = some 0
  · obtain ⟨error, hrefused⟩ := mapM_ofConfig_zero hrate clock
    refine ⟨error, ?_⟩
    rw [Job.ofOptions, hrefused]
    rfl
  · have hinvalid : options.writerConfig.validate ≠ .ok () := by
      rw [Ne, validate_writerConfig]
      rintro ⟨hsize, hduration, hroom⟩
      rcases h with hzero | hzero | hzero | hzero <;> contradiction
    obtain ⟨error, herror⟩ := exists_error_of_ne_ok hinvalid
    refine ⟨error, ?_⟩
    rw [Job.ofOptions, mapM_ofConfig hrate, Writer.ofConfig_eq_error herror]
    rfl

/-- Options without a zero make a limiter, if they say so, and a writer at its beginning. -/
theorem ofOptions_of_not_hasZero {options : Options} (h : ¬ options.HasZero) (clock : Instant) :
    ∃ hrate hroom herrors hsize hduration, Job.ofOptions options clock =
      .ok { limiter := limiterOf options.rate clock hrate
            writer := .begin (.empty options.room 1024 hroom herrors)
              (.empty options.maxSize (.ofMillis options.maxDuration) hsize hduration) } := by
  simp only [Options.HasZero, not_or] at h
  obtain ⟨hrate, hvalid⟩ := h
  obtain ⟨hroom, herrors, hsize, hduration, hmade⟩ :=
    Writer.ofConfig_eq_ok (α := String) (validate_writerConfig.2 hvalid)
  refine ⟨hrate, hroom, herrors, hsize, hduration, ?_⟩
  rw [Job.ofOptions, mapM_ofConfig hrate, hmade]
  rfl

end Backpressure.LineBatch
