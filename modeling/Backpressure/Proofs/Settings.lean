import Backpressure.Bucket.Basic
import Backpressure.Writer.Basic

/-!
# Settings that pass their check

A check of settings refuses exactly the zeros. What it lets pass keeps the contracts of the
primitives, so that a channel, a buffer or a writer with such settings can always be made.
-/

namespace Backpressure

theorem ChannelConfig.validate_eq_ok_iff {config : ChannelConfig} :
    config.validate = .ok () ↔ 0 < config.capacity ∧ 0 < config.errorCapacity := by
  unfold validate
  split
  · simp_all
  · split
    · simp_all
    · simp only [true_iff]
      omega

theorem BufferConfig.validate_eq_ok_iff {config : BufferConfig} :
    config.validate = .ok () ↔ 0 < config.limit ∧ 0 < config.interval.nanos := by
  unfold validate Duration.isZero
  split
  · simp_all
  · split
    · simp_all
    · rename_i hlimit hinterval
      rw [beq_iff_eq] at hinterval
      simp only [true_iff]
      omega

theorem WriterConfig.validate_eq_ok_iff {config : WriterConfig} :
    config.validate = .ok () ↔
      config.channel.validate = .ok () ∧ config.buffer.validate = .ok () := by
  unfold validate
  cases config.channel.validate with
  | error error => simp [bind, Except.bind]
  | ok => simp [bind, Except.bind]

theorem RateConfig.validate_eq_ok_iff {config : RateConfig} :
    config.validate = .ok () ↔ 0 < config.threshold ∧ 0 < config.period.nanos := by
  unfold validate Duration.isZero
  split
  · simp_all
  · split
    · simp_all
    · rename_i hthreshold hperiod
      rw [beq_iff_eq] at hperiod
      simp only [true_iff]
      omega

/-- A channel with settings that pass their check is empty and open. -/
theorem Channel.ofConfig_eq_ok {α : Type} {config : ChannelConfig} (h : config.validate = .ok ()) :
    ∃ hcapacity herrors, ofConfig (α := α) config =
      .ok (.empty config.capacity config.errorCapacity hcapacity herrors) := by
  obtain ⟨hcapacity, herrors⟩ := ChannelConfig.validate_eq_ok_iff.1 h
  refine ⟨hcapacity, herrors, ?_⟩
  rw [ofConfig, h, build, dif_pos hcapacity, dif_pos herrors]
  rfl

/-- A buffer with settings that pass their check is empty. -/
theorem Buffer.ofConfig_eq_ok {α : Type} {config : BufferConfig} (h : config.validate = .ok ()) :
    ∃ hlimit hinterval, ofConfig (α := α) config =
      .ok (.empty config.limit config.interval hlimit hinterval) := by
  obtain ⟨hlimit, hinterval⟩ := BufferConfig.validate_eq_ok_iff.1 h
  refine ⟨hlimit, hinterval, ?_⟩
  rw [ofConfig, h, create, dif_pos hlimit, dif_pos hinterval]
  rfl

/-- A writer with settings that pass their check is at its beginning, with an empty channel and an
empty buffer. -/
theorem Writer.ofConfig_eq_ok {α : Type} {config : WriterConfig} (h : config.validate = .ok ()) :
    ∃ hcapacity herrors hlimit hinterval, ofConfig (α := α) config =
      .ok (begin (.empty config.channel.capacity config.channel.errorCapacity hcapacity herrors)
        (.empty config.buffer.limit config.buffer.interval hlimit hinterval)) := by
  obtain ⟨hchannel, hbuffer⟩ := WriterConfig.validate_eq_ok_iff.1 h
  obtain ⟨hcapacity, herrors, hmade⟩ := Channel.ofConfig_eq_ok (α := α) hchannel
  obtain ⟨hlimit, hinterval, hmade'⟩ := Buffer.ofConfig_eq_ok (α := α) hbuffer
  refine ⟨hcapacity, herrors, hlimit, hinterval, ?_⟩
  rw [ofConfig, h, hmade, hmade']
  rfl

/-- A token bucket with settings that pass their check is full. -/
theorem Bucket.ofConfig_eq_ok {config : RateConfig} (h : config.validate = .ok ())
    (reading : Instant) :
    ∃ hthreshold hperiod, ofConfig config reading =
      .ok { threshold := config.threshold, period := config.period, tokens := config.threshold,
            checkpoint := reading, threshold_pos := hthreshold, period_pos := hperiod } := by
  obtain ⟨hthreshold, hperiod⟩ := RateConfig.validate_eq_ok_iff.1 h
  refine ⟨hthreshold, hperiod, ?_⟩
  rw [ofConfig, h, create, dif_pos hthreshold, dif_pos hperiod]
  rfl

/-- A channel with settings that do not pass their check is not made. -/
theorem Channel.ofConfig_eq_error {α : Type} {config : ChannelConfig} {error : ConfigError}
    (h : config.validate = .error error) : ofConfig (α := α) config = .error (.config error) := by
  rw [ofConfig, h]
  rfl

/-- A buffer with settings that do not pass their check is not made. -/
theorem Buffer.ofConfig_eq_error {α : Type} {config : BufferConfig} {error : ConfigError}
    (h : config.validate = .error error) : ofConfig (α := α) config = .error (.config error) := by
  rw [ofConfig, h]
  rfl

/-- A token bucket with settings that do not pass their check is not made. -/
theorem Bucket.ofConfig_eq_error {config : RateConfig} {error : ConfigError}
    (h : config.validate = .error error) (reading : Instant) :
    ofConfig config reading = .error (.config error) := by
  rw [ofConfig, h]
  rfl

/-- A writer with settings that do not pass their check is not made. -/
theorem Writer.ofConfig_eq_error {α : Type} {config : WriterConfig} {error : ConfigError}
    (h : config.validate = .error error) : ofConfig (α := α) config = .error (.config error) := by
  rw [ofConfig, h]
  rfl

end Backpressure
