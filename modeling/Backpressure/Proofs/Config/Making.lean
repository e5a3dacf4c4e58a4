import Backpressure.Proofs.Config.Reading
import Backpressure.Proofs.Settings

/-!
# What settings make

Settings make a primitive exactly where none of them is zero. Where some are, the first of them in
the order of the fields is the error, and the primitive is never asked to break a contract. Together
with the reading of settings this leads from a value to a primitive.
-/

namespace Backpressure

/-! ### Settings of zero -/

namespace ConfigError

/-- A setting of zero is a fault. -/
def ifZero (error : ConfigError) (number : Nat) : List ConfigError :=
  if number = 0 then [error] else []

theorem ifZero_append_eq_nil_iff {error error' : ConfigError} {number number' : Nat} :
    error.ifZero number ++ error'.ifZero number' = [] ↔ number ≠ 0 ∧ number' ≠ 0 := by
  simp [ifZero]

/-- The check that fails with the first of some faults. -/
def firstOf : List ConfigError → Except ConfigError Unit
  | [] => .ok ()
  | error :: _ => .error error

/-- Of two settings, the first is checked before the second. -/
theorem firstOf_ifZero_append (error error' : ConfigError) (number number' : Nat) :
    firstOf (error.ifZero number ++ error'.ifZero number') =
      if number = 0 then .error error else if number' = 0 then .error error' else .ok () := by
  unfold ifZero
  split
  · rfl
  · split <;> rfl

/-- One check after the other fails with the first fault of the two. -/
theorem firstOf_append (faults faults' : List ConfigError) :
    firstOf (faults ++ faults') = firstOf faults >>= fun _ => firstOf faults' := by
  cases faults <;> rfl

end ConfigError

open ConfigError

/-- The settings that are zero, in the order of the fields. -/
def ChannelConfig.faults (config : ChannelConfig) : List ConfigError :=
  zeroCapacity.ifZero config.capacity ++ zeroErrorCapacity.ifZero config.errorCapacity

/-- The settings that are zero, in the order of the fields. -/
def BufferConfig.faults (config : BufferConfig) : List ConfigError :=
  zeroLimit.ifZero config.limit ++ zeroInterval.ifZero config.interval.nanos

/-- The settings that are zero, in the order of the fields. -/
def RateConfig.faults (config : RateConfig) : List ConfigError :=
  zeroThreshold.ifZero config.threshold ++ zeroPeriod.ifZero config.period.nanos

/-- The settings that are zero, those of the channel before those of the buffer. -/
def WriterConfig.faults (config : WriterConfig) : List ConfigError :=
  config.channel.faults ++ config.buffer.faults

/-! ### Checks -/

theorem ChannelConfig.validate_eq (config : ChannelConfig) :
    config.validate = firstOf config.faults := by
  rw [faults, firstOf_ifZero_append, validate]

theorem BufferConfig.validate_eq (config : BufferConfig) :
    config.validate = firstOf config.faults := by
  rw [faults, firstOf_ifZero_append, validate]
  simp only [Duration.isZero, beq_iff_eq]

theorem RateConfig.validate_eq (config : RateConfig) :
    config.validate = firstOf config.faults := by
  rw [faults, firstOf_ifZero_append, validate]
  simp only [Duration.isZero, beq_iff_eq]

theorem WriterConfig.validate_eq (config : WriterConfig) :
    config.validate = firstOf config.faults := by
  rw [faults, firstOf_append, ← ChannelConfig.validate_eq, ← BufferConfig.validate_eq, validate]

/-! ### Primitives -/

/-- Settings make a primitive: one as it is when it is new, exactly where they are all positive; and
where they are not, the first fault is the error, and no contract is broken. -/
structure Makes {Record Primitive : Type} (Positive : Record → Prop)
    (faults : Record → List ConfigError) (New : Record → Primitive → Prop)
    (make : Record → Except Refusal Primitive) : Prop where
  made_iff (config : Record) : (∃ primitive, make config = .ok primitive) ↔ Positive config
  new {config : Record} {primitive : Primitive} (made : make config = .ok primitive) :
    New config primitive
  refused {config : Record} (some_zero : ¬ Positive config) :
    ∃ error, (faults config).head? = some error ∧ make config = .error (.config error)
  contract_kept (config : Record) (broken : BrokenContract) :
    make config ≠ .error (.contract broken)

/-- Settings make a primitive if a check finds their first fault, a primitive is made of settings
that pass it, and its error is passed on. -/
theorem Makes.of_validate {Record Primitive : Type} {Positive : Record → Prop}
    {faults : Record → List ConfigError} {New : Record → Primitive → Prop}
    {make : Record → Except Refusal Primitive} {validate : Record → Except ConfigError Unit}
    (hpositive : ∀ config, faults config = [] ↔ Positive config)
    (hvalidate : ∀ config, validate config = firstOf (faults config))
    (hok : ∀ {config}, validate config = .ok () →
      ∃ primitive, make config = .ok primitive ∧ New config primitive)
    (herror : ∀ {config error}, validate config = .error error →
      make config = .error (.config error)) :
    Makes Positive faults New make := by
  have hmake (config : Record) :
      (faults config = [] ∧ ∃ primitive, make config = .ok primitive ∧ New config primitive) ∨
        ∃ error rest, faults config = error :: rest ∧ make config = .error (.config error) := by
    have hfirst := hvalidate config
    cases hfaults : faults config with
    | nil =>
      rw [hfaults] at hfirst
      exact .inl ⟨rfl, hok hfirst⟩
    | cons error rest =>
      rw [hfaults] at hfirst
      exact .inr ⟨error, rest, rfl, herror hfirst⟩
  constructor
  case made_iff =>
    intro config
    rw [← hpositive]
    obtain ⟨hfaults, primitive, hmade, -⟩ | ⟨error, rest, hfaults, hrefused⟩ := hmake config
    · exact iff_of_true ⟨primitive, hmade⟩ hfaults
    · rw [hfaults, hrefused]
      exact iff_of_false nofun nofun
  case new =>
    intro config primitive hmade
    obtain ⟨-, new, hnew, his⟩ | ⟨error, rest, -, hrefused⟩ := hmake config
    · cases hmade.symm.trans hnew
      exact his
    · cases hmade.symm.trans hrefused
  case refused =>
    intro config hzero
    obtain ⟨hfaults, -⟩ | ⟨error, rest, hfaults, hrefused⟩ := hmake config
    · exact absurd ((hpositive config).1 hfaults) hzero
    · rw [hfaults]
      exact ⟨error, rfl, hrefused⟩
  case contract_kept =>
    intro config broken hbroken
    obtain ⟨-, primitive, hmade, -⟩ | ⟨error, rest, -, hrefused⟩ := hmake config
    · cases hbroken.symm.trans hmade
    · cases hbroken.symm.trans hrefused

/-! ### The settings of the primitives -/

/-- All settings of a channel are positive. -/
structure ChannelConfig.Positive (config : ChannelConfig) : Prop where
  capacity : config.capacity ≠ 0
  errorCapacity : config.errorCapacity ≠ 0

/-- All settings of a buffer are positive. -/
structure BufferConfig.Positive (config : BufferConfig) : Prop where
  limit : config.limit ≠ 0
  interval : config.interval ≠ .zero

/-- All settings of a token bucket are positive. -/
structure RateConfig.Positive (config : RateConfig) : Prop where
  threshold : config.threshold ≠ 0
  period : config.period ≠ .zero

/-- All settings of a writer are positive. -/
structure WriterConfig.Positive (config : WriterConfig) : Prop where
  channel : config.channel.Positive
  buffer : config.buffer.Positive

theorem Duration.nanos_ne_zero_iff {d : Duration} : d.nanos ≠ 0 ↔ d ≠ .zero := by
  cases d
  simp [zero]

theorem ChannelConfig.faults_eq_nil_iff (config : ChannelConfig) :
    config.faults = [] ↔ config.Positive := by
  rw [faults, ifZero_append_eq_nil_iff]
  exact ⟨fun h => ⟨h.1, h.2⟩, fun h => ⟨h.capacity, h.errorCapacity⟩⟩

theorem BufferConfig.faults_eq_nil_iff (config : BufferConfig) :
    config.faults = [] ↔ config.Positive := by
  rw [faults, ifZero_append_eq_nil_iff, Duration.nanos_ne_zero_iff]
  exact ⟨fun h => ⟨h.1, h.2⟩, fun h => ⟨h.limit, h.interval⟩⟩

theorem RateConfig.faults_eq_nil_iff (config : RateConfig) :
    config.faults = [] ↔ config.Positive := by
  rw [faults, ifZero_append_eq_nil_iff, Duration.nanos_ne_zero_iff]
  exact ⟨fun h => ⟨h.1, h.2⟩, fun h => ⟨h.threshold, h.period⟩⟩

theorem WriterConfig.faults_eq_nil_iff (config : WriterConfig) :
    config.faults = [] ↔ config.Positive := by
  rw [faults, List.append_eq_nil_iff, ChannelConfig.faults_eq_nil_iff,
    BufferConfig.faults_eq_nil_iff]
  exact ⟨fun h => ⟨h.1, h.2⟩, fun h => ⟨h.channel, h.buffer⟩⟩

/-- A new channel is empty and open, with the room of the settings. -/
def Channel.IsNew {α : Type} (config : ChannelConfig) (c : Channel α) : Prop :=
  ∃ hcapacity herrors, c = .empty config.capacity config.errorCapacity hcapacity herrors

/-- A new buffer is empty, with the limit and the interval of the settings. -/
def Buffer.IsNew {α : Type} (config : BufferConfig) (b : Buffer α) : Prop :=
  ∃ hlimit hinterval, b = .empty config.limit config.interval hlimit hinterval

/-- A new token bucket is full, with the threshold and the period of the settings, and its window
begins at a reading of the clock. -/
def Bucket.IsNew (reading : Instant) (config : RateConfig) (b : Bucket) : Prop :=
  ∃ hthreshold hperiod, b =
    { threshold := config.threshold, period := config.period, tokens := config.threshold,
      checkpoint := reading, threshold_pos := hthreshold, period_pos := hperiod }

/-- A new writer is at its beginning, with a new channel and a new buffer. -/
def Writer.IsNew {α : Type} (config : WriterConfig) (w : Writer α) : Prop :=
  ∃ channel buffer, channel.IsNew config.channel ∧ buffer.IsNew config.buffer ∧
    w = .begin channel buffer

theorem Channel.makes_ofConfig {α : Type} :
    Makes ChannelConfig.Positive ChannelConfig.faults IsNew (ofConfig (α := α)) :=
  .of_validate ChannelConfig.faults_eq_nil_iff ChannelConfig.validate_eq
    (fun h => by
      obtain ⟨hcapacity, herrors, hmade⟩ := ofConfig_eq_ok h
      exact ⟨_, hmade, hcapacity, herrors, rfl⟩)
    ofConfig_eq_error

theorem Buffer.makes_ofConfig {α : Type} :
    Makes BufferConfig.Positive BufferConfig.faults IsNew (ofConfig (α := α)) :=
  .of_validate BufferConfig.faults_eq_nil_iff BufferConfig.validate_eq
    (fun h => by
      obtain ⟨hlimit, hinterval, hmade⟩ := ofConfig_eq_ok h
      exact ⟨_, hmade, hlimit, hinterval, rfl⟩)
    ofConfig_eq_error

theorem Bucket.makes_ofConfig (reading : Instant) :
    Makes RateConfig.Positive RateConfig.faults (IsNew reading) (ofConfig · reading) :=
  .of_validate RateConfig.faults_eq_nil_iff RateConfig.validate_eq
    (fun h => by
      obtain ⟨hthreshold, hperiod, hmade⟩ := ofConfig_eq_ok h reading
      exact ⟨_, hmade, hthreshold, hperiod, rfl⟩)
    (ofConfig_eq_error · reading)

theorem Writer.makes_ofConfig {α : Type} :
    Makes WriterConfig.Positive WriterConfig.faults IsNew (ofConfig (α := α)) :=
  .of_validate WriterConfig.faults_eq_nil_iff WriterConfig.validate_eq
    (fun h => by
      obtain ⟨hcapacity, herrors, hlimit, hinterval, hmade⟩ := ofConfig_eq_ok h
      exact ⟨_, hmade, _, _, ⟨hcapacity, herrors, rfl⟩, ⟨hlimit, hinterval, rfl⟩, rfl⟩)
    ofConfig_eq_error

/-- From a value to a primitive. Each kind of settings is read from the values of its form, and
makes its primitive exactly where all of them are positive; where they are not, the first fault in
the order of the fields is the error, and no contract is broken. A writer whose settings have passed
their check gets its channel and its buffer. -/
theorem primitives_of_values {α : Type} (reading : Instant) :
    (ChannelConfig.form.IsReadBy ChannelConfig.ofValue ∧
      Makes ChannelConfig.Positive ChannelConfig.faults Channel.IsNew
        (Channel.ofConfig (α := α))) ∧
    (BufferConfig.form.IsReadBy BufferConfig.ofValue ∧
      Makes BufferConfig.Positive BufferConfig.faults Buffer.IsNew
        (Buffer.ofConfig (α := α))) ∧
    (RateConfig.form.IsReadBy RateConfig.ofValue ∧
      Makes RateConfig.Positive RateConfig.faults (Bucket.IsNew reading)
        (Bucket.ofConfig · reading)) ∧
    (WriterConfig.form.IsReadBy WriterConfig.ofValue ∧
      Makes WriterConfig.Positive WriterConfig.faults Writer.IsNew
        (Writer.ofConfig (α := α))) ∧
    ∀ config : WriterConfig, config.validate = .ok () →
      ∃ channel buffer, Channel.ofConfig config.channel = .ok channel ∧
        Buffer.ofConfig config.buffer = .ok buffer ∧
        Writer.ofConfig (α := α) config = .ok (.begin channel buffer) := by
  refine ⟨⟨ChannelConfig.isReadBy_ofValue, Channel.makes_ofConfig⟩,
    ⟨BufferConfig.isReadBy_ofValue, Buffer.makes_ofConfig⟩,
    ⟨RateConfig.isReadBy_ofValue, Bucket.makes_ofConfig reading⟩,
    ⟨WriterConfig.isReadBy_ofValue, Writer.makes_ofConfig⟩, fun config hvalid => ?_⟩
  obtain ⟨hchannel, hbuffer⟩ := WriterConfig.validate_eq_ok_iff.1 hvalid
  obtain ⟨hcapacity, herrors, hchannel⟩ := Channel.ofConfig_eq_ok (α := α) hchannel
  obtain ⟨hlimit, hinterval, hbuffer⟩ := Buffer.ofConfig_eq_ok (α := α) hbuffer
  obtain ⟨_, _, _, _, hwriter⟩ := Writer.ofConfig_eq_ok (α := α) hvalid
  exact ⟨_, _, hchannel, hbuffer, hwriter⟩

/-- Settings of a writer that leave fields out and give others that are not known. The buffer is a
list, and the nanoseconds of its interval carry. -/
def sparseSettings : Value :=
  .object
    [("buffer", .list [.int 7, .object [("nanos", .int 2500000000), ("secs", .int 1)]]),
      ("channel", .object [("capacity", .int 8), ("colour", .text "red")]), ("remark", .null)]

/-- What these settings stand for. -/
def sparseConfig : WriterConfig :=
  { channel := { capacity := 8 }, buffer := { limit := 7, interval := .ofMillis 3500 } }

theorem sparseSettings_stands : WriterConfig.form.Stands sparseSettings sparseConfig := by
  have hinterval : Value.IsDuration (.object [("nanos", .int 2500000000), ("secs", .int 1)])
      (.ofMillis 3500) :=
    .object (List.Perm.swap ..) (.int (by decide)) (.int (by decide)) (by decide)
  have hbuffer : BufferConfig.form.Stands
      (.list [.int 7, .object [("nanos", .int 2500000000), ("secs", .int 1)]])
      { limit := 7, interval := .ofMillis 3500 } :=
    .list (by decide) ⟨.given (.head _) (.int (by decide)), .given (.tail _ (.head _)) hinterval⟩
  have hchannel : ChannelConfig.form.Stands
      (.object [("capacity", .int 8), ("colour", .text "red")]) { capacity := 8 } :=
    .object (by decide) ⟨.given (.head _) (.int (by decide)), .missing (by decide)⟩
  exact .object (by decide)
    ⟨.given (.tail _ (.head _)) hchannel, .given (.head _) hbuffer⟩

/-- Sparse settings make a writer; of an error capacity and a limit of zero, the first is the
error. -/
theorem primitives_of_values_sparse :
    WriterConfig.ofValue sparseSettings = .ok sparseConfig ∧
      (∃ writer, Writer.ofConfig (α := Nat) sparseConfig = .ok writer) ∧
      (∃ channel buffer, Writer.ofConfig (α := Nat) sparseConfig = .ok (.begin channel buffer)) ∧
      Writer.ofConfig (α := Nat) { channel := { errorCapacity := 0 }, buffer := { limit := 0 } } =
        .error (.config .zeroErrorCapacity) := by
  obtain ⟨-, -, -, ⟨hread, hmakes⟩, hparts⟩ := primitives_of_values (α := Nat) .midrange
  obtain ⟨channel, buffer, -, -, hwriter⟩ := hparts sparseConfig (by decide)
  have hzero : ¬ WriterConfig.Positive
      { channel := { errorCapacity := 0 }, buffer := { limit := 0 } } :=
    fun hpositive => hpositive.channel.errorCapacity rfl
  obtain ⟨error, hfirst, hrefused⟩ := hmakes.refused hzero
  cases hfirst
  exact ⟨hread.read_eq sparseSettings_stands,
    (hmakes.made_iff _).2 ⟨⟨by decide, by decide⟩, ⟨by decide, by decide⟩⟩,
    ⟨channel, buffer, hwriter⟩, hrefused⟩

end Backpressure
