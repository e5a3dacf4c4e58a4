import Backpressure.Proofs.LineBatch.Scene

/-!
# Runs that print a given grouping of the lines

Whatever grouping of the lines there is, some run of the batcher prints it. In this run the pump
takes every line as soon as it is written, a limiter lets every line through at the beginning of a
window, and the periodic trigger goes off where a group that is not full is to be printed.
-/

namespace Backpressure.LineBatch

open Scene

/-- What the batcher gathers lines with. Of its writer, only the settings and the counts matter. -/
structure Ground where
  /-- The present moment. -/
  now : Instant
  /-- The rate limiter, if there is one. -/
  limiter : Option Bucket
  /-- The writer. -/
  writer : Writer String

namespace Ground

/-- The job that has some lines in its channel and some in its buffer, and delivers nothing. -/
def job (ground : Ground) (queue pending : List String) : Job where
  limiter := ground.limiter
  writer :=
    { channel :=
        { ground.writer.channel with queue, closed := false, errors := .empty 1024 (by decide) }
      buffer := { ground.writer.buffer with pending, flushing := false, ticker := .running }
      locked := false, claimed := false, pumpEnded := false }

/-- The periodic trigger waits, the pump and the main thread are at some places, some lines are in
the channel, and some are in the buffer. -/
def scene (ground : Ground) (queue pending : List String) (pump : Writer.Position String)
    (main : Position) (printed : List (List String)) : Scene where
  now := ground.now
  job := ground.job queue pending
  threads := [.ready (.writer .own (.buffer .own .select)), .ready (.writer .own pump), .ready main]
  printed

/-- The place at which the pump waits for a line. -/
abbrev waiting : Writer.Position String := .channel .pump (.poll none)

/-- The place at which the pump puts a line into the buffer. -/
abbrev appending (line : String) : Writer.Position String := .buffer .pump (.append line)

/-- The place at which the main thread puts a line into the channel. -/
abbrev writing (line : String) (rest : Reading) : Position :=
  .writer (.write rest) (.channel .own (.push line none))

/-- The ground after one more delivery. -/
def counting (ground : Ground) (size : Nat) : Ground :=
  { ground with writer.buffer := ground.writer.buffer.complete size true }

/-- Batches have a limit, and there is time for a number of windows yet. -/
structure Lasts (ground : Ground) (limit windows : Nat) : Prop where
  limit : ground.writer.buffer.limit = limit
  now : ∀ bucket, ground.limiter = some bucket → ground.now ≤ bucket.checkpoint
  clock : HasWindows ground.limiter windows

variable {fits : Buffer.Input → Prop} {limit n : Nat} {pending : List String}
  {printed : List (List String)} {ground : Ground}

theorem Lasts.mono {m : Nat} (h : ground.Lasts limit n) (hle : m ≤ n) : ground.Lasts limit m :=
  ⟨h.limit, h.now, h.clock.mono hle⟩

theorem Lasts.counting (h : ground.Lasts limit n) (size : Nat) :
    (ground.counting size).Lasts limit n :=
  ⟨h.limit, h.now, h.clock⟩

/-! ### One line -/

/-- An acquisition at the beginning of a window takes one of its tokens. -/
theorem acquire_of_isOver {bucket : Bucket} {reading : Instant}
    (h : bucket.isOver reading = true) (now : Instant) :
    ∃ later : Bucket, later.period = bucket.period ∧ later.checkpoint = reading ∧
      Bucket.step bucket now (.acquire none) reading =
        { state := later
          outcome := .reply (.acquired true)
          signals := [.all .refilled]
          notes := [.refilled reading bucket.threshold bucket.tokens, .admitted reading] } := by
  refine ⟨{ bucket with tokens := bucket.threshold - 1, checkpoint := reading }, rfl, rfl, ?_⟩
  simp [Bucket.step, Bucket.stepAcquire, Bucket.atReading, Bucket.refill_of_isOver h, h,
    Bucket.take?, bucket.threshold_pos]

section Line

variable (hfits : Suffices fits) (pending : List String) (printed : List (List String))
  (rest : Reading) (line : String)
include hfits

/-- The main thread reads a line, which a limiter lets through at the beginning of a window. -/
theorem admits (h : ground.Lasts limit (n + 1)) :
    ∃ later : Ground, later.Lasts limit n ∧
      CanBecome fits
        (ground.scene [] pending waiting (.read { rest with lines := line :: rest.lines }) printed)
        (later.scene [] pending waiting (writing line rest) printed) := by
  obtain ⟨now, limiter, writer⟩ := ground
  cases limiter with
  | none => exact ⟨⟨now, none, writer⟩, h.mono (Nat.le_succ n), .of_run [2, 2] hfits.nothing rfl⟩
  | some bucket =>
    have hclock := h.clock bucket rfl
    obtain ⟨reading, hbegins⟩ := h.clock.exists_reading
    have hreading := hbegins bucket rfl
    have hlater : now ≤ reading := by
      have hle : now.nanos ≤ bucket.checkpoint.nanos := h.now bucket rfl
      rw [Instant.le_def]
      omega
    obtain ⟨later, hperiod, hcheckpoint, hacquire⟩ :=
      acquire_of_isOver (Bucket.isOver_iff.2 (Nat.le_of_eq hreading.symm)) reading
    refine ⟨⟨reading, some later, writer⟩, ⟨h.limit, ?_, ?_⟩, ?_⟩
    · rintro _ ⟨⟩
      exact Nat.le_of_eq (congrArg Instant.nanos hcheckpoint.symm)
    · rintro _ ⟨⟩
      rw [Nat.succ_mul] at hclock
      rw [hcheckpoint, hperiod]
      omega
    · have hstep : step (job ⟨now, some bucket, writer⟩ [] pending) reading
          (.permit line rest (.acquire none)) ⟨reading, .nothing⟩ =
            some ((Bucket.step bucket reading (.acquire none) reading).embed
              (fun limiter =>
                { job ⟨now, some bucket, writer⟩ [] pending with limiter := some limiter })
              (.permit line rest) .limiter .limiter (fun _ => .proceed (.write line rest))) := rfl
      rw [hacquire] at hstep
      have hreads : CanBecome fits (scene ⟨now, some bucket, writer⟩ [] pending waiting
          (.read { rest with lines := line :: rest.lines }) printed)
            (scene ⟨now, some bucket, writer⟩ [] pending waiting
              (.permit line rest (.acquire none)) printed) := .of_run [2] hfits.nothing rfl
      have hwaits := hreads.trans (.elapse hlater)
      have hadmits := hwaits.trans (.of_step 2 _ rfl hfits.nothing hstep rfl)
      exact hadmits.trans (.of_run [2] hfits.nothing rfl)

/-- The main thread puts a line into the channel, and the pump takes it. -/
theorem writes (ground : Ground) :
    CanBecome fits (ground.scene [] pending waiting (writing line rest) printed)
      (ground.scene [] pending (appending line) (.read rest) printed) := by
  have hroom : (ground.job [] pending).writer.channel.isFull = false := by
    have hpos := ground.writer.channel.capacity_pos
    simp only [Channel.isFull, job, List.length_nil]
    exact decide_eq_false (by omega)
  have hpush : (ground.job [] pending).writer.channel.tryPush line =
      .ok (ground.job [line] pending).writer.channel := by
    simp only [Channel.tryPush, hroom]
    rfl
  have hstep : step (ground.job [] pending) ground.now (writing line rest) ⟨ground.now, .nothing⟩ =
      some (ofWriter (ground.job [] pending) ground.now (.write rest)
        (Writer.ofChannel (ground.job [] pending).writer .own
          (Channel.stepPush (ground.job [] pending).writer.channel ground.now line none))) := rfl
  rw [Channel.stepPush, hpush] at hstep
  have here : (ground.scene [] pending waiting (writing line rest) printed).threads[mainThread]? =
      some (.ready (writing line rest)) := rfl
  have hpushes := CanBecome.of_step mainThread _ here hfits.nothing hstep rfl
  exact hpushes.trans (.of_run [1] hfits.nothing rfl)

/-- The pump puts a line to those that are pending, and goes on to flush where they are enough. -/
theorem appends (ground : Ground) (main : Position) :
    CanBecome fits (ground.scene [] pending (appending line) main printed)
      (ground.scene [] (pending ++ [line])
        (if ground.writer.buffer.limit ≤ pending.length + 1 then .buffer .pump (.enter .add)
          else waiting) main printed) := by
  have hdue : ((ground.job [] pending).writer.buffer.append line).isDue =
      decide (ground.writer.buffer.limit ≤ pending.length + 1) := by
    simp [Buffer.isDue, Buffer.append, job]
  have hstep : step (ground.job [] pending) ground.now (.writer .own (appending line))
      ⟨ground.now, .nothing⟩ =
        some (ofWriter (ground.job [] pending) ground.now .own
          (Writer.ofBuffer (ground.job [] pending).writer .pump
            (Buffer.stepAppend (ground.job [] pending).writer.buffer line))) := rfl
  rw [Buffer.stepAppend, hdue] at hstep
  have here : (ground.scene [] pending (appending line) main printed).threads[1]? =
      some (.ready (.writer .own (appending line))) := rfl
  by_cases hfull : ground.writer.buffer.limit ≤ pending.length + 1
  · simp only [hfull, decide_true, if_true] at hstep ⊢
    exact .of_step 1 _ here hfits.nothing hstep rfl
  · simp only [hfull, decide_false, if_false, Bool.false_eq_true] at hstep ⊢
    exact .of_step 1 _ here hfits.nothing hstep rfl

end Line

/-! ### One batch -/

/-- The pump prints what is pending where it has filled up a batch. -/
theorem fills (hfits : Suffices fits) (ground : Ground) (main : Position) (hsome : pending ≠ []) :
    CanBecome fits (ground.scene [] pending (.buffer .pump (.enter .add)) main printed)
      ((ground.counting pending.length).scene [] [] waiting main (pending :: printed)) := by
  have here : (ground.scene [] pending (.buffer .pump (.enter .add)) main printed).threads[1]? =
      some (.ready (.writer .own (.buffer .pump (.enter .add)))) := rfl
  have hdelivers := CanBecome.deliver 1 hfits.nothing hfits.accepted here rfl rfl hsome
  exact hdelivers.trans (.of_run [1] hfits.nothing rfl)

/-- The periodic trigger goes off and prints what is pending. -/
theorem ticks (hfits : Suffices fits) (htick : fits .tick) (ground : Ground) (main : Position)
    (hsome : pending ≠ []) :
    CanBecome fits (ground.scene [] pending waiting main printed)
      ((ground.counting pending.length).scene [] [] waiting main (pending :: printed)) := by
  have hstep : step (ground.job [] pending) ground.now (.writer .own (.buffer .own .select))
      ⟨ground.now, .tick⟩ =
        some (.proceed (ground.job [] pending) (.writer .own (.buffer .own (.enter .tick)))) := rfl
  have here : (ground.scene [] pending waiting main printed).threads[0]? =
      some (.ready (.writer .own (.buffer .own .select))) := rfl
  have hgoes := CanBecome.of_step 0 _ here htick hstep rfl
  have hdelivers := hgoes.trans (.deliver 0 hfits.nothing hfits.accepted rfl rfl rfl hsome)
  exact hdelivers.trans (.of_run [0] hfits.nothing rfl)

/-- Lines that leave a batch short are gathered one after the other. -/
theorem gathers (hfits : Suffices fits) (printed : List (List String)) {lines : List String}
    (h : ground.Lasts limit (lines.length + n)) (hshort : pending.length + lines.length < limit)
    (rest : Reading) :
    ∃ later : Ground, later.Lasts limit n ∧
      CanBecome fits
        (ground.scene [] pending waiting (.read { rest with lines := lines ++ rest.lines }) printed)
        (later.scene [] (pending ++ lines) waiting (.read rest) printed) := by
  induction lines generalizing ground pending with
  | nil =>
    refine ⟨ground, by simpa using h, ?_⟩
    rw [List.append_nil, List.nil_append]
    exact .refl
  | cons line lines ih =>
    rw [List.length_cons] at h hshort
    let unread : Reading := { rest with lines := lines ++ rest.lines }
    obtain ⟨next, hnext, hadmits⟩ :=
      admits hfits pending printed unread line (Nat.add_right_comm _ 1 n ▸ h)
    have hwrites := hadmits.trans (writes hfits pending printed unread line next)
    have happends := hwrites.trans (appends hfits pending printed line next (.read unread))
    rw [hnext.limit, if_neg (by omega)] at happends
    have hless : (pending ++ [line]).length + lines.length < limit := by
      rw [List.length_append, List.length_singleton]
      omega
    obtain ⟨later, hlater, hgathers⟩ := ih hnext hless
    refine ⟨later, hlater, ?_⟩
    rw [List.append_assoc, List.singleton_append] at hgathers
    exact happends.trans hgathers

/-- Lines that make a whole batch are printed. -/
theorem prints (hfits : Suffices fits) (printed : List (List String)) {first : List String}
    {last : String}
    (h : ground.Lasts limit (first.length + 1 + n)) (hfull : first.length + 1 = limit)
    (rest : Reading) :
    ∃ later : Ground, later.Lasts limit n ∧
      CanBecome fits
        (ground.scene [] [] waiting
          (.read { rest with lines := first ++ last :: rest.lines }) printed)
        (later.scene [] [] waiting (.read rest) ((first ++ [last]) :: printed)) := by
  rw [Nat.add_assoc, Nat.add_comm 1 n] at h
  have hshort : ([] : List String).length + first.length < limit := by
    rw [List.length_nil]
    omega
  obtain ⟨between, hbetween, hgathers⟩ := gathers hfits printed h hshort
    { rest with lines := last :: rest.lines }
  obtain ⟨next, hnext, hadmits⟩ := admits hfits first printed rest last hbetween
  have hwrites := (hgathers.trans hadmits).trans (writes hfits first printed rest last next)
  have happends := hwrites.trans (appends hfits first printed last next (.read rest))
  rw [hnext.limit, if_pos (by omega)] at happends
  have hsome : first ++ [last] ≠ [] := by simp
  refine ⟨next.counting (first ++ [last]).length, hnext.counting _, ?_⟩
  exact happends.trans (next.fills hfits (.read rest) hsome)

/-! ### The end -/

/-- The job whose writer has been closed, up to the last flush. -/
def closing (ground : Ground) (input : Reading) (pending : List String) : Job where
  limiter := ground.limiter
  writer :=
    { channel :=
        { ground.writer.channel with
          queue := []
          closed := true
          errors := { Sideband.empty 1024 (by decide) with unread := input.errors } }
      buffer := { ground.writer.buffer with pending, flushing := false, ticker := .stopped }
      locked := true, claimed := true, pumpEnded := true }

/-- The periodic trigger and the pump have ended, and the main thread is at some place. -/
def lastScene (ground : Ground) (input : Reading) (pending : List String) (main : Position)
    (printed : List (List String)) : Scene where
  now := ground.now
  job := ground.closing input pending
  threads := [.ended, .ended, .ready main]
  printed

/-- The main thread reports where a line cannot be read, and closes the writer up to the last
flush. -/
theorem closes (hfits : Suffices fits) (ground : Ground) (pending : List String)
    (printed : List (List String)) (broken : Bool) :
    CanBecome fits (ground.scene [] pending waiting (.read ⟨[], broken⟩) printed)
      (ground.lastScene ⟨[], broken⟩ pending (.writer .close (.buffer .close (.enter .shutdown)))
        printed) := by
  have hasks : CanBecome fits (ground.scene [] pending waiting (.read ⟨[], broken⟩) printed)
      { ground.scene [] pending waiting (ask .close .close ground.now) printed with
        job := { ground.job [] pending with
          writer.channel.errors.unread := Reading.errors ⟨[], broken⟩ } } := by
    cases broken with
    | false => exact .of_run [2] hfits.nothing rfl
    | true => exact .of_run [2, 2] hfits.nothing rfl
  have hawaits := hasks.trans (.of_run [2, 1, 1, 2, 2, 2] hfits.nothing rfl)
  have hstops := hawaits.trans (.of_step 0 ⟨ground.now, .stop⟩ rfl hfits.stop rfl rfl)
  exact hstops.trans (.of_run [2] hfits.nothing rfl)

/-- The last flush prints what is pending, if anything is. -/
theorem flushes (hfits : Suffices fits) (ground : Ground) (pending : List String)
    (printed : List (List String)) (input : Reading) :
    ∃ (later : Ground) (flush : Flush), CanBecome fits
      (ground.lastScene input pending (.writer .close (.buffer .close (.enter .shutdown))) printed)
      (later.lastScene input [] (.writer .close (.release flush))
        ([pending].filter (· ≠ []) ++ printed)) := by
  by_cases hsome : pending = []
  · subst hsome
    exact ⟨ground, .empty, .of_run [2] hfits.nothing rfl⟩
  · rw [List.filter_cons_of_pos (by simpa using hsome)]
    have here : (ground.lastScene input pending (.writer .close (.buffer .close
        (.enter .shutdown))) printed).threads[mainThread]? =
          some (.ready (.writer .close (.buffer .close (.enter .shutdown)))) := rfl
    have hdelivers := CanBecome.deliver 2 hfits.nothing hfits.accepted here rfl rfl hsome
    exact ⟨ground.counting pending.length, .delivered pending.length,
      hdelivers.trans (.of_run [2] hfits.nothing rfl)⟩

/-- The main thread gives the lock back, sums up, reads what was reported, and returns. -/
theorem returns (hfits : Suffices fits) (ground : Ground) (input : Reading) (flush : Flush) :
    CanEnd fits (ground.lastScene input [] (.writer .close (.release flush)) printed) printed := by
  obtain ⟨lines, broken⟩ := input
  cases broken with
  | false => exact ⟨_, _, .of_run [2, 2, 2, 2] hfits.nothing rfl, rfl, rfl⟩
  | true => exact ⟨_, _, .of_run [2, 2, 2, 2, 2, 2] hfits.nothing rfl, rfl, rfl⟩

/-- Where there are no more lines, the main thread returns once what is pending is printed. -/
theorem ends (hfits : Suffices fits) (ground : Ground) (pending : List String)
    (printed : List (List String)) (broken : Bool) :
    CanEnd fits (ground.scene [] pending waiting (.read ⟨[], broken⟩) printed)
      ([pending].filter (· ≠ []) ++ printed) := by
  obtain ⟨later, flush, hflushes⟩ := flushes hfits ground pending printed ⟨[], broken⟩
  have hcloses := (closes hfits ground pending printed broken).trans hflushes
  exact hcloses.canEnd (returns hfits later ⟨[], broken⟩ flush)

/-- Some groups of lines are printed one after the other, if the periodic trigger can go off
wherever a group before the last one is not full. -/
theorem ends_of_groups (hfits : Suffices fits) (printed : List (List String))
    {groups : List (List String)}
    (hgroups : ∀ group ∈ groups, group ≠ [] ∧ group.length ≤ limit)
    (hticks : ∀ group ∈ groups.dropLast, group.length < limit → fits .tick)
    (h : ground.Lasts limit groups.flatten.length) (broken : Bool) :
    CanEnd fits (ground.scene [] [] waiting (.read ⟨groups.flatten, broken⟩) printed)
      (groups.reverse ++ printed) := by
  induction groups generalizing ground printed with
  | nil => exact ends hfits ground [] printed broken
  | cons group groups ih =>
    rw [List.forall_mem_cons] at hgroups
    obtain ⟨⟨hsome, hle⟩, hrest⟩ := hgroups
    rw [List.flatten_cons, List.length_append] at h
    rw [List.reverse_cons, List.append_assoc, List.singleton_append, List.flatten_cons]
    let unread : Reading := ⟨groups.flatten, broken⟩
    rcases Nat.lt_or_eq_of_le hle with hshort | hfull
    · have hroom : ([] : List String).length + group.length < limit := by simpa using hshort
      obtain ⟨next, hnext, hgathers⟩ := gathers hfits printed h hroom unread
      rw [List.nil_append] at hgathers
      cases groups with
      | nil =>
        have hends := hgathers.canEnd (ends hfits next group printed broken)
        rwa [List.filter_cons_of_pos (by simpa using hsome)] at hends
      | cons second others =>
        rw [List.dropLast_cons_cons, List.forall_mem_cons] at hticks
        have hprints := hgathers.trans (ticks hfits (hticks.1 hshort) next (.read unread) hsome)
        exact hprints.canEnd (ih (group :: printed) hrest hticks.2 (hnext.counting group.length))
    · obtain ⟨first, last, rfl⟩ : ∃ first last, group = first ++ [last] :=
        ⟨_, _, (List.dropLast_append_getLast hsome).symm⟩
      rw [List.length_append, List.length_singleton] at h hfull
      obtain ⟨next, hnext, hprints⟩ := prints hfits printed h hfull unread
      rw [List.append_assoc, List.singleton_append]
      refine hprints.canEnd (ih _ hrest ?_ hnext)
      cases groups with
      | nil => nofun
      | cons second others =>
        rw [List.dropLast_cons_cons, List.forall_mem_cons] at hticks
        exact hticks.2

/-- The batcher as it begins to read an input. -/
def beginning (ground : Ground) (input : Reading) : Scene where
  now := ground.now
  job := ground.job [] []
  threads := [.ready (.writer .own (.buffer .own .launch)), .ready (.writer .own waiting),
    .ready (.read input)]
  printed := []

theorem shows_beginning (ground : Ground) (input : Reading) :
    (ground.beginning input).Shows (underway (ground.job [] []) ground.now input) :=
  ⟨rfl, rfl, rfl, rfl, by simp [beginning, isUp]⟩

end Ground

/-- Some run of the batcher ends with a given grouping of the lines, if the periodic trigger can go
off wherever a group before the last one is not full. -/
theorem exists_run {fits : Buffer.Input → Prop} (hfits : Suffices fits) {ground : Ground}
    {input : Reading} {limit : Nat} {groups : List (List String)}
    (hgrouping : Grouping limit input.lines groups)
    (hticks : ∀ group ∈ groups.dropLast, group.length < limit → fits .tick)
    (h : ground.Lasts limit input.lines.length) :
    ∃ (s : System monitor) (status : Nat),
      (underway (ground.job [] []) ground.now input).ReachableBy (Working fits) s ∧
      s.threads[mainThread]? = some (.returned status) ∧ batches s = groups := by
  obtain ⟨lines, broken⟩ := input
  obtain ⟨rfl, hgroups⟩ := hgrouping
  have hends := Ground.ends_of_groups hfits [] hgroups hticks h broken
  have hlaunch : CanBecome fits (ground.beginning ⟨groups.flatten, broken⟩)
      (ground.scene [] [] Ground.waiting (.read ⟨groups.flatten, broken⟩) []) :=
    .of_run [0] hfits.nothing rfl
  obtain ⟨last, status, hleads, hreturned, hprinted⟩ := hlaunch.canEnd hends
  obtain ⟨s, hs, hshown⟩ := hleads _ (ground.shows_beginning ⟨groups.flatten, broken⟩)
  refine ⟨s, status, hs, ?_, ?_⟩
  · rw [hshown.threads, hreturned]
  · rw [hshown.printed, hprinted, List.append_nil, List.reverse_reverse]

end Backpressure.LineBatch
