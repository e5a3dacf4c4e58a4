import Backpressure.Proofs.LineBatch.Effort
import Backpressure.Proofs.LineBatch.Schedule

/-!
# How the batcher ends

With a zero among its numbers the batcher is refused and prints nothing. Otherwise it prints the
lines that can be read in batches, and ends with a status that tells whether all of them could be
read. Every such end is an end of some run, so that neither the room in the channel nor the rate
makes a difference to what can be printed.
-/

namespace Backpressure.LineBatch

/-! ### What can be read -/

/-- The lines that can be read are the texts of the lines before the first one that has none. -/
theorem lines_ofLines (lines : List (List UInt8)) :
    (Reading.ofLines lines).lines.map some = (lines.map lineText?).takeWhile (·.isSome) := by
  induction lines with
  | nil => rfl
  | cons line rest ih =>
    unfold Reading.ofLines
    cases htext : lineText? line with
    | none => simp [htext]
    | some text => simp [htext, ih]

/-- An input is broken where some line has no text. -/
theorem broken_ofLines (lines : List (List UInt8)) :
    (Reading.ofLines lines).broken = true ↔ ∃ line ∈ lines, lineText? line = none := by
  induction lines with
  | nil => simp [Reading.ofLines]
  | cons line rest ih =>
    unfold Reading.ofLines
    cases htext : lineText? line with
    | none => simp [htext]
    | some text => simp [htext, ih]

/-! ### What is printed -/

/-- What the batcher comes to on an input: the status, and the lines in batches, which are chunks
unless the periodic trigger may go off. A batch is printed as its lines, joined, and a line feed. -/
def Batched (join : String) (limit : Nat) (input : Reading) (fits : Buffer.Input → Prop)
    (status : Nat) (output : String) : Prop :=
  status = input.status ∧ ∃ batches, Grouping limit input.lines batches ∧
    (¬ fits .tick → batches = input.lines.toChunks limit) ∧
    output = String.join (batches.map fun batch => join.intercalate batch ++ "\n")

/-- The batcher can end with a status when it has printed something. Its limiter and its main thread
may begin at any moments, and its sink and its periodic trigger are given some inputs only. -/
inductive Ends (options : Options) (bytes : List UInt8) (fits : Buffer.Input → Prop) :
    Nat → String → Prop
  /-- Its options are refused. -/
  | refused {clock : Instant} {refusal : Refusal}
      (wrong : Job.ofOptions options clock = .error refusal) :
      Ends options bytes fits (refused refusal).status (refused refusal).output
  /-- Its main thread has returned. -/
  | returned {clock now : Instant} {job : Job} {s : System monitor} {status : Nat}
      (made : Job.ofOptions options clock = .ok job)
      (runs : (underway job now (.ofBytes bytes)).ReachableBy (Working fits) s)
      (returned : s.threads[mainThread]? = some (.returned status)) :
      Ends options bytes fits status (printed options.join s.notes)

/-- The batcher has time for a number of lines. Without a limiter that is any number. -/
def Options.HasTimeFor (options : Options) (lines : Nat) : Prop :=
  options.rate = none ∨ lines < 18446744073709551616

variable {options : Options} {bytes : List UInt8} {fits : Buffer.Input → Prop} {status : Nat}
  {output : String}

/-- Options with a zero lead to one end only. -/
theorem ends_iff_of_hasZero (h : options.HasZero) :
    Ends options bytes fits status output ↔ status = 2 ∧ output = "" := by
  constructor
  · intro hends
    cases hends with
    | refused => exact ⟨rfl, rfl⟩
    | @returned clock _ _ _ _ made =>
      obtain ⟨_, hrefused⟩ := ofOptions_of_hasZero h clock
      rw [hrefused] at made
      contradiction
  · rintro ⟨rfl, rfl⟩
    obtain ⟨_, hrefused⟩ := ofOptions_of_hasZero h .midrange
    exact .refused hrefused

/-- Options without a zero make a job at its beginning. -/
theorem begun_of_ofOptions (h : ¬ options.HasZero) {clock : Instant} {job : Job}
    (hmade : Job.ofOptions options clock = .ok job) :
    Begun job ∧ job.writer.buffer.limit = options.maxSize := by
  obtain ⟨hrate, hroom, herrors, hsize, hduration, hjob⟩ := ofOptions_of_not_hasZero h clock
  cases hmade.symm.trans hjob
  exact ⟨⟨⟨rfl, rfl, rfl, rfl, rfl, rfl⟩, rfl, rfl, rfl, rfl⟩, rfl⟩

/-- Wherever the batcher ends, it has printed the lines in batches. -/
theorem Ends.batched (h : Ends options bytes fits status output) (hzero : ¬ options.HasZero)
    (hfits : ∀ input, fits input → input.Accepts) :
    Batched options.join options.maxSize (.ofBytes bytes) fits status output := by
  cases h with
  | @refused clock refusal wrong =>
    obtain ⟨_, _, _, _, _, hjob⟩ := ofOptions_of_not_hasZero hzero clock
    rw [hjob] at wrong
    contradiction
  | @returned clock now job s _ made runs returned =>
    obtain ⟨hbegun, hlimit⟩ := begun_of_ofOptions hzero made
    obtain ⟨m, htracked⟩ := Tracked.of_reachable hbegun hfits runs
    have hgrouping := grouping_of_returned htracked returned hbegun hfits
    have hstatus := (finished_of_returned htracked returned).1
    rw [hlimit] at hgrouping
    refine ⟨hstatus, batches s, hgrouping, ?_, rfl⟩
    intro htick
    have huntimed : ∀ input, fits input → input ≠ .tick := by
      rintro _ hinput rfl
      exact htick hinput
    rw [chunks_of_returned htracked returned hbegun hfits huntimed, hlimit]

/-- The earliest moment there is. -/
abbrev earliest : Instant := ⟨Duration.zero.nanos, Duration.zero.nanos_lt⟩

/-- From the earliest moment on there is time for so many lines, one in each window. -/
theorem lasts_of_hasTimeFor {lines : Nat} (hrate : options.rate ≠ some 0) (w : Writer String)
    (h : options.HasTimeFor lines) :
    Ground.Lasts ⟨earliest, limiterOf options.rate earliest hrate, w⟩ w.buffer.limit lines := by
  obtain ⟨join, maxSize, maxDuration, channelSize, rate⟩ := options
  refine ⟨rfl, fun _ _ => Nat.zero_le _, ?_⟩
  intro bucket hbucket
  cases rate with
  | none => contradiction
  | some threshold =>
    cases hbucket
    rcases h with hnone | htime
    · contradiction
    · change 0 + lines * 1000000000 < 18446744073709551616 * 1000000000
      omega

/-- Wherever it can come to, the batcher can end there, if it has the time. -/
theorem Batched.ends (h : Batched options.join options.maxSize (.ofBytes bytes) fits status output)
    (hzero : ¬ options.HasZero) (hfits : ∀ input, fits input → input.Accepts)
    (hsuffices : Suffices fits) (htime : options.HasTimeFor (Reading.ofBytes bytes).lines.length) :
    Ends options bytes fits status output := by
  obtain ⟨rfl, batches, hgrouping, huntimed, rfl⟩ := h
  obtain ⟨hrate, hroom, herrors, hsize, hduration, hjob⟩ := ofOptions_of_not_hasZero hzero earliest
  have hticks : ∀ batch ∈ batches.dropLast, batch.length < options.maxSize → fits .tick := by
    intro batch hmem hshort
    by_contra htick
    rw [huntimed htick] at hmem
    have hfull := (grouping_toChunks hsize _).2 batch hmem
    omega
  obtain ⟨s, status, hruns, hover, hprinted⟩ := exists_run hsuffices hgrouping hticks
    (lasts_of_hasTimeFor hrate (.begin (.empty options.room 1024 hroom herrors)
      (.empty options.maxSize (.ofMillis options.maxDuration) hsize hduration)) htime)
  have hbegun := (begun_of_ofOptions hzero hjob).1
  obtain ⟨m, htracked⟩ := Tracked.of_reachable hbegun hfits hruns
  have hstatus := (finished_of_returned htracked hover).1
  rw [← hstatus, ← hprinted]
  exact .returned hjob hruns hover

/-- The batcher has a limiter only where its options give a rate. -/
theorem rate_of_limiter {clock : Instant} {job : Job}
    (hmade : Job.ofOptions options clock = .ok job) (h : job.limiter.isSome = true) :
    options.rate ≠ none := by
  by_cases hzero : options.HasZero
  · obtain ⟨_, hrefused⟩ := ofOptions_of_hasZero hzero clock
    rw [hrefused] at hmade
    contradiction
  · obtain ⟨hrate, _, _, _, _, hjob⟩ := ofOptions_of_not_hasZero hzero clock
    cases hmade.symm.trans hjob
    intro hnone
    obtain ⟨join, maxSize, maxDuration, channelSize, rate⟩ := options
    cases hnone
    contradiction

/-- How the batcher conducts itself on an input, where its options are in order and its sink and its
periodic trigger are given some inputs only. -/
structure Conduct (options : Options) (bytes : List UInt8) (fits : Buffer.Input → Prop) : Prop where
  /-- Wherever it ends, it has printed the lines in batches, and the status tells whether some line
  could not be read. -/
  batched : ∀ status output, Ends options bytes fits status output →
    Batched options.join options.maxSize (.ofBytes bytes) fits status output
  /-- It can end with any such batches, given the time. -/
  complete : Suffices fits → options.HasTimeFor (Reading.ofBytes bytes).lines.length →
    ∀ status output, Batched options.join options.maxSize (.ofBytes bytes) fits status output →
      Ends options bytes fits status output
  /-- With other room in its channel and another rate, it can end in no other way. -/
  likewise : ∀ channelSize rate, ¬ { options with channelSize, rate : Options }.HasZero →
    { options with channelSize, rate : Options }.HasTimeFor (Reading.ofBytes bytes).lines.length →
      Suffices fits → ∀ status output, Ends options bytes fits status output →
        Ends { options with channelSize, rate } bytes fits status output
  /-- Where the periodic trigger does not go off, it ends in one way, whatever these are. -/
  same : ∀ channelSize rate, ¬ { options with channelSize, rate : Options }.HasZero →
    ¬ fits .tick → ∀ status output status' output', Ends options bytes fits status output →
      Ends { options with channelSize, rate } bytes fits status' output' →
        status' = status ∧ output' = output
  /-- Its runs are not longer than their allowance. -/
  short : ∀ clock now job events s, Job.ofOptions options clock = .ok job →
    (∀ event ∈ events, Working fits event) →
      (underway job now (.ofBytes bytes)).run events = some s →
        events.countP isStep ≤ allowance (.ofBytes bytes) events
  /-- It never gets stuck. As long as its main thread has not returned, some thread can go on, or
  the main thread waits for the rate that the options give. -/
  goesOn : ∀ clock now job s, Job.ofOptions options clock = .ok job →
    (underway job now (.ofBytes bytes)).ReachableBy (Working fits) s →
      (∀ status, s.threads[mainThread]? ≠ some (.returned status)) →
        (∃ thread, GoesOn s thread) ∨ options.rate ≠ none ∧ Waits s
  /-- So it can end from wherever it is, given the time. -/
  ends : ∀ clock now job events s, Job.ofOptions options clock = .ok job →
    (∀ event ∈ events, Working fits event) →
      (underway job now (.ofBytes bytes)).run events = some s → Suffices fits →
        HasWindows s.state.limiter (allowance (.ofBytes bytes) events) →
          ∃ s' status, s.ReachableBy (Working fits) s' ∧
            s'.threads[mainThread]? = some (.returned status)

theorem conduct (hzero : ¬ options.HasZero) (hfits : ∀ input, fits input → input.Accepts) :
    Conduct options bytes fits where
  batched _ _ hends := hends.batched hzero hfits
  complete hsuffices htime _ _ hbatched := hbatched.ends hzero hfits hsuffices htime
  likewise channelSize rate hother htime hsuffices status output hends := by
    have hbatched := hends.batched hzero hfits
    exact Batched.ends hbatched hother hfits hsuffices htime
  same channelSize rate hother htick status output status' output' hends hends' := by
    obtain ⟨rfl, _, _, hchunks, rfl⟩ := hends.batched hzero hfits
    obtain ⟨rfl, _, _, hchunks', rfl⟩ := hends'.batched hother hfits
    rw [hchunks htick, hchunks' htick]
    exact ⟨rfl, rfl⟩
  short clock now job events s hmade hworking hrun := by
    have hsteps := steps_le (begun_of_ofOptions hzero hmade).1 hworking hrun
    omega
  goesOn clock now job s hmade hreached hreturned := by
    have hbegun := (begun_of_ofOptions hzero hmade).1
    rcases goesOn_or_waits hbegun hfits hreached hreturned with hgoes | ⟨hlimiter, hwaits⟩
    · exact .inl hgoes
    · exact .inr ⟨rate_of_limiter hmade hlimiter, hwaits⟩
  ends clock now job events s hmade hworking hrun hsuffices hwindows := by
    have hbegun := (begun_of_ofOptions hzero hmade).1
    have hsteps := steps_le hbegun hworking hrun
    exact comes_to_end hbegun hfits hsuffices (.run .start hworking hrun)
      (hwindows.mono (by omega))

/-- The batcher from end to end, for all options and inputs. The lines that can be read are those
before the first one that is no text. Options with a zero are refused by the check of the settings,
with status 2 and nothing printed. With any others the batcher prints the lines in batches, as long
as the sink accepts what it is given. -/
theorem prints_lines_in_batches (options : Options) (bytes : List UInt8) :
    ((Reading.ofBytes bytes).lines.map some =
        ((cut [] bytes).map lineText?).takeWhile (·.isSome) ∧
      ((Reading.ofBytes bytes).broken = true ↔ ∃ line ∈ cut [] bytes, lineText? line = none)) ∧
    (options.HasZero →
      (∀ clock, ∃ error, Job.ofOptions options clock = .error (.config error)) ∧
      (∀ isRead, (runWith options bytes isRead).status = 2 ∧
        (runWith options bytes isRead).output = "") ∧
      ∀ fits status output, Ends options bytes fits status output ↔ status = 2 ∧ output = "") ∧
    (¬ options.HasZero → ∀ fits, (∀ input, fits input → input.Accepts) →
      Conduct options bytes fits) := by
  refine ⟨⟨lines_ofLines _, broken_ofLines _⟩,
    fun hzero => ⟨ofOptions_of_hasZero hzero, fun isRead => ?_, ?_⟩, ?_⟩
  · obtain ⟨_, hrefused⟩ := ofOptions_of_hasZero hzero .midrange
    rw [runWith, hrefused]
    exact ⟨rfl, rfl⟩
  · exact fun _ _ _ => ends_iff_of_hasZero hzero
  · exact fun hzero _ hfits => conduct hzero hfits

/-- Two lines make a batch, at most one line is read in a second, and the fourth line is no text. -/
theorem prints_lines_in_batches_brokenInput :
    ∃ (options : Options) (bytes : List UInt8),
      options = { join := "+", maxSize := 2, rate := some 1 } ∧
      Reading.ofBytes bytes = { lines := ["a", "b", "c"], broken := true } ∧
      (∀ status output,
        Ends options bytes (fun input => input.Accepts ∧ input ≠ .tick) status output ↔
          status = 1 ∧ output = "a+b\nc\n") ∧
      Ends options bytes Buffer.Input.Accepts 1 "a\nb+c\n" := by
  obtain ⟨_, _, hall⟩ := prints_lines_in_batches { join := "+", maxSize := 2, rate := some 1 }
    [97, 10, 98, 13, 10, 99, 10, 255, 10, 100, 10]
  have hread : Reading.ofBytes [97, 10, 98, 13, 10, 99, 10, 255, 10, 100, 10] =
      { lines := ["a", "b", "c"], broken := true } := by decide +kernel
  have hzero : ¬ ({ join := "+", maxSize := 2, rate := some 1 } : Options).HasZero := by
    simp [Options.HasZero, Options.room]
  have htime : ({ join := "+", maxSize := 2, rate := some 1 } : Options).HasTimeFor
      (Reading.ofBytes [97, 10, 98, 13, 10, 99, 10, 255, 10, 100, 10]).lines.length := by
    rw [hread]
    exact .inr (by decide)
  have hcalm := hall hzero (fun input => input.Accepts ∧ input ≠ .tick) fun _ hinput => hinput.1
  have htimed := hall hzero Buffer.Input.Accepts fun _ hinput => hinput
  refine ⟨_, _, rfl, hread, fun status output => ⟨fun hends => ?_, ?_⟩, ?_⟩
  · obtain ⟨hstatus, batches, _, hchunks, houtput⟩ := hcalm.batched status output hends
    rw [hread] at hstatus hchunks
    refine ⟨hstatus, ?_⟩
    rw [houtput, hchunks fun htick => htick.2 rfl]
    decide +kernel
  · rintro ⟨rfl, rfl⟩
    have hsuffices : Suffices fun input => input.Accepts ∧ input ≠ .tick :=
      ⟨⟨by rintro _ ⟨⟩, by rintro ⟨⟩⟩, ⟨by rintro _ ⟨⟩; rfl, by rintro ⟨⟩⟩,
        ⟨by rintro _ ⟨⟩, by rintro ⟨⟩⟩⟩
    refine hcalm.complete hsuffices htime _ _ ?_
    rw [hread]
    refine ⟨rfl, [["a", "b"], ["c"]], ⟨rfl, by decide⟩, fun _ => ?_, by decide +kernel⟩
    decide +kernel
  · refine htimed.complete ⟨by rintro _ ⟨⟩, by rintro _ ⟨⟩; rfl, by rintro _ ⟨⟩⟩ htime _ _ ?_
    rw [hread]
    refine ⟨rfl, [["a"], ["b", "c"]], ⟨rfl, by decide⟩, fun htick => ?_, by decide +kernel⟩
    exact absurd (by rintro _ ⟨⟩) htick

end Backpressure.LineBatch
