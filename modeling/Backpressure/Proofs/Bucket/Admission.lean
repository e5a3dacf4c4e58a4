import Backpressure.Proofs.Bucket.Account
import Mathlib.Data.List.Chain

/-!
# How much a token bucket admits

A window of a bucket admits no more than its threshold, and windows begin a period apart. So what
is admitted is bounded by the windows that fit into the time since the bucket was made, however the
clock jumps. Where the clock never runs backwards, a stretch of time as long as a period meets two
windows at most.
-/

namespace Backpressure.Bucket

/-- The readings that have begun new windows, in order. -/
def refills (s : System monitor) : List Instant := told refilled? s.view.notes

/-- The tokens that have been taken, in order, each with the thread that took it and the reading at
which it did. -/
def admissions (s : System monitor) : List (Nat × Instant) := told admitted? s.view.notes

/-- Does a reading fall into the stretch of time from a moment on? -/
def isWithin (t : Instant) (duration : Duration) (reading : Instant) : Bool :=
  t ≤ reading && reading.nanos < t.nanos + duration.nanos

theorem isWithin_eq_false {t reading : Instant} {duration : Duration}
    (h : t.nanos + duration.nanos ≤ reading.nanos) : isWithin t duration reading = false := by
  rw [isWithin, Bool.and_eq_false_iff, decide_eq_false_iff_not, decide_eq_false_iff_not]
  omega

/-! ### Windows and tokens -/

/-- How the account of a bucket stands that was made at a reading. -/
structure Account.Kept (threshold : Nat) (period : Duration) (made : Instant) (a : Account) :
    Prop where
  threshold_eq : a.bucket.threshold = threshold
  period_eq : a.bucket.period = period
  /-- A token of the window is left or has been taken. -/
  tokens : a.bucket.tokens + (sinceRefill a.notes).length = threshold
  /-- The checkpoint is where the last window began. -/
  last : (made :: told refilled? a.notes).getLast? = some a.bucket.checkpoint
  /-- Windows begin a period apart. -/
  apart : (made :: told refilled? a.notes).IsChain fun c c' => c.nanos + period.nanos ≤ c'.nanos
  /-- So the checkpoint tells how many windows there can have been. -/
  elapsed : made.nanos + (told refilled? a.notes).length * period.nanos ≤ a.bucket.checkpoint.nanos
  /-- The checkpoint has been read. -/
  read : a.bucket.checkpoint ∈ made :: a.readings
  /-- A window that is over has not admitted more than its tokens. -/
  total : (told admitted? a.notes).length ≤
    threshold * (told refilled? a.notes).length + (sinceRefill a.notes).length

namespace Account.Kept

variable {threshold : Nat} {period : Duration} {made : Instant} {a a' : Account}

theorem length_sinceRefill_le (h : a.Kept threshold period made) :
    (sinceRefill a.notes).length ≤ threshold := by
  rw [← h.tokens]
  exact Nat.le_add_left _ _

/-- A new window has all its tokens, and begins a period after the old one at least. -/
theorem refill (h : a.Kept threshold period made) (thread : Nat) {reading : Instant}
    (ended : a.bucket.isOver reading = true) :
    Account.Kept threshold period made
      { bucket := { a.bucket with tokens := a.bucket.threshold, checkpoint := reading }
        notes := (thread, .refilled reading a.bucket.threshold a.bucket.tokens) :: a.notes
        readings := a.readings ++ [reading] } := by
  have hrefills : told refilled? ((thread, Note.refilled reading a.bucket.threshold
      a.bucket.tokens) :: a.notes) = told refilled? a.notes ++ [reading] := told_cons ..
  have hadmissions : told admitted? ((thread, Note.refilled reading a.bucket.threshold
      a.bucket.tokens) :: a.notes) = told admitted? a.notes := by
    rw [told_cons]
    exact List.append_nil _
  rw [isOver_iff, h.period_eq] at ended
  refine ⟨h.threshold_eq, h.period_eq, h.threshold_eq, ?_, ?_, ?_, ?_, ?_⟩
  · rw [hrefills, ← List.cons_append]
    exact List.getLast?_concat
  · rw [hrefills, ← List.cons_append, List.isChain_append]
    refine ⟨h.apart, List.isChain_singleton _, ?_⟩
    intro c hc c' hc'
    rw [h.last] at hc
    cases hc
    cases hc'
    exact ended
  · rw [hrefills, List.length_append, List.length_singleton, Nat.add_mul, Nat.one_mul,
      ← Nat.add_assoc]
    exact Nat.le_trans (Nat.add_le_add_right h.elapsed _) ended
  · exact List.mem_cons_of_mem _ (List.mem_append_right _ (List.mem_singleton_self _))
  · have htotal := h.total
    rw [hrefills, hadmissions, List.length_append, List.length_singleton, Nat.mul_add,
      Nat.mul_one]
    exact Nat.le_trans htotal (Nat.add_le_add_left h.length_sinceRefill_le _)

/-- A token that is taken counts for the window. -/
theorem take (h : a.Kept threshold period made) (thread : Nat) {reading : Instant}
    (left : 0 < a.bucket.tokens) :
    Account.Kept threshold period made
      { a with
        bucket := { a.bucket with tokens := a.bucket.tokens - 1 }
        notes := (thread, .admitted reading) :: a.notes } := by
  have hrefills : told refilled? ((thread, Note.admitted reading) :: a.notes) =
      told refilled? a.notes := by
    rw [told_cons]
    exact List.append_nil _
  have hadmissions : told admitted? ((thread, Note.admitted reading) :: a.notes) =
      told admitted? a.notes ++ [(thread, reading)] := told_cons ..
  have hrecent : (sinceRefill ((thread, Note.admitted reading) :: a.notes)).length =
      (sinceRefill a.notes).length + 1 := List.length_append
  have htokens := h.tokens
  have htotal := h.total
  refine ⟨h.threshold_eq, h.period_eq, ?_, ?_, ?_, ?_, h.read, ?_⟩
  · rw [hrecent]
    change a.bucket.tokens - 1 + _ = threshold
    omega
  · rw [hrefills]
    exact h.last
  · rw [hrefills]
    exact h.apart
  · rw [hrefills]
    exact h.elapsed
  · rw [hrefills, hadmissions, hrecent, List.length_append, List.length_singleton,
      ← Nat.add_assoc]
    exact Nat.add_le_add_right htotal 1

theorem step (h : a.Kept threshold period made) (hstep : a.Step a') :
    a'.Kept threshold period made := by
  cases hstep with
  | read =>
    refine ⟨h.threshold_eq, h.period_eq, h.tokens, h.last, h.apart, h.elapsed, ?_, h.total⟩
    rw [← List.cons_append]
    exact List.mem_append_left _ h.read
  | refill ended => exact h.refill _ ended
  | take last left => exact h.take _ left
  | aside quiet =>
    refine ⟨h.threshold_eq, h.period_eq, ?_, ?_, ?_, ?_, h.read, ?_⟩
    · rw [sinceRefill_aside quiet]
      exact h.tokens
    · rw [told_refilled?_aside quiet]
      exact h.last
    · rw [told_refilled?_aside quiet]
      exact h.apart
    · rw [told_refilled?_aside quiet]
      exact h.elapsed
    · rw [told_refilled?_aside quiet, told_admitted?_aside quiet, sinceRefill_aside quiet]
      exact h.total

/-- A new bucket has taken nothing, and its window begins where it was made. -/
theorem of_create {b : Bucket} (hmade : create threshold period made = .ok b) :
    Account.Kept threshold period made ⟨b, [], []⟩ := by
  obtain ⟨hthreshold, hperiod, htokens, hcheckpoint⟩ := create_eq_ok_iff.1 hmade
  refine ⟨hthreshold, hperiod, htokens, ?_, List.isChain_singleton _, ?_, ?_, Nat.zero_le _⟩
  · rw [hcheckpoint]
    rfl
  · rw [hcheckpoint, told_nil, List.length_nil, Nat.zero_mul, Nat.add_zero]
  · rw [hcheckpoint]
    exact List.mem_singleton_self _

theorem steps (h : a.Kept threshold period made) (hsteps : a.Steps a') :
    a'.Kept threshold period made := by
  induction hsteps with
  | refl => exact h
  | tail _ hstep ih => exact ih.step hstep

/-- No more windows have begun than periods have passed, up to any moment that the clock has not
gone beyond. -/
theorem length_admissions_le (h : a.Kept threshold period made) {moment : Instant}
    (hmade : made ≤ moment) (hread : ∀ reading ∈ a.readings, reading ≤ moment) :
    (told admitted? a.notes).length ≤
      threshold * (1 + (moment.since made).nanos / period.nanos) := by
  have hreached : a.bucket.checkpoint ≤ moment := by
    rcases List.mem_cons.1 h.read with heq | hmem
    · exact heq ▸ hmade
    · exact hread _ hmem
  have helapsed := h.elapsed
  have hperiod : 0 < period.nanos := h.period_eq ▸ a.bucket.period_pos
  have hwindows : (told refilled? a.notes).length ≤
      (moment.since made).nanos / period.nanos := by
    rw [Nat.le_div_iff_mul_le hperiod]
    have hsince : (moment.since made).nanos = moment.nanos - made.nanos := rfl
    rw [Instant.le_def] at hreached
    omega
  calc (told admitted? a.notes).length
      ≤ threshold * (told refilled? a.notes).length + (sinceRefill a.notes).length := h.total
    _ ≤ threshold * (told refilled? a.notes).length + threshold :=
        Nat.add_le_add_left h.length_sinceRefill_le _
    _ = threshold * (1 + (told refilled? a.notes).length) := by
        rw [Nat.mul_add, Nat.mul_one, Nat.add_comm]
    _ ≤ threshold * (1 + (moment.since made).nanos / period.nanos) :=
        Nat.mul_le_mul_left _ (Nat.add_le_add_left hwindows 1)

end Account.Kept

/-! ### Stretches of time -/

/-- How many tokens have been taken at readings within a stretch of time. -/
def Account.within (t : Instant) (duration : Duration) (a : Account) : Nat :=
  (told admitted? a.notes).countP fun admission => isWithin t duration admission.2

namespace Account

variable {t : Instant} {duration : Duration} {a : Account} {b : Bucket} {readings : List Instant}
  {thread : Nat} {reading : Instant}

/-- A new window admits nothing. -/
theorem within_refill {threshold left : Nat} :
    Account.within t duration ⟨b, (thread, .refilled reading threshold left) :: a.notes, readings⟩ =
      a.within t duration := by
  rw [Account.within, told_cons]
  exact congrArg (List.countP _) (List.append_nil _)

/-- A token counts where its reading falls into the stretch. -/
theorem within_take :
    Account.within t duration ⟨b, (thread, .admitted reading) :: a.notes, readings⟩ =
      a.within t duration + (isWithin t duration reading).toNat := by
  rw [Account.within, told_cons, List.countP_append]
  change _ + List.countP _ [(thread, reading)] = _
  rw [List.countP_singleton]
  cases isWithin t duration reading <;> rfl

theorem within_aside {note : Note} (quiet : note.isAside = true) :
    Account.within t duration ⟨b, (thread, note) :: a.notes, readings⟩ = a.within t duration := by
  rw [Account.within, told_admitted?_aside quiet, ← Account.within]

end Account

/-- What an account whose clock runs forward has admitted in a stretch of time as long as a period:
so far one window meets it, or a second one has begun in it, or a window has begun after it. -/
inductive Account.Meets (t : Instant) (a : Account) : Prop
  | one (bound : a.within t a.bucket.period + a.bucket.tokens ≤ a.bucket.threshold)
  | two (begun : t ≤ a.bucket.checkpoint)
      (bound : a.within t a.bucket.period + a.bucket.tokens ≤ 2 * a.bucket.threshold)
  | past (gone : t.nanos + a.bucket.period.nanos ≤ a.bucket.checkpoint.nanos)
      (read : ∃ reading ∈ a.readings, a.bucket.checkpoint ≤ reading)
      (bound : a.within t a.bucket.period ≤ 2 * a.bucket.threshold)

/-- What is taken within a stretch of time is taken once the clock has reached it. -/
structure Account.Bunched (t : Instant) (a : Account) : Prop where
  reached : 0 < a.within t a.bucket.period → ∃ reading ∈ a.readings, t ≤ reading
  meets : a.Meets t

namespace Account.Bunched

variable {t : Instant} {a a' : Account}

theorem le_of_meets (h : a.Meets t) : a.within t a.bucket.period ≤ 2 * a.bucket.threshold := by
  cases h with
  | one bound => omega
  | two _ bound => omega
  | past _ _ bound => exact bound

/-- Where readings never decrease, the last one is the largest. -/
theorem le_of_getLast? {readings : List Instant} {last : Instant}
    (hsorted : readings.Pairwise (· ≤ ·)) (hlast : readings.getLast? = some last) :
    ∀ reading ∈ readings, reading ≤ last := by
  obtain ⟨earlier, rfl⟩ := List.getLast?_eq_some_iff.1 hlast
  intro reading hmem
  rcases List.mem_append.1 hmem with hearlier | hsame
  · exact (List.pairwise_append.1 hsorted).2.2 reading hearlier last (List.mem_singleton_self _)
  · rw [List.mem_singleton.1 hsame]
    exact Nat.le_refl _

theorem read (h : a.Bunched t) (reading : Instant) :
    Account.Bunched t { a with readings := a.readings ++ [reading] } := by
  have hgrown : ∀ {P : Instant → Prop}, (∃ r ∈ a.readings, P r) →
      ∃ r ∈ a.readings ++ [reading], P r :=
    fun ⟨r, hmem, hr⟩ => ⟨r, List.mem_append_left _ hmem, hr⟩
  refine ⟨fun hsome => hgrown (h.reached hsome), ?_⟩
  cases h.meets with
  | one bound => exact .one bound
  | two begun bound => exact .two begun bound
  | past gone read bound => exact .past gone (hgrown read) bound

/-- A new window is the second one to meet the stretch of time, or begins after it. -/
theorem refill (h : a.Bunched t) (thread : Nat) {reading : Instant}
    (ended : a.bucket.isOver reading = true)
    (hsorted : (a.readings ++ [reading]).Pairwise (· ≤ ·)) :
    Account.Bunched t
      { bucket := { a.bucket with tokens := a.bucket.threshold, checkpoint := reading }
        notes := (thread, .refilled reading a.bucket.threshold a.bucket.tokens) :: a.notes
        readings := a.readings ++ [reading] } := by
  have hsame : Account.within t a.bucket.period
      { bucket := { a.bucket with tokens := a.bucket.threshold, checkpoint := reading }
        notes := (thread, .refilled reading a.bucket.threshold a.bucket.tokens) :: a.notes
        readings := a.readings ++ [reading] } = a.within t a.bucket.period := within_refill
  have hlast := le_of_getLast? hsorted List.getLast?_concat
  have hread : ∃ r ∈ a.readings ++ [reading], reading ≤ r :=
    ⟨reading, List.mem_append_right _ (List.mem_singleton_self _), Nat.le_refl _⟩
  rw [isOver_iff] at ended
  constructor
  · intro hsome
    rw [hsame] at hsome
    obtain ⟨r, hmem, hr⟩ := h.reached hsome
    exact ⟨r, List.mem_append_left _ hmem, hr⟩
  · cases h.meets with
    | one bound =>
      by_cases hnone : a.within t a.bucket.period = 0
      · refine .one ?_
        rw [hsame, hnone]
        exact Nat.le_of_eq (Nat.zero_add _)
      · -- the clock has reached the stretch, so the new window does not begin before it
        obtain ⟨r, hmem, hr⟩ := h.reached (Nat.pos_of_ne_zero hnone)
        refine .two (Nat.le_trans hr (hlast r (List.mem_append_left _ hmem))) ?_
        rw [hsame]
        change _ + a.bucket.threshold ≤ 2 * a.bucket.threshold
        omega
    | two begun bound =>
      refine .past (Nat.le_trans (Nat.add_le_add_right begun _) ended) hread ?_
      rw [hsame]
      exact le_of_meets (.two begun bound)
    | past gone read bound =>
      refine .past (Nat.le_trans gone (Nat.le_trans (Nat.le_add_right _ _) ended)) hread ?_
      rw [hsame]
      exact bound

/-- A token that is taken after the stretch of time does not count, and before its end the window
has had it. -/
theorem take (h : a.Bunched t) (thread : Nat) {reading : Instant}
    (last : a.readings.getLast? = some reading) (left : 0 < a.bucket.tokens)
    (hsorted : a.readings.Pairwise (· ≤ ·)) :
    Account.Bunched t
      { a with
        bucket := { a.bucket with tokens := a.bucket.tokens - 1 }
        notes := (thread, .admitted reading) :: a.notes } := by
  have hmore : Account.within t a.bucket.period
      { a with
        bucket := { a.bucket with tokens := a.bucket.tokens - 1 }
        notes := (thread, .admitted reading) :: a.notes } =
      a.within t a.bucket.period + (isWithin t a.bucket.period reading).toNat := within_take
  have hone : (isWithin t a.bucket.period reading).toNat ≤ 1 := Bool.toNat_le _
  constructor
  · intro hsome
    by_cases hcounts : isWithin t a.bucket.period reading = true
    · have hbegun := (Bool.and_eq_true_iff.1 hcounts).1
      exact ⟨reading, List.mem_of_getLast? last, of_decide_eq_true hbegun⟩
    · rw [hmore, eq_false_of_ne_true hcounts] at hsome
      exact h.reached hsome
  · cases h.meets with
    | one bound =>
      refine .one ?_
      rw [hmore]
      change _ + (a.bucket.tokens - 1) ≤ a.bucket.threshold
      omega
    | two begun bound =>
      refine .two begun ?_
      rw [hmore]
      change _ + (a.bucket.tokens - 1) ≤ 2 * a.bucket.threshold
      omega
    | past gone read bound =>
      obtain ⟨r, hmem, hr⟩ := read
      have hlate := Nat.le_trans gone (Nat.le_trans hr (le_of_getLast? hsorted last r hmem))
      refine .past gone ⟨r, hmem, hr⟩ ?_
      rw [hmore, isWithin_eq_false hlate]
      exact bound

/-- What concerns neither windows nor tokens changes nothing. -/
theorem aside (h : a.Bunched t) (thread : Nat) {note : Note} (quiet : note.isAside = true) :
    Account.Bunched t { a with notes := (thread, note) :: a.notes } := by
  have hsame : Account.within t a.bucket.period { a with notes := (thread, note) :: a.notes } =
      a.within t a.bucket.period := within_aside quiet
  refine ⟨fun hsome => h.reached (hsame ▸ hsome), ?_⟩
  cases h.meets with
  | one bound => exact .one (by rw [hsame]; exact bound)
  | two begun bound => exact .two begun (by rw [hsame]; exact bound)
  | past gone read bound => exact .past gone read (by rw [hsame]; exact bound)

theorem step (h : a.Bunched t) (hstep : a.Step a') (hsorted : a'.readings.Pairwise (· ≤ ·)) :
    a'.Bunched t := by
  cases hstep with
  | read => exact h.read _
  | refill ended => exact h.refill _ ended hsorted
  | take last left => exact h.take _ last left hsorted
  | aside quiet => exact h.aside _ quiet

theorem steps (h : a.Bunched t) (hsteps : a.Steps a')
    (hsorted : a'.readings.Pairwise (· ≤ ·)) : a'.Bunched t := by
  induction hsteps with
  | refl => exact h
  | tail _ hstep ih =>
    exact (ih (hsorted.sublist hstep.readings_isPrefix.sublist)).step hstep hsorted

/-- A new bucket has taken nothing. -/
theorem of_create {threshold : Nat} {period : Duration} {made : Instant} {b : Bucket}
    (hmade : create threshold period made = .ok b) : Account.Bunched t ⟨b, [], []⟩ := by
  obtain ⟨hthreshold, _, htokens, _⟩ := create_eq_ok_iff.1 hmade
  refine ⟨fun hsome => absurd hsome (Nat.lt_irrefl _), .one ?_⟩
  change 0 + b.tokens ≤ b.threshold
  omega

end Account.Bunched

/-! ### Whole runs -/

/-- The thread whose acquisition has returned with a token. -/
def acquirer? : Call monitor × Reply → Option Nat
  | (call, .acquired true) => some call.thread
  | _ => none

/-- A thread that is inside a bucket is in a call. -/
def calledRule : CallRule monitor where
  stands call? _ := call?.isSome
  comes _ _ := True
  start _ _ _ := rfl
  step := by
    intro call? position state now input move hstands _
    exact ⟨fun _ _ => by rwa [Option.isSome_map], fun _ _ _ _ => trivial⟩

section Runs

variable {threshold : Nat} {period : Duration} {made now : Instant} {b : Bucket}
  {readings : List Instant} {s : System monitor}

/-- A step takes a token where its call returns with one. -/
theorem acquirer?_endedBy {position : Position} {reading : Instant} {move : Bucket.Step}
    {thread : Nat} {journal : List (Entry monitor)} {call : Call monitor}
    (heffect : Effect b now reading position move)
    (hopen : openCall thread journal = some call) :
    (endedBy (M := monitor) thread move journal).toList.filterMap acquirer? =
      move.notes.filterMap fun note => (admitted? (thread, note)).map (·.1) := by
  have hwindow : (windowNotes b reading).filterMap
      (fun note => (admitted? (thread, note)).map (·.1)) = [] := by
    unfold windowNotes
    cases b.isOver reading <;> rfl
  have hthread := thread_of_openCall hopen
  cases heffect with
  | grant =>
    rw [List.filterMap_append, hwindow, endedBy, hopen, ← hthread]
    rfl
  | refuse | giveUp =>
    rw [List.filterMap_append, hwindow, endedBy, hopen]
    rfl
  | wait =>
    rw [List.filterMap_append, hwindow, endedBy]
    rfl
  | count =>
    rw [hwindow, endedBy, hopen]
    rfl
  | inspect =>
    rw [endedBy, hopen]
    rfl

/-- Tokens are taken by the calls that return with one, in the order in which they do. -/
theorem threads_admissions (h : (System.initial b now []).Reachable s) :
    (admissions s).map (·.1) = s.returns.filterMap acquirer? := by
  have hboth : calledRule.Holds s ∧
      told (fun noted => (admitted? noted).map (·.1)) s.view.notes =
        s.returns.filterMap acquirer? := by
    refine h.reachableBy.invariant (P := fun s => calledRule.Holds s ∧
      told (fun noted => (admitted? noted).map (·.1)) s.view.notes =
        s.returns.filterMap acquirer?) ⟨CallRule.holds .start (by simp), rfl⟩ ?_
    rintro s s' event ⟨hcalled, htold⟩ _ hchange
    refine ⟨hcalled.change hchange, told_change htold ?_ hchange⟩
    intro thread position moment reading move hplace moves
    obtain ⟨call, hopen⟩ := Option.isSome_iff_exists.1 (hcalled.stands hplace)
    cases moves
    exact acquirer?_endedBy (effect _ _ _ _) hopen
  rw [← hboth.2, admissions, told, told, List.map_reverse, List.map_filterMap]

/-- A bucket never admits too much, whatever threads do and however its clock jumps. Tokens are
taken by the calls that return with one. What is left and what has been taken since the last window
began make up the threshold, and windows begin a period apart. Up to any moment that the clock has
not gone beyond, at most the threshold has been admitted for each period that has begun since the
bucket was made. If the clock has never run backwards, any stretch of time as long as a period has
seen at most twice the threshold. -/
theorem never_admits_too_much (hmade : create threshold period made = .ok b)
    (h : (System.initial b now []).Reachable s) :
    (admissions s).map (·.1) = s.returns.filterMap acquirer? ∧
      s.state.tokens + (sinceRefill s.view.notes).length = threshold ∧
      (made :: refills s).IsChain (fun c c' => c.nanos + period.nanos ≤ c'.nanos) ∧
      (made :: refills s).getLast? = some s.state.checkpoint ∧
      ∀ readings, Reads (.initial b now []) readings s →
        (∀ moment, made ≤ moment → (∀ reading ∈ readings, reading ≤ moment) →
          (admissions s).length ≤ threshold * (1 + (moment.since made).nanos / period.nanos)) ∧
        (readings.Pairwise (· ≤ ·) → ∀ t,
          (admissions s).countP (fun admission => isWithin t period admission.2) ≤
            2 * threshold) := by
  have hkept : ∀ readings, Reads (.initial b now []) readings s →
      (accountOf s readings).Kept threshold period made :=
    fun _ hreads => (Account.Kept.of_create hmade).steps hreads.steps
  obtain ⟨readings, hreads⟩ := exists_reads h
  have hhere := hkept readings hreads
  refine ⟨threads_admissions h, hhere.tokens, hhere.apart, hhere.last, ?_⟩
  intro readings hreads
  refine ⟨fun _ hafter hread => (hkept readings hreads).length_admissions_le hafter hread, ?_⟩
  intro hsorted t
  have hbunched := (Account.Bunched.of_create (t := t) hmade).steps hreads.steps hsorted
  have hbound := Account.Bunched.le_of_meets hbunched.meets
  rwa [(hkept readings hreads).period_eq, (hkept readings hreads).threshold_eq] at hbound

end Runs

/-- What a clock shows so many nanoseconds after the earliest moment. -/
def clockAt (nanos : Nat) : Instant :=
  ⟨(Duration.ofNanos nanos).nanos, (Duration.ofNanos nanos).nanos_lt⟩

/-- A bucket of two tokens for ten nanoseconds each. -/
def twoInTen : Bucket :=
  { threshold := 2, period := ⟨10, by decide⟩, tokens := 2, checkpoint := ⟨100, by decide⟩,
    threshold_pos := Nat.succ_pos 1, period_pos := Nat.succ_pos 9 }

/-- Two tokens are taken shortly before the end of a window, a call waits for another one, and two
are taken as soon as the next window has begun. -/
def aroundTheEnd : List (Event monitor) :=
  [.arrive, .arrive, .call 0 .tryAcquire, .step 0 ⟨108, by decide⟩ 0, .call 1 .acquire,
    .step 1 ⟨109, by decide⟩ 0, .call 0 .tryAcquire, .step 0 ⟨109, by decide⟩ 0, .call 1 .acquire,
    .step 1 ⟨109, by decide⟩ 0, .rouse 1, .step 1 ⟨110, by decide⟩ 0, .call 0 .tryAcquire,
    .step 0 ⟨111, by decide⟩ 0]

theorem never_admits_too_much_aroundTheEnd :
    ∃ s, create 2 ⟨10, by decide⟩ ⟨100, by decide⟩ = .ok twoInTen ∧
      (System.initial twoInTen .midrange []).run aroundTheEnd = some s ∧
      (admissions s).map (·.2.nanos) = [108, 109, 110, 111] ∧
      s.state.tokens + (sinceRefill s.view.notes).length = 2 ∧
      (admissions s).length ≤ 2 * (1 + 11 / 10) ∧
      (admissions s).countP (fun admission =>
        isWithin ⟨108, by decide⟩ ⟨10, by decide⟩ admission.2) ≤ 2 * 2 := by
  have hruns : ((System.initial twoInTen .midrange []).run aroundTheEnd).map (fun s =>
      decide ((admissions s).map (·.2.nanos) = [108, 109, 110, 111] ∧
        (readingsBy (.initial twoInTen .midrange []) aroundTheEnd).Pairwise (· ≤ ·) ∧
        ∀ reading ∈ readingsBy (.initial twoInTen .midrange []) aroundTheEnd,
          reading ≤ ⟨111, by decide⟩)) = some true := by
    decide +kernel
  simp only [Option.map_eq_some_iff, decide_eq_true_eq] at hruns
  obtain ⟨s, hrun, hadmitted, hsorted, hread⟩ := hruns
  have hmade : create 2 ⟨10, by decide⟩ ⟨100, by decide⟩ = .ok twoInTen := rfl
  obtain ⟨_, htokens, _, _, hreadings⟩ := never_admits_too_much hmade (.run .start hrun)
  obtain ⟨htotal, hstretch⟩ := hreadings _ (Reads.start.run hrun)
  exact ⟨s, hmade, hrun, hadmitted, htokens, htotal ⟨111, by decide⟩ (by decide) hread,
    hstretch hsorted _⟩

end Backpressure.Bucket
