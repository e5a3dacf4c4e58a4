import Backpressure.Proofs.Bucket.Waking

/-!
# From where a window is measured

The window of a bucket begins at the reading that brings the tokens back, and where the clock never
runs backwards it admits no more than the threshold from that reading on. An acquisition that brings
the tokens back takes the first of them at the same reading. A count of the tokens brings them back
and takes none. The first acquisition then comes later, and a period from there on may reach into
the next window.
-/

namespace Backpressure.Bucket

/-- The first token after a new window that began at a reading `r` was taken at a reading `t`. -/
def FirstAfter (s : System monitor) (r t : Instant) : Prop :=
  ∃ (taker beginner threshold left : Nat) (later between earlier : List (Nat × Note)),
    s.view.notes = later ++ (taker, .admitted t) :: between ++
        (beginner, .refilled r threshold left) :: earlier ∧
    told admitted? between = []

/-- How the account of a bucket stands that was made at a reading, where the clock has never run
backwards. -/
structure Account.Paced (made : Instant) (a : Account) : Prop where
  /-- No reading is beyond the window. -/
  ahead : ∀ reading ∈ a.readings, reading.nanos < a.bucket.checkpoint.nanos + a.bucket.period.nanos
  /-- Tokens are taken at readings. -/
  read : ∀ admission ∈ told admitted? a.notes, admission.2 ∈ a.readings
  /-- What the window has admitted, and what is left of it, is within the threshold. -/
  present : a.within a.bucket.checkpoint a.bucket.period + a.bucket.tokens ≤ a.bucket.threshold
  /-- Every other window is over, and the clock has gone beyond it. -/
  past : ∀ r ∈ made :: told refilled? a.notes, r = a.bucket.checkpoint ∨
    r.nanos + a.bucket.period.nanos ≤ a.bucket.checkpoint.nanos ∧
      a.bucket.checkpoint ∈ a.readings ∧ a.within r a.bucket.period ≤ a.bucket.threshold

namespace Account.Paced

variable {made : Instant} {a a' : Account}

/-- A window, present or past, has admitted no more than the threshold. -/
theorem within_le (h : a.Paced made) {r : Instant} (hr : r ∈ made :: told refilled? a.notes) :
    a.within r a.bucket.period ≤ a.bucket.threshold := by
  rcases h.past r hr with rfl | ⟨_, _, hwithin⟩
  · exact Nat.le_trans (Nat.le_add_right _ _) h.present
  · exact hwithin

/-- A reading that falls into the window is not beyond it. -/
theorem advance (h : a.Paced made) {reading : Instant} (within : a.bucket.isOver reading = false) :
    Account.Paced made { a with readings := a.readings ++ [reading] } where
  ahead r hr := by
    rcases List.mem_append.1 hr with hold | hnew
    · exact h.ahead r hold
    · have hearly := ne_true_of_eq_false within
      rw [isOver_iff] at hearly
      rw [List.mem_singleton.1 hnew]
      exact Nat.lt_of_not_le hearly
  read admission hmem := List.mem_append_left _ (h.read admission hmem)
  present := h.present
  past r hr := (h.past r hr).imp_right fun ⟨hover, hread, hwithin⟩ =>
    ⟨hover, List.mem_append_left _ hread, hwithin⟩

/-- A new window begins at a reading at which nothing has been admitted yet, because the window
before it would have ended there. -/
theorem refill (h : a.Paced made) (thread : Nat) {reading : Instant}
    (ended : a.bucket.isOver reading = true) :
    Account.Paced made
      { bucket := { a.bucket with tokens := a.bucket.threshold, checkpoint := reading }
        notes := (thread, .refilled reading a.bucket.threshold a.bucket.tokens) :: a.notes
        readings := a.readings ++ [reading] } := by
  have hrefills : told refilled? ((thread, Note.refilled reading a.bucket.threshold
      a.bucket.tokens) :: a.notes) = told refilled? a.notes ++ [reading] := told_cons ..
  have hadmissions : told admitted? ((thread, Note.refilled reading a.bucket.threshold
      a.bucket.tokens) :: a.notes) = told admitted? a.notes := by
    rw [told_cons]
    exact List.append_nil _
  rw [isOver_iff] at ended
  have hperiod := a.bucket.period_pos
  have hread : reading ∈ a.readings ++ [reading] :=
    List.mem_append_right _ (List.mem_singleton_self _)
  constructor
  · intro r hr
    change r.nanos < reading.nanos + a.bucket.period.nanos
    rcases List.mem_append.1 hr with hold | hnew
    · have hbefore := h.ahead r hold
      omega
    · rw [List.mem_singleton.1 hnew]
      omega
  · intro admission hmem
    rw [hadmissions] at hmem
    exact List.mem_append_left _ (h.read admission hmem)
  · have hnone : a.within reading a.bucket.period = 0 := by
      rw [Account.within, List.countP_eq_zero]
      intro admission hmem hcounts
      have hbefore := h.ahead _ (h.read admission hmem)
      have hbegun := (Bool.and_eq_true_iff.1 hcounts).1
      rw [decide_eq_true_eq, Instant.le_def] at hbegun
      omega
    change Account.within reading a.bucket.period _ + a.bucket.threshold ≤ a.bucket.threshold
    rw [within_refill, hnone, Nat.zero_add]
  · intro r hr
    rw [hrefills, ← List.cons_append] at hr
    rcases List.mem_append.1 hr with hold | hnew
    · right
      refine ⟨?_, hread, ?_⟩
      · change r.nanos + a.bucket.period.nanos ≤ reading.nanos
        rcases h.past r hold with rfl | ⟨hover, _, _⟩
        · exact ended
        · omega
      · change Account.within r a.bucket.period _ ≤ a.bucket.threshold
        rw [within_refill]
        exact h.within_le hold
    · exact .inl (List.mem_singleton.1 hnew)

/-- A token is taken from the window, and its reading is beyond the end of every other one. -/
theorem take (h : a.Paced made) (thread : Nat) {reading : Instant}
    (last : a.readings.getLast? = some reading) (left : 0 < a.bucket.tokens)
    (hsorted : a.readings.Pairwise (· ≤ ·)) :
    Account.Paced made
      { a with
        bucket := { a.bucket with tokens := a.bucket.tokens - 1 }
        notes := (thread, .admitted reading) :: a.notes } := by
  have hrefills : told refilled? ((thread, Note.admitted reading) :: a.notes) =
      told refilled? a.notes := by
    rw [told_cons]
    exact List.append_nil _
  have hadmissions : told admitted? ((thread, Note.admitted reading) :: a.notes) =
      told admitted? a.notes ++ [(thread, reading)] := told_cons ..
  constructor
  · exact h.ahead
  · intro admission hmem
    rw [hadmissions] at hmem
    rcases List.mem_append.1 hmem with hold | hnew
    · exact h.read admission hold
    · rw [List.mem_singleton.1 hnew]
      exact List.mem_of_getLast? last
  · have hone : (isWithin a.bucket.checkpoint a.bucket.period reading).toNat ≤ 1 :=
      Bool.toNat_le _
    have hpresent := h.present
    change Account.within a.bucket.checkpoint a.bucket.period _ + (a.bucket.tokens - 1) ≤
      a.bucket.threshold
    rw [within_take]
    omega
  · intro r hr
    rw [hrefills] at hr
    refine (h.past r hr).imp_right ?_
    rintro ⟨hover, hread, hwithin⟩
    have hlate : a.bucket.checkpoint ≤ reading :=
      Account.Bunched.le_of_getLast? hsorted last _ hread
    refine ⟨hover, hread, ?_⟩
    change Account.within r a.bucket.period _ ≤ a.bucket.threshold
    rw [within_take, isWithin_eq_false (Nat.le_trans hover hlate)]
    exact hwithin

/-- What concerns neither windows nor tokens changes nothing. -/
theorem aside (h : a.Paced made) (thread : Nat) {note : Note} (quiet : note.isAside = true) :
    Account.Paced made { a with notes := (thread, note) :: a.notes } := by
  constructor
  · exact h.ahead
  · rw [told_admitted?_aside quiet]
    exact h.read
  · rw [within_aside quiet]
    exact h.present
  · intro r hr
    rw [told_refilled?_aside quiet] at hr
    rw [within_aside quiet]
    exact h.past r hr

theorem step (h : a.Paced made) (hstep : a.Step a') (hsorted : a'.readings.Pairwise (· ≤ ·)) :
    a'.Paced made := by
  cases hstep with
  | read within => exact h.advance within
  | refill ended => exact h.refill _ ended
  | take last left => exact h.take _ last left hsorted
  | aside quiet => exact h.aside _ quiet

theorem steps (h : a.Paced made) (hsteps : a.Steps a') (hsorted : a'.readings.Pairwise (· ≤ ·)) :
    a'.Paced made := by
  induction hsteps with
  | refl => exact h
  | tail _ hstep ih =>
    exact (ih (hsorted.sublist hstep.readings_isPrefix.sublist)).step hstep hsorted

/-- The first window begins where the bucket is made. -/
theorem of_create {threshold : Nat} {period : Duration} {b : Bucket}
    (hmade : create threshold period made = .ok b) : Account.Paced made ⟨b, [], []⟩ := by
  obtain ⟨hthreshold, _, htokens, hcheckpoint⟩ := create_eq_ok_iff.1 hmade
  refine ⟨nofun, nofun, ?_, ?_⟩
  · change 0 + b.tokens ≤ b.threshold
    omega
  · intro r hr
    rw [List.mem_singleton.1 hr]
    exact .inl hcheckpoint.symm

end Account.Paced

/-! ### The first token of a window -/

section First

variable {s s' : System monitor} {r t : Instant}

/-- What came first stays first. -/
theorem FirstAfter.mono (h : FirstAfter s r t) (hlater : s.Reachable s') : FirstAfter s' r t := by
  obtain ⟨taker, beginner, threshold, left, later, between, earlier, hnotes, hnone⟩ := h
  obtain ⟨new, hnew⟩ := hlater.notes_isSuffix
  refine ⟨taker, beginner, threshold, left, new ++ later, between, earlier, ?_, hnone⟩
  rw [← hnew, hnotes]
  simp only [List.append_assoc]

theorem FirstAfter.mem_refills (h : FirstAfter s r t) : r ∈ refills s := by
  obtain ⟨taker, beginner, threshold, left, later, between, earlier, hnotes, _⟩ := h
  rw [refills, told, List.mem_reverse, List.mem_filterMap]
  refine ⟨(beginner, .refilled r threshold left), ?_, rfl⟩
  rw [hnotes]
  exact List.mem_append_right _ (List.mem_cons_self ..)

/-- An acquisition that begins a window takes the first token of it, at the same reading. -/
theorem firstAfter_of_asks {thread wakee : Nat} {reading : Instant} {position : Position}
    (hnext : s.next (.step thread reading wakee) = some s')
    (hplace : placeIn s.threads thread = some position) (hasks : position.asks = true)
    (hover : s.state.isOver reading = true) : FirstAfter s' reading reading := by
  obtain ⟨place, move, hthere, moves, hlayout⟩ := System.moves_of_next hnext
  cases hplace.symm.trans hthere
  have heffect := effect s.state s.now position reading
  rw [Option.some.inj moves] at heffect
  have hnotes : s'.view.notes = move.record thread ++ s.view.notes :=
    congrArg Layout.notes hlayout
  have hnever : (s.state.refill reading).take? ≠ none := by
    rw [ne_eq, take?_refill_eq_none_iff, hover]
    exact nofun
  cases heffect with
  | grant =>
    refine ⟨thread, thread, s.state.threshold, s.state.tokens, [], [], s.view.notes, ?_, rfl⟩
    rw [hnotes, Account.record_windowNotes_concat, windowNotes, if_pos hover]
    rfl
  | refuse spent | giveUp _ spent | wait _ spent => exact absurd spent hnever
  | count | inspect => contradiction

end First

/-- Where the clock never runs backwards, whatever threads do, at most the threshold is admitted in
the period that begins with the making of a bucket, and in each that begins with a reading that
brings the tokens back. So a period that is measured from the first token taken after that has seen
no more than the threshold either, if that token was taken at the reading that brought it back. It
was, wherever an acquisition brought it back. -/
theorem window_begins_at_refill {threshold : Nat} {period : Duration} {made now : Instant}
    {b : Bucket} {readings : List Instant} {s : System monitor}
    (hmade : create threshold period made = .ok b) (h : Reads (.initial b now []) readings s)
    (hsorted : readings.Pairwise (· ≤ ·)) :
    (∀ r ∈ made :: refills s,
      (admissions s).countP (fun admission => isWithin r period admission.2) ≤ threshold) ∧
      (∀ r t, FirstAfter s r t → t = r →
        (admissions s).countP (fun admission => isWithin t period admission.2) ≤ threshold) ∧
      ∀ (before after : System monitor) thread reading wakee (position : Position),
        before.next (.step thread reading wakee) = some after → after.Reachable s →
        placeIn before.threads thread = some position → position.asks = true →
        before.state.isOver reading = true → FirstAfter s reading reading := by
  have hkept := (Account.Kept.of_create hmade).steps h.steps
  have hpaced := (Account.Paced.of_create hmade).steps h.steps hsorted
  have hbound : ∀ r ∈ made :: refills s,
      (admissions s).countP (fun admission => isWithin r period admission.2) ≤ threshold := by
    intro r hr
    have hwithin := hpaced.within_le hr
    rwa [hkept.period_eq, hkept.threshold_eq] at hwithin
  refine ⟨hbound, ?_, ?_⟩
  · rintro r _ hfirst rfl
    exact hbound _ (List.mem_cons_of_mem _ hfirst.mem_refills)
  · intro before after thread reading wakee position hnext hlater hplace hasks hover
    exact (firstAfter_of_asks hnext hplace hasks hover).mono hlater

/-- A bucket of one token for ten nanoseconds each. -/
def oneInTen : Bucket :=
  { twoInTen with threshold := 1, tokens := 1, threshold_pos := Nat.succ_pos 0 }

/-- A count brings the token back, which is taken in the middle of the window. The next window
begins with an acquisition, after which another one fails. -/
def countedFirst : List (Event monitor) :=
  [.arrive, .call 0 .available, .step 0 (clockAt 110) 0, .call 0 .tryAcquire,
    .step 0 (clockAt 115) 0, .call 0 .tryAcquire, .step 0 (clockAt 120) 0, .call 0 .tryAcquire,
    .step 0 (clockAt 129) 0]

/-- What is recorded of this, latest first. -/
def countedFirstNotes : List (Nat × Note) :=
  [(0, .refused (clockAt 129)), (0, .admitted (clockAt 120)), (0, .refilled (clockAt 120) 1 0),
    (0, .admitted (clockAt 115)), (0, .refilled (clockAt 110) 1 1)]

theorem window_begins_at_refill_countedFirst :
    ∃ s, create 1 ⟨10, by decide⟩ (clockAt 100) = .ok oneInTen ∧
      (System.initial oneInTen .midrange []).run countedFirst = some s ∧
      FirstAfter s (clockAt 120) (clockAt 120) ∧
      (admissions s).countP (fun admission =>
        isWithin (clockAt 110) ⟨10, by decide⟩ admission.2) ≤ 1 ∧
      (admissions s).countP (fun admission =>
        isWithin (clockAt 120) ⟨10, by decide⟩ admission.2) ≤ 1 := by
  have hruns : ((System.initial oneInTen .midrange []).run countedFirst).map (fun s =>
      decide (s.view.notes = countedFirstNotes ∧
        (readingsBy (.initial oneInTen .midrange []) countedFirst).Pairwise (· ≤ ·))) =
        some true := by
    decide +kernel
  obtain ⟨s, hrun, hshown⟩ := Option.map_eq_some_iff.1 hruns
  obtain ⟨hnotes, hsorted⟩ := of_decide_eq_true hshown
  have hmade : create 1 ⟨10, by decide⟩ (clockAt 100) = .ok oneInTen := rfl
  have hfirst : FirstAfter s (clockAt 120) (clockAt 120) :=
    ⟨0, 0, 1, 0, [_], [], [_, _], hnotes, rfl⟩
  have hrefilled : clockAt 110 ∈ refills s := by
    rw [refills, hnotes]
    exact List.mem_cons_self ..
  obtain ⟨hwindows, hfirsts, _⟩ :=
    window_begins_at_refill hmade (Reads.start.run hrun) hsorted
  exact ⟨s, hmade, hrun, hfirst, hwindows _ (List.mem_cons_of_mem _ hrefilled),
    hfirsts _ _ hfirst rfl⟩

/-- A period that is measured from the first token taken after a count has brought it back can see
the threshold exceeded. -/
theorem exceeded_after_count :
    ∃ s readings, create 1 ⟨10, by decide⟩ (clockAt 100) = .ok oneInTen ∧
      Reads (.initial oneInTen .midrange []) readings s ∧ readings.Pairwise (· ≤ ·) ∧
      FirstAfter s (clockAt 110) (clockAt 115) ∧
      ¬ (admissions s).countP (fun admission =>
        isWithin (clockAt 115) ⟨10, by decide⟩ admission.2) ≤ 1 := by
  have hruns : ((System.initial oneInTen .midrange []).run countedFirst).map (fun s =>
      decide (s.view.notes = countedFirstNotes ∧
        (readingsBy (.initial oneInTen .midrange []) countedFirst).Pairwise (· ≤ ·) ∧
        (admissions s).countP (fun admission =>
          isWithin (clockAt 115) ⟨10, by decide⟩ admission.2) = 2)) = some true := by
    decide +kernel
  obtain ⟨s, hrun, hshown⟩ := Option.map_eq_some_iff.1 hruns
  obtain ⟨hnotes, hsorted, htwo⟩ := of_decide_eq_true hshown
  refine ⟨s, _, rfl, Reads.start.run hrun, hsorted, ?_, ?_⟩
  · exact ⟨0, 0, 1, 1, [_, _, _], [], [], hnotes, rfl⟩
  · rw [htwo]
    decide

end Backpressure.Bucket
