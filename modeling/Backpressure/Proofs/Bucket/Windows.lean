import Backpressure.Proofs.Bucket.Admission
import Backpressure.Proofs.Course

/-!
# What a window of a token bucket admits

Within a window a bucket only counts down: each acquisition that does not wait takes one of the
tokens that are left, as long as one is, and a count of the tokens changes nothing. The first
reading that begins a new window throws away what is left of the old one, and the look that has read
it is already one at the full bucket.
-/

namespace Backpressure.Bucket

/-- One look at a bucket: an acquisition that does not wait, or a count of the tokens. -/
structure Look where
  /-- The thread that looks. -/
  thread : Nat
  /-- Does it take a token? -/
  acquires : Bool
  /-- The reading of the clock that it takes. -/
  reading : Instant
  deriving DecidableEq

/-- Does a thread at this place acquire without waiting, or count, if it does one of the two? -/
def Position.acquires? : Position → Option Bool
  | .tryAcquire => some true
  | .available => some false
  | _ => none

/-- The systems that schedules lead to in which threads take no steps but these looks, which they
take in this order. -/
inductive Looked (start : System monitor) : List Look → System monitor → Prop
  | start : Looked start [] start
  | aside {looks : List Look} {s s' : System monitor} {event : Event monitor} :
      Looked start looks s → (∀ thread reading wakee, event ≠ .step thread reading wakee) →
      s.next event = some s' → Looked start looks s'
  | look {looks : List Look} {s s' : System monitor} {thread wakee : Nat} {reading : Instant}
      {position : Position} {acquires : Bool} :
      Looked start looks s → placeIn s.threads thread = some position →
      position.acquires? = some acquires → s.next (.step thread reading wakee) = some s' →
      Looked start (looks ++ [⟨thread, acquires, reading⟩]) s'

/-- What the calls have come to that have returned since an earlier system, in order, each with the
thread that made it. -/
def answers (start s : System monitor) : List (Nat × Reply) :=
  (s.returns.drop start.returns.length).map fun returned => (returned.1.thread, returned.2)

/-- Has a token been taken? -/
def Reply.isTaken : Reply → Bool
  | .acquired taken => taken
  | _ => false

/-- What looks come to within one window that begins with so many tokens: an acquisition takes a
token exactly if fewer acquisitions than that come before it, and a count tells what those that have
taken one have left. -/
inductive Exactly (tokens : Nat) : List Look → List (Nat × Reply) → Prop
  | nil : Exactly tokens [] []
  | acquire {looks : List Look} {answers : List (Nat × Reply)} {thread : Nat} {reading : Instant} :
      Exactly tokens looks answers →
      Exactly tokens (looks ++ [⟨thread, true, reading⟩])
        (answers ++ [(thread, .acquired (decide (looks.countP (·.acquires) < tokens)))])
  | count {looks : List Look} {answers : List (Nat × Reply)} {thread : Nat} {reading : Instant} :
      Exactly tokens looks answers →
      Exactly tokens (looks ++ [⟨thread, false, reading⟩])
        (answers ++ [(thread, .available (tokens - answers.countP (·.2.isTaken)))])

/-! ### One look -/

/-- What a look comes to where so many tokens are left. -/
def replyTo (acquires : Bool) (left : Nat) : Reply :=
  if acquires then .acquired (decide (0 < left)) else .available left

/-- Where no token is left there is none to be taken. -/
theorem spend_of_spent {b : Bucket} (hspent : b.tokens = 0) :
    { b with tokens := b.tokens - 1 } = b := by
  obtain ⟨threshold, period, tokens, checkpoint, threshold_pos, period_pos⟩ := b
  cases hspent
  rfl

/-- A look reads the clock, and then counts what is left or takes one token of it. -/
theorem step_of_acquires? (b : Bucket) (now reading : Instant) {position : Position}
    {acquires : Bool} (hlooks : position.acquires? = some acquires) :
    (step b now position reading).state =
        { b.refill reading with tokens := (b.refill reading).tokens - acquires.toNat } ∧
      (step b now position reading).outcome =
        .reply (replyTo acquires (b.refill reading).tokens) := by
  cases position with
  | tryAcquire =>
    cases hlooks
    rw [step, stepTryAcquire, atReading_eq]
    cases htake : (b.refill reading).take? with
    | some b' =>
      obtain ⟨hleft, rfl⟩ := take?_eq_some_iff.1 htake
      rw [replyTo, if_pos rfl, decide_eq_true hleft]
      exact ⟨rfl, rfl⟩
    | none =>
      have hspent := take?_eq_none_iff.1 htake
      refine ⟨(spend_of_spent hspent).symm, ?_⟩
      rw [hspent]
      rfl
  | available =>
    cases hlooks
    rw [step, atReading_eq]
    exact ⟨rfl, rfl⟩
  | acquire | resume | inspect => contradiction

/-- How a bucket stands in a window that has begun with so many tokens, after these looks and
answers. -/
structure Stands (checkpoint : Instant) (tokens : Nat) (looks : List Look)
    (answers : List (Nat × Reply)) (b : Bucket) : Prop where
  checkpoint_eq : b.checkpoint = checkpoint
  left : b.tokens = tokens - looks.countP (·.acquires)
  taken : answers.countP (·.2.isTaken) + b.tokens = tokens
  exactly : Exactly tokens looks answers

namespace Stands

variable {checkpoint : Instant} {tokens : Nat} {looks : List Look} {answers : List (Nat × Reply)}
  {b : Bucket}

/-- A bucket at the beginning of a window. -/
theorem of_bucket (b : Bucket) : Stands b.checkpoint b.tokens [] [] b :=
  ⟨rfl, rfl, Nat.zero_add _, .nil⟩

/-- One more look at what is left. -/
theorem look (h : Stands checkpoint tokens looks answers b) (thread : Nat) (acquires : Bool)
    (reading : Instant) :
    Stands checkpoint tokens (looks ++ [⟨thread, acquires, reading⟩])
      (answers ++ [(thread, replyTo acquires b.tokens)])
      { b with tokens := b.tokens - acquires.toNat } := by
  obtain ⟨hcheckpoint, hleft, htaken, hexactly⟩ := h
  cases acquires with
  | true =>
    have hfewer : decide (0 < b.tokens) = decide (looks.countP (·.acquires) < tokens) :=
      decide_eq_decide.2 (by rw [hleft]; exact Nat.sub_pos_iff_lt)
    refine ⟨hcheckpoint, ?_, ?_, ?_⟩
    · rw [List.countP_append]
      change b.tokens - 1 = tokens - (_ + 1)
      omega
    · rw [List.countP_append, List.countP_singleton]
      change _ + (if decide (0 < b.tokens) = true then 1 else 0) + (b.tokens - 1) = tokens
      simp only [decide_eq_true_eq]
      split <;> omega
    · rw [replyTo, if_pos rfl, hfewer]
      exact hexactly.acquire
  | false =>
    have hcount : b.tokens = tokens - answers.countP (·.2.isTaken) := by omega
    refine ⟨hcheckpoint, ?_, ?_, ?_⟩
    · rw [List.countP_append]
      exact hleft
    · rw [List.countP_append]
      exact htaken
    · rw [replyTo, if_neg Bool.false_ne_true, hcount]
      exact hexactly.count

end Stands

/-! ### Whole runs -/

section Runs

variable {threshold : Nat} {period : Duration} {made now : Instant} {b : Bucket}
  {s s' : System monitor} {looks : List Look}

/-- A bucket keeps its settings. -/
theorem settings_eq (hmade : create threshold period made = .ok b)
    (h : (System.initial b now []).Reachable s) :
    s.state.threshold = threshold ∧ s.state.period = period := by
  obtain ⟨readings, hreads⟩ := exists_reads h
  have hkept := (Account.Kept.of_create hmade).steps hreads.steps
  exact ⟨hkept.threshold_eq, hkept.period_eq⟩

theorem Looked.reachable (h : Looked s looks s') : s.Reachable s' := by
  induction h with
  | start => exact .start
  | aside _ _ hnext ih => exact .next ih hnext
  | look _ _ _ hnext ih => exact .next ih hnext

/-- Looks one after the other. -/
theorem Looked.split {first later : List Look} (h : Looked s (first ++ later) s') :
    ∃ between, Looked s first between ∧ Looked between later s' := by
  generalize hall : first ++ later = all at h
  induction h generalizing later with
  | start =>
    obtain ⟨rfl, rfl⟩ := List.append_eq_nil_iff.1 hall
    exact ⟨s, .start, .start⟩
  | aside _ hquiet hnext ih =>
    obtain ⟨between, hfirst, hlater⟩ := ih hall
    exact ⟨between, hfirst, hlater.aside hquiet hnext⟩
  | look hlooked hplace hlooks hnext ih =>
    rcases List.eq_nil_or_concat later with rfl | ⟨earlier, last, rfl⟩
    · rw [List.append_nil] at hall
      exact ⟨_, hall ▸ hlooked.look hplace hlooks hnext, .start⟩
    · rw [List.concat_eq_append, ← List.append_assoc] at hall
      obtain ⟨hbefore, hlast⟩ := List.append_inj' hall rfl
      cases hlast
      obtain ⟨between, hfirst, hearlier⟩ := ih hbefore
      rw [List.concat_eq_append]
      exact ⟨between, hfirst, hearlier.look hplace hlooks hnext⟩

/-- What is no step of a thread leaves the bucket and the answers alone. -/
theorem unchanged_of_aside {event : Event monitor}
    (hquiet : ∀ thread reading wakee, event ≠ .step thread reading wakee)
    (hnext : s.next event = some s') : s'.state = s.state ∧ s'.returns = s.returns := by
  cases System.next_eq_some_iff.1 hnext with
  | elapse | arrive | call | rouse => exact ⟨rfl, rfl⟩
  | step => exact absurd rfl (hquiet _ _ _)

theorem Looked.unchanged (h : Looked s [] s') :
    s'.state = s.state ∧ s'.returns = s.returns := by
  generalize hnone : [] = looks at h
  induction h with
  | start => exact ⟨rfl, rfl⟩
  | aside _ hquiet hnext ih =>
    obtain ⟨hstate, hreturns⟩ := unchanged_of_aside hquiet hnext
    obtain ⟨hstate', hreturns'⟩ := ih hnone
    exact ⟨hstate.trans hstate', hreturns.trans hreturns'⟩
  | look => exact absurd hnone (by simp)

/-- How a look at a bucket ends: it has read the clock, taken a token of what is left then if it
asks for one, and told its thread. -/
structure Look.Ends (look : Look) (s s' : System monitor) : Prop where
  state : s'.state = { s.state.refill look.reading with
    tokens := (s.state.refill look.reading).tokens - look.acquires.toNat }
  returns : ∃ call, call.thread = look.thread ∧ s'.returns = s.returns ++
    [(call, replyTo look.acquires (s.state.refill look.reading).tokens)]

/-- Every look ends so. -/
theorem ends_of_next {thread wakee : Nat} {reading : Instant} {position : Position}
    {acquires : Bool} (h : (System.initial b now []).Reachable s)
    (hplace : placeIn s.threads thread = some position)
    (hlooks : position.acquires? = some acquires)
    (hnext : s.next (.step thread reading wakee) = some s') :
    Look.Ends ⟨thread, acquires, reading⟩ s s' := by
  obtain ⟨hstate, houtcome⟩ := step_of_acquires? s.state s.now reading hlooks
  obtain ⟨place, move, hthere, moves, hlayout⟩ := System.moves_of_next hnext
  cases hplace.symm.trans hthere
  cases moves
  have hcalled : calledRule.Holds s := CallRule.holds h (by simp)
  obtain ⟨call, hopen⟩ := Option.isSome_iff_exists.1 (hcalled.stands hplace)
  have hthread := thread_of_openCall hopen
  refine ⟨(congrArg Layout.state hlayout).trans hstate,
    call.record (step s.state s.now position reading).notes, hthread, ?_⟩
  rw [System.returns_of_next hnext hplace rfl, endedBy, houtcome, hopen]
  rfl

/-- The last one of some looks. -/
theorem Looked.last {look : Look} (hbegan : (System.initial b now []).Reachable s)
    (h : Looked s (looks ++ [look]) s') :
    ∃ between, Looked s looks between ∧ look.Ends between s' := by
  generalize hall : looks ++ [look] = all at h
  induction h with
  | start => exact absurd hall (by simp)
  | aside _ hquiet hnext ih =>
    obtain ⟨between, hlooked, hends⟩ := ih hall
    obtain ⟨hstate, hreturns⟩ := unchanged_of_aside hquiet hnext
    obtain ⟨call, hthread, hanswer⟩ := hends.returns
    exact ⟨between, hlooked, hstate.trans hends.state, call, hthread, hreturns.trans hanswer⟩
  | look hlooked hplace hlooks hnext ih =>
    obtain ⟨rfl, hlast⟩ := List.append_inj' hall rfl
    cases hlast
    exact ⟨_, hlooked, ends_of_next (hbegan.trans hlooked.reachable) hplace hlooks hnext⟩

/-! ### Looks within a window -/

/-- Is a reading earlier than a period after the checkpoint? -/
def Look.IsWithin (checkpoint : Instant) (period : Duration) (look : Look) : Prop :=
  look.reading.nanos < checkpoint.nanos + period.nanos

instance (checkpoint : Instant) (period : Duration) (look : Look) :
    Decidable (look.IsWithin checkpoint period) := Nat.decLt _ _

/-- What a call has come to, with the thread that made it. -/
def answer (returned : Call monitor × Reply) : Nat × Reply := (returned.1.thread, returned.2)

theorem answers_eq {news : List (Call monitor × Reply)} (h : s'.returns = s.returns ++ news) :
    answers s s' = news.map answer := by
  rw [answers, h, List.drop_left]
  rfl

/-- Looks within a window go on with what earlier ones have left. -/
theorem Stands.run {checkpoint : Instant} {tokens : Nat} {done : List Look}
    {given : List (Nat × Reply)} (hmade : create threshold period made = .ok b)
    (hbegan : (System.initial b now []).Reachable s) (hlooked : Looked s looks s')
    (hwithin : ∀ look ∈ looks, look.IsWithin checkpoint period)
    (h : Stands checkpoint tokens done given s.state) :
    ∃ news, s'.returns = s.returns ++ news ∧
      Stands checkpoint tokens (done ++ looks) (given ++ news.map answer) s'.state := by
  induction looks using List.reverseRecOn generalizing s' with
  | nil =>
    obtain ⟨hstate, hreturns⟩ := hlooked.unchanged
    refine ⟨[], by rw [hreturns, List.append_nil], ?_⟩
    rw [hstate, List.append_nil, List.map_nil, List.append_nil]
    exact h
  | append_singleton looks look ih =>
    obtain ⟨between, hbefore, hends⟩ := hlooked.last hbegan
    obtain ⟨news, hnews, hstands⟩ :=
      ih hbefore fun look hmem => hwithin look (List.mem_append_left _ hmem)
    obtain ⟨call, hthread, hreturns⟩ := hends.returns
    have hsame : between.state.refill look.reading = between.state := by
      refine refill_of_not_isOver (eq_false_of_ne_true ?_)
      have hlast := hwithin look (List.mem_append_right _ (List.mem_singleton_self _))
      rw [isOver_iff, hstands.checkpoint_eq,
        (settings_eq hmade (hbegan.trans hbefore.reachable)).2, Nat.not_le]
      exact hlast
    have hlook := hstands.look look.thread look.acquires look.reading
    rw [hsame] at hreturns
    refine ⟨news ++ [(call, replyTo look.acquires between.state.tokens)], ?_, ?_⟩
    · rw [hreturns, hnews, List.append_assoc]
    · rw [hends.state, hsame, List.map_append, ← List.append_assoc, ← List.append_assoc,
        List.map_singleton, answer, hthread]
      exact hlook

/-- A look whose reading begins a new window is the first one of it. -/
theorem Stands.of_over {look : Look} (hmade : create threshold period made = .ok b)
    (hbegan : (System.initial b now []).Reachable s) (hlooked : Looked s [look] s')
    (hover : ¬ look.IsWithin s.state.checkpoint period) :
    ∃ news, s'.returns = s.returns ++ news ∧
      Stands look.reading threshold [look] (news.map answer) s'.state := by
  have hlast : Looked s ([] ++ [look]) s' := hlooked
  obtain ⟨between, hbefore, hends⟩ := hlast.last hbegan
  obtain ⟨hstate, hreturns⟩ := hbefore.unchanged
  obtain ⟨rfl, rfl⟩ := settings_eq hmade hbegan
  obtain ⟨call, hthread, hanswer⟩ := hends.returns
  rw [hstate, hreturns] at hanswer
  have hrefill := refill_of_isOver (isOver_iff.2 (Nat.not_lt.1 hover))
  have hlook := (Stands.of_bucket (s.state.refill look.reading)).look look.thread look.acquires
    look.reading
  refine ⟨_, hanswer, ?_⟩
  rw [hends.state, hstate, List.map_singleton, answer, hthread]
  rw [hrefill] at hlook ⊢
  exact hlook

/-- A bucket admits exactly what its window has left. As long as looks read the clock less than a
period after the checkpoint, those acquisitions take a token that fewer acquisitions come before
than tokens were left, each count tells what the successes have left, and the checkpoint stays. The
first later reading begins a new window, however many periods have passed: its look is already one
at the full bucket, whatever was left, and so are those after it as long as they read the clock less
than a period after it. -/
theorem admits_exactly_the_window (hmade : create threshold period made = .ok b)
    (h : (System.initial b now []).Reachable s) (hlooked : Looked s looks s') :
    ((∀ look ∈ looks, look.IsWithin s.state.checkpoint period) →
      Stands s.state.checkpoint s.state.tokens looks (answers s s') s'.state) ∧
    ∀ before first rest, looks = before ++ first :: rest →
      (∀ look ∈ before, look.IsWithin s.state.checkpoint period) →
      ¬ first.IsWithin s.state.checkpoint period →
      (∀ look ∈ rest, look.IsWithin first.reading period) →
      ∃ earlier given, answers s s' = earlier ++ given ∧
        Exactly s.state.tokens before earlier ∧
        Stands first.reading threshold (first :: rest) given s'.state := by
  constructor
  · intro hwithin
    obtain ⟨news, hnews, hstands⟩ := (Stands.of_bucket s.state).run hmade h hlooked hwithin
    rw [answers_eq hnews]
    exact hstands
  · rintro before first rest rfl hbefore hover hrest
    rw [← List.singleton_append] at hlooked
    obtain ⟨between, hlooks, hlater⟩ := hlooked.split
    obtain ⟨after, hfirst, hlast⟩ := hlater.split
    have hbetween := h.trans hlooks.reachable
    obtain ⟨earlier, hearlier, hold⟩ :=
      (Stands.of_bucket s.state).run hmade h hlooks hbefore
    obtain ⟨one, hone, hnew⟩ :=
      Stands.of_over hmade hbetween hfirst (hold.checkpoint_eq ▸ hover)
    obtain ⟨more, hmore, hstands⟩ :=
      hnew.run hmade (hbetween.trans hfirst.reachable) hlast hrest
    refine ⟨earlier.map answer, one.map answer ++ more.map answer, ?_, hold.exactly, hstands⟩
    have hall : s'.returns = s.returns ++ (earlier ++ (one ++ more)) := by
      rw [hmore, hone, hearlier, List.append_assoc, List.append_assoc]
    rw [answers_eq hall, List.map_append, List.map_append]

end Runs

/-- The look of an event of a system, where it is one or no step at all. -/
def lookBy (s : System monitor) : Event monitor → Option (List Look)
  | .step thread reading _ =>
    ((placeIn s.threads thread).bind Position.acquires?).map fun acquires =>
      [⟨thread, acquires, reading⟩]
  | _ => some []

/-- The looks of a list of events, where no thread takes another step. -/
def looksBy (s : System monitor) : List (Event monitor) → Option (List Look)
  | [] => some []
  | event :: rest =>
    (lookBy s event).bind fun look =>
      (s.next event).bind fun s' => (looksBy s' rest).map (look ++ ·)

theorem Looked.run {start s s' : System monitor} {looks news : List Look}
    {events : List (Event monitor)} (h : Looked start looks s) (hrun : s.run events = some s')
    (hlooks : looksBy s events = some news) : Looked start (looks ++ news) s' := by
  induction events generalizing s looks news with
  | nil =>
    cases hrun
    cases hlooks
    rwa [List.append_nil]
  | cons event rest ih =>
    obtain ⟨middle, hnext, hrest⟩ := Option.bind_eq_some_iff.1 hrun
    obtain ⟨look, hlook, hlooks⟩ := Option.bind_eq_some_iff.1 hlooks
    rw [hnext] at hlooks
    obtain ⟨later, hlater, rfl⟩ := Option.map_eq_some_iff.1 hlooks
    rw [← List.append_assoc]
    refine ih ?_ hrest hlater
    cases event with
    | step thread reading wakee =>
      obtain ⟨acquires, hacquires, rfl⟩ := Option.map_eq_some_iff.1 hlook
      obtain ⟨position, hplace, hacquires⟩ := Option.bind_eq_some_iff.1 hacquires
      exact h.look hplace hacquires hnext
    | elapse | arrive | call | rouse =>
      cases hlook
      rw [List.append_nil]
      exact h.aside (by simp) hnext

/-- A token is taken in the first window. -/
def oneTaken : List (Event monitor) :=
  [.arrive, .arrive, .call 0 .acquire, .step 0 (clockAt 104) 0]

/-- Looks from before the checkpoint on, over the end of the window and two more periods, and back
again. -/
def looksAcross : List (Event monitor) :=
  [.call 0 .tryAcquire, .step 0 (clockAt 95) 0, .call 1 .tryAcquire,
    .step 1 (clockAt 109) 0, .call 0 .available, .step 0 (clockAt 135) 0,
    .call 1 .tryAcquire, .step 1 (clockAt 144) 0, .call 0 .tryAcquire,
    .step 0 (clockAt 99) 0, .call 1 .tryAcquire, .step 1 (clockAt 144) 0]

theorem admits_exactly_the_window_looksAcross :
    ∃ s s' earlier given, (System.initial twoInTen .midrange []).run oneTaken = some s ∧
      s.run looksAcross = some s' ∧ answers s s' = earlier ++ given ∧
      Exactly 1 [⟨0, true, (clockAt 95)⟩, ⟨1, true, (clockAt 109)⟩] earlier ∧
      Stands (clockAt 135) 2
        [⟨0, false, (clockAt 135)⟩, ⟨1, true, (clockAt 144)⟩, ⟨0, true, (clockAt 99)⟩,
          ⟨1, true, (clockAt 144)⟩]
        given s'.state := by
  have hbegun : ((System.initial twoInTen .midrange []).run oneTaken).map (fun s =>
      decide (s.state.tokens = 1 ∧ s.state.checkpoint = (clockAt 100))) = some true := by
    decide +kernel
  have hlooks : ((System.initial twoInTen .midrange []).run oneTaken).bind (fun s =>
      (s.run looksAcross).map fun _ => decide (looksBy s looksAcross = some
        [⟨0, true, (clockAt 95)⟩, ⟨1, true, (clockAt 109)⟩, ⟨0, false, (clockAt 135)⟩,
          ⟨1, true, (clockAt 144)⟩, ⟨0, true, (clockAt 99)⟩,
          ⟨1, true, (clockAt 144)⟩])) = some true := by
    decide +kernel
  obtain ⟨s, hrun, hstate⟩ := Option.map_eq_some_iff.1 hbegun
  obtain ⟨htokens, hcheckpoint⟩ := of_decide_eq_true hstate
  rw [hrun, Option.bind_some] at hlooks
  obtain ⟨s', hlater, hby⟩ := Option.map_eq_some_iff.1 hlooks
  have hmade : create 2 ⟨10, by decide⟩ ⟨100, by decide⟩ = .ok twoInTen := rfl
  have hlooked := Looked.start.run hlater (of_decide_eq_true hby)
  obtain ⟨_, hacross⟩ := admits_exactly_the_window hmade (.run .start hrun) hlooked
  obtain ⟨earlier, given, hanswers, hexactly, hstands⟩ :=
    hacross [_, _] _ _ rfl (by rw [hcheckpoint]; decide) (by rw [hcheckpoint]; decide)
      (by decide)
  exact ⟨s, s', earlier, given, hrun, hlater, hanswers, htokens ▸ hexactly, hstands⟩

end Backpressure.Bucket
