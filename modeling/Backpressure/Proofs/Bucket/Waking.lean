import Backpressure.Proofs.Bucket.Admission
import Backpressure.Proofs.Bucket.Waits
import Backpressure.Proofs.Course

/-!
# Waiters of a token bucket

A thread that waits for a token has found none, and chooses from that one look the moment at which
it looks again. Nobody but a step that begins a new window can give it a token, and such a step
wakes every waiter. So whoever still sleeps sleeps in the window in which it looked, and wakes at a
moment at which the window is over, or at its deadline.
-/

namespace Backpressure.Bucket

variable {b : Bucket} {now reading : Instant} {position : Position} {move : Bucket.Step}

/-! ### Steps -/

/-- Does a step at this place begin a new window with a reading? -/
def begins (b : Bucket) (position : Position) (reading : Instant) : Bool :=
  position.readsClock && b.isOver reading

theorem readsClock_of_deadline? {deadline : Deadline} (h : position.deadline? = some deadline) :
    position.readsClock = true := by
  cases position <;> first | rfl | contradiction

theorem readsClock_of_asks (h : position.asks = true) : position.readsClock = true := by
  cases position <;> first | rfl | contradiction

theorem windowSignals_eq (hreads : position.readsClock = true) :
    windowSignals b reading = if begins b position reading then [.all .refilled] else [] := by
  rw [windowSignals, begins, hreads, Bool.true_and]

/-- A step wakes everybody where it begins a window, and nobody elsewhere. -/
theorem Effect.signals_eq (h : Effect b now reading position move) :
    move.signals = if begins b position reading then [.all .refilled] else [] := by
  cases h with
  | grant asks => exact windowSignals_eq (readsClock_of_asks asks)
  | refuse | count => exact windowSignals_eq rfl
  | giveUp waits | wait waits => exact windowSignals_eq (readsClock_of_deadline? waits)
  | inspect => rfl

theorem filterMap_windowNotes (hreads : position.readsClock = true) (thread : Nat)
    {notes : List Note} (hnotes : notes.filterMap (fun note => refilled? (thread, note)) = []) :
    (windowNotes b reading ++ notes).filterMap (fun note => refilled? (thread, note)) =
      if begins b position reading then [reading] else [] := by
  rw [List.filterMap_append, hnotes, List.append_nil, windowNotes, begins, hreads, Bool.true_and]
  cases b.isOver reading <;> rfl

/-- A step records a new window where it begins one, and nowhere else. -/
theorem Effect.refills_eq (h : Effect b now reading position move) (thread : Nat) :
    move.notes.filterMap (fun note => refilled? (thread, note)) =
      if begins b position reading then [reading] else [] := by
  cases h with
  | grant asks => exact filterMap_windowNotes (readsClock_of_asks asks) thread rfl
  | refuse => exact filterMap_windowNotes rfl thread rfl
  | giveUp waits | wait waits =>
    exact filterMap_windowNotes (readsClock_of_deadline? waits) thread rfl
  | count =>
    rw [← List.append_nil (windowNotes b reading)]
    exact filterMap_windowNotes rfl thread rfl
  | inspect => rfl

/-- Where no token is left, only a new window changes anything. -/
theorem Effect.state_eq (h : Effect b now reading position move) (hspent : b.tokens = 0)
    (hbegins : begins b position reading = false) : move.state = b := by
  have hsame : position.readsClock = true → b.refill reading = b := fun hreads =>
    refill_of_not_isOver (by rwa [begins, hreads, Bool.true_and] at hbegins)
  cases h with
  | grant asks left =>
    rw [hsame (readsClock_of_asks asks), take?_eq_none_iff.2 hspent] at left
    contradiction
  | refuse | count => exact hsame rfl
  | giveUp waits | wait waits => exact hsame (readsClock_of_deadline? waits)
  | inspect => rfl

/-! ### Sleepers -/

/-- An event that is no step of this thread. -/
abbrev IsAside (thread : Nat) (event : Event monitor) : Prop :=
  ∀ reading wakee, event ≠ .step thread reading wakee

/-- A step by which a thread begins to wait: it has looked with this reading and this deadline, and
sleeps. -/
structure BeginsWait (thread : Nat) (reading : Instant) (deadline : Deadline)
    (s s' : System monitor) : Prop where
  next : ∃ wakee, s.next (.step thread reading wakee) = some s'
  deadline_eq : (placeIn s.threads thread).bind Position.deadline? = some deadline
  asleep : ∃ condition wakeAt position,
    s'.threads[thread]? = some (.asleep condition wakeAt position)

section Sleepers

variable {s s' : System monitor} {event : Event monitor} {thread : Nat} {deadline : Deadline}
  {condition : Condition} {wakeAt : Deadline}

/-- A step adds the window that it begins to those before. -/
theorem refills_of_layout (hlayout : s'.layout = s.layout.after thread move)
    (heffect : Effect s.state now reading position move) :
    refills s' = refills s ++ if begins s.state position reading then [reading] else [] := by
  have hnotes : s'.view.notes = move.record thread ++ s.view.notes :=
    congrArg Layout.notes hlayout
  rw [refills, hnotes, told_record, heffect.refills_eq]
  rfl

/-- Where no token is left, what begins no window leaves the bucket as it is. -/
theorem state_eq_of_change (h : System.Change s event s') (hspent : s.state.tokens = 0)
    (hsame : refills s' = refills s) : s'.state = s.state := by
  rcases h.moves with ⟨hstate, _⟩ | ⟨t, moment, _, place, move, _, _, moves, hlayout⟩
  · exact hstate
  · cases moves
    have heffect := effect s.state s.now place moment
    have hquiet := hsame
    rw [refills_of_layout hlayout heffect, List.append_right_eq_self] at hquiet
    have hbegins : begins s.state place moment = false := by
      by_contra hover
      rw [if_pos (eq_true_of_ne_false hover)] at hquiet
      contradiction
    exact (congrArg Layout.state hlayout).trans (heffect.state_eq hspent hbegins)

theorem refills_isPrefix (h : s.Reachable s') : refills s <+: refills s' :=
  told_isPrefix refilled? h.notes_isSuffix

/-- Until a window begins, a bucket without tokens stays as it is. -/
theorem state_eq_of_refills_eq (h : s.Reachable s') (hspent : s.state.tokens = 0)
    (hsame : refills s' = refills s) : s'.state = s.state := by
  induction h with
  | start => rfl
  | @next between s' event hbefore hnext ih =>
    have hlater := refills_isPrefix (.single hnext)
    rw [hsame] at hlater
    have hbetween := (refills_isPrefix hbefore).eq_of_length_le hlater.length_le
    have hstate := ih hbetween.symm
    rw [← hstate]
    exact state_eq_of_change (System.next_eq_some_iff.1 hnext) (hstate ▸ hspent)
      (hsame.trans hbetween)

/-- Whatever a thread is found at once some thread does something new, it was at before, unless it is
that. -/
theorem getElem?_of_set {threads : List (Phase monitor)} {t : Nat} {new phase : Phase monitor}
    (h : (threads.set t new)[thread]? = some phase) (hother : new ≠ phase) :
    threads[thread]? = some phase := by
  rw [List.getElem?_set] at h
  split at h
  · split at h
    · exact absurd (Option.some.inj h) hother
    · contradiction
  · exact h

/-- A new window wakes everybody, so where somebody is left asleep there is none. -/
theorem same_of_asleep {threads threads' : List (Phase monitor)} {wakee : Nat} {begun : Bool}
    (h : System.deliverAll (M := monitor) wakee (if begun then [.all Condition.refilled] else [])
      threads = some threads')
    (hasleep : threads'[thread]? = some (.asleep condition wakeAt position)) :
    begun = false ∧ threads' = threads := by
  cases begun with
  | false =>
    cases h
    exact ⟨rfl, rfl⟩
  | true =>
    cases h
    rw [List.getElem?_map] at hasleep
    obtain ⟨before, _, hbefore⟩ := Option.map_eq_some_iff.1 hasleep
    split at hbefore
    · cases before <;> contradiction
    · rename_i hsleeps
      subst hbefore
      cases condition
      exact absurd rfl hsleeps

/-- A thread that others leave asleep has slept before, and no window has begun. -/
theorem asleep_before (h : System.Change s event s') (haside : IsAside thread event)
    (hasleep : s'.threads[thread]? = some (.asleep condition wakeAt position)) :
    s.threads[thread]? = some (.asleep condition wakeAt position) ∧ refills s' = refills s := by
  cases h with
  | elapse => exact ⟨hasleep, rfl⟩
  | arrive =>
    refine ⟨?_, rfl⟩
    by_cases ht : thread < s.threads.length
    · rwa [List.getElem?_append_left ht] at hasleep
    · rw [List.getElem?_append_right (Nat.le_of_not_lt ht), List.getElem?_singleton] at hasleep
      split at hasleep <;> cases hasleep
  | call | rouse => exact ⟨getElem?_of_set hasleep nofun, rfl⟩
  | @step t wakee moment phase place move threads here awake moves wakes =>
    have ht : t ≠ thread := by
      rintro rfl
      exact haside _ _ rfl
    have heffect := effect s.state s.now place moment
    rw [Option.some.inj moves] at heffect
    rw [refills_of_layout (System.layout_step here wakes) heffect]
    rw [heffect.signals_eq] at wakes
    rw [List.getElem?_set_ne ht] at hasleep
    obtain ⟨hbegins, rfl⟩ := same_of_asleep wakes hasleep
    rw [hbegins]
    exact ⟨hasleep, List.append_nil _⟩

/-- What a thread has found that begins to wait: the window is not over, no token is left, and its
deadline has not come. -/
structure BeginsWait.Finds (thread : Nat) (reading : Instant) (deadline : Deadline)
    (s s' : System monitor) : Prop where
  within : s.state.isOver reading = false
  spent : s.state.tokens = 0
  early : deadline.reached s.now = false
  state : s'.state = s.state
  asleep : s'.threads[thread]? = some (.asleep .refilled
    (s.state.wakeAt reading s.now deadline) (.resume deadline s.state.checkpoint))
  notes : s'.view.notes = (thread, .waiting (s.state.untilRefill reading)) :: s.view.notes

/-- A thread sleeps after a step of its own only where it has begun to wait with it. -/
theorem finds_of_asleep {wakee : Nat} (hnext : s.next (.step thread reading wakee) = some s')
    (hasleep : s'.threads[thread]? = some (.asleep condition wakeAt position)) :
    ∃ deadline, (placeIn s.threads thread).bind Position.deadline? = some deadline ∧
      BeginsWait.Finds thread reading deadline s s' := by
  cases System.next_eq_some_iff.1 hnext with
  | @step _ _ _ phase place move threads here awake moves wakes =>
    have hplace : placeIn s.threads thread = some place := placeIn_of_awake here awake
    have hlt := System.lt_of_deliverAll here wakes
    have heffect := effect s.state s.now place reading
    rw [Option.some.inj moves] at heffect
    rw [List.getElem?_set_self hlt] at hasleep
    cases heffect with
    | grant | refuse | giveUp | count | inspect => cases hasleep
    | @wait _ deadline waits spent early =>
      obtain ⟨hwithin, hspent⟩ := take?_refill_eq_none_iff.1 spent
      have hsame := refill_of_not_isOver hwithin
      refine ⟨deadline, by rw [hplace]; exact waits, hwithin, hspent, early, hsame, ?_, ?_⟩
      · rw [List.getElem?_set_self hlt, hsame]
        rfl
      · refine (congrArg Layout.notes (System.layout_step here wakes)).trans ?_
        change Move.record thread _ ++ s.view.notes = _
        rw [Account.record_windowNotes_concat, hsame, windowNotes, hwithin]
        rfl

theorem BeginsWait.finds (h : BeginsWait thread reading deadline s s') :
    BeginsWait.Finds thread reading deadline s s' := by
  obtain ⟨⟨wakee, hnext⟩, hdeadline, condition, wakeAt, position, hasleep⟩ := h
  obtain ⟨deadline', hdeadline', hfinds⟩ := finds_of_asleep hnext hasleep
  cases hdeadline.symm.trans hdeadline'
  exact hfinds

/-- Who sleeps has begun to wait at some moment, and no window has begun since. -/
theorem exists_beginsWait {start : System monitor}
    (hstart : ∀ condition wakeAt position,
      start.threads[thread]? ≠ some (.asleep condition wakeAt position))
    (h : start.Reachable s)
    (hasleep : s.threads[thread]? = some (.asleep condition wakeAt position)) :
    ∃ before began reading deadline, start.Reachable before ∧
      BeginsWait thread reading deadline before began ∧
      began.ReachableBy (IsAside thread) s ∧ refills s = refills began ∧
      s.threads[thread]? = began.threads[thread]? := by
  induction h with
  | start => exact absurd hasleep (hstart _ _ _)
  | @next s s' event hreachable hnext ih =>
    have hchange := System.next_eq_some_iff.1 hnext
    by_cases haside : IsAside thread event
    · obtain ⟨hbefore, hsame⟩ := asleep_before hchange haside hasleep
      obtain ⟨before, began, reading, deadline, hreach, hbegins, hsince, hrefills, hthread⟩ :=
        ih hbefore
      exact ⟨before, began, reading, deadline, hreach, hbegins, .next hsince haside hnext,
        hsame.trans hrefills, (hasleep.trans hbefore.symm).trans hthread⟩
    · simp only [IsAside, not_forall, not_not] at haside
      obtain ⟨reading, wakee, rfl⟩ := haside
      obtain ⟨deadline, hdeadline, _⟩ := finds_of_asleep hnext hasleep
      exact ⟨s, s', reading, deadline, hreachable, ⟨⟨wakee, hnext⟩, hdeadline, _, _, _, hasleep⟩,
        .start, rfl, rfl⟩

/-- A waiter that looks again after its moment returns, if no window has begun in the meantime. -/
theorem BeginsWait.returns (h : BeginsWait thread reading deadline s s') (hreal : reading ≤ s.now)
    {moment : Instant} (hmoment : s'.state.wakeAt reading s.now deadline = some moment)
    {later : System monitor} (hlater : s'.ReachableBy (IsAside thread) later)
    (hsame : refills later = refills s') {look : Instant} (hlate : moment ≤ look)
    (hlook : look ≤ later.now) (wakee : Nat) :
    ∃ awake looked, (awake = later ∨ later.next (.rouse thread) = some awake) ∧
      awake.next (.step thread look wakee) = some looked ∧
      looked.replyOf thread = some (.acquired (s'.state.isOver look)) := by
  obtain ⟨_, hspent, _, hstate, hasleep, _⟩ := h.finds
  rw [← hstate] at hspent
  have hkept := state_eq_of_refills_eq hlater.reachable hspent hsame
  have hplace := hlater.placeIn_eq (by rw [placeIn, hasleep]; rfl)
  obtain ⟨awake, phase, hawake, hnow, hbucket, here, hposition⟩ := System.exists_awake hplace
  have hthere : placeIn awake.threads thread = some (.resume deadline s.state.checkpoint) := by
    rw [placeIn, here]
    exact Phase.place?_of_position? hposition
  have hover : s'.state.isOver look = true ∨ deadline.reached awake.now = true := by
    rcases Deadline.eq_or_eq_of_earlier hmoment with hend | rfl
    · exact .inl (isOver_of_windowEnd hend hreal hlate)
    · exact .inr (decide_eq_true (hnow ▸ Nat.le_trans hlate hlook))
  have houtcome := outcome_stepAcquire hspent hover
  rw [← hkept, ← hbucket] at houtcome
  have hsignals := (effect awake.state awake.now (.resume deadline s.state.checkpoint)
    look).signals_eq
  obtain ⟨threads, hthreads⟩ : ∃ threads, System.deliverAll wakee
      (step awake.state awake.now (.resume deadline s.state.checkpoint) look).signals
      awake.threads = some threads := by
    rw [hsignals]
    split <;> exact ⟨_, rfl⟩
  have hnext := System.next_eq_some_iff.2 (.step here hposition rfl hthreads)
  refine ⟨awake, _, hawake, hnext, ?_⟩
  rw [System.replyOf_of_next hnext hthere rfl, ← hkept, ← hbucket]
  exact houtcome

/-- Waiters of a bucket never oversleep a new window, and never wait in vain. Whoever sleeps has
begun to wait when no token was left, and nothing has begun or been taken since: the window is still
the one from which it has computed its moment. What it has computed to be left of the window is some
time, which leads to the end, and is missing only if the end is out of range. Its wait is right: the
moment lies ahead, the wait lasts no longer than what was left of the window, and there is no moment
only without a deadline and if what was left of the window leads out of range. If the clock shows
real time, or lags behind it, then a waiter whose moment has passed without a new window returns as
soon as it looks again: with a token where its moment was the end of the window, and with or without
one where it was its deadline. -/
theorem waiters_never_oversleep (h : (System.initial b now []).Reachable s) :
    (∀ thread condition wakeAt position,
      s.threads[thread]? = some (.asleep condition wakeAt position) →
      ∃ before began reading deadline, (System.initial b now []).Reachable before ∧
        BeginsWait thread reading deadline before began ∧
        began.ReachableBy (IsAside thread) s ∧ refills s = refills began ∧
        s.state = began.state ∧ s.state.tokens = 0 ∧ condition = .refilled ∧
        wakeAt = began.state.wakeAt reading before.now deadline ∧
        position = .resume deadline s.state.checkpoint) ∧
    ∀ thread reading deadline began, BeginsWait thread reading deadline s began →
      began.view.notes = (thread, .waiting (began.state.untilRefill reading)) :: s.view.notes ∧
      (began.state.untilRefill reading = none ↔
        18446744073709551616 * nanosPerSecond ≤
          began.state.checkpoint.nanos + began.state.period.nanos) ∧
      (∀ left, began.state.untilRefill reading = some left → 0 < left.nanos ∧
        ∃ windowEnd, began.state.checkpoint.add? began.state.period = some windowEnd ∧
          reading.add? left = some windowEnd) ∧
      WaitsRight began.state reading s.now deadline
        (began.state.wakeAt reading s.now deadline) ∧
      (began.state.wakeAt reading s.now deadline = none ↔ deadline = none ∧
        ∀ windowEnd, began.state.checkpoint.add? began.state.period = some windowEnd →
          s.now.add? (windowEnd.since reading) = none) ∧
      ∀ moment, began.state.wakeAt reading s.now deadline = some moment →
        s.now < moment ∧
        (∀ windowEnd, began.state.checkpoint.add? began.state.period = some windowEnd →
          moment.nanos - s.now.nanos ≤ windowEnd.nanos - reading.nanos) ∧
        (reading ≤ s.now → ∀ later, began.ReachableBy (IsAside thread) later →
          refills later = refills began → ∀ look, moment ≤ look → look ≤ later.now → ∀ wakee,
          ∃ awake looked, (awake = later ∨ later.next (.rouse thread) = some awake) ∧
            awake.next (.step thread look wakee) = some looked ∧
            looked.replyOf thread = some (.acquired (began.state.isOver look)) ∧
            ((began.state.untilRefill reading).bind s.now.add? = some moment →
              began.state.isOver look = true)) := by
  constructor
  · intro thread condition wakeAt position hasleep
    obtain ⟨before, began, reading, deadline, hbefore, hbegins, hsince, hsame, hthread⟩ :=
      exists_beginsWait (by simp [System.initial]) h hasleep
    obtain ⟨_, hspent, _, hstate, hslept, _⟩ := hbegins.finds
    rw [← hstate] at hspent hslept
    have hkept := state_eq_of_refills_eq hsince.reachable hspent hsame
    cases hasleep.symm.trans (hthread.trans hslept)
    exact ⟨before, began, reading, deadline, hbefore, hbegins, hsince, hsame, hkept,
      hkept ▸ hspent, rfl, rfl, hkept ▸ rfl⟩
  · intro thread reading deadline began hbegins
    obtain ⟨hwithin, hspent, hearly, hstate, _, hnotes⟩ := hbegins.finds
    rw [← hstate] at hwithin hspent hnotes
    refine ⟨hnotes, untilRefill_eq_none_iff, ?_, waitsRight_wakeAt hwithin hspent hearly,
      wakeAt_eq_none_iff, ?_⟩
    · intro left hleft
      obtain ⟨windowEnd, hend, rfl⟩ := Option.map_eq_some_iff.1 hleft
      obtain ⟨_, hsome, hleads⟩ := add?_untilRefill hwithin hend
      exact ⟨hsome, windowEnd, hend, hleads⟩
    · intro moment hmoment
      refine ⟨lt_of_wakeAt hwithin hearly hmoment,
        fun _ hend => le_of_wakeAt hwithin hend hmoment, ?_⟩
      intro hreal later hlater hsame look hlate hlook wakee
      obtain ⟨awake, looked, hawake, hnext, hreply⟩ :=
        hbegins.returns hreal hmoment hlater hsame hlate hlook wakee
      exact ⟨awake, looked, hawake, hnext, hreply,
        fun hend => isOver_of_windowEnd hend hreal hlate⟩

end Sleepers

/-- Two tokens are taken, a thread waits for another one with a deadline, and time goes on. -/
def spentWindow : List (Event monitor) :=
  [.arrive, .arrive, .arrive, .call 0 .tryAcquire, .step 0 (clockAt 100) 0, .call 0 .tryAcquire,
    .step 0 (clockAt 100) 0, .call 2 (.acquireTimeout (.ofNanos 5)),
    .step 2 (clockAt 100) 0, .elapse (.ofNanos 3), .call 1 .acquire]

/-- Somebody counts the tokens before the window ends, and nobody comes after it has ended. -/
def quietEnd : List (Event monitor) :=
  [.elapse (.ofNanos 4), .call 0 .available, .step 0 (clockAt 107) 0, .elapse (.ofNanos 5)]

theorem waiters_never_oversleep_quietEnd :
    ∃ s began later, (System.initial twoInTen (clockAt 100) []).run spentWindow = some s ∧
      s.next (.step 1 (clockAt 102) 0) = some began ∧ began.run quietEnd = some later ∧
      s.threads[2]? = some (.asleep .refilled (some (clockAt 105))
        (.resume (some (clockAt 105)) (clockAt 100))) ∧ s.state.tokens = 0 ∧
      began.view.notes = (1, .waiting (some (.ofNanos 8))) :: s.view.notes ∧
      WaitsRight began.state (clockAt 102) (clockAt 103) none (some (clockAt 111)) ∧
      (clockAt 102).add? (.ofNanos 8) = began.state.checkpoint.add? began.state.period ∧
      s.now < (clockAt 111) ∧
      ∃ awake looked, (awake = later ∨ later.next (.rouse 1) = some awake) ∧
        awake.next (.step 1 (clockAt 111) 0) = some looked ∧
        looked.replyOf 1 = some (.acquired true) := by
  have hruns : (((System.initial twoInTen (clockAt 100) []).run spentWindow).bind fun s =>
      (s.next (.step 1 (clockAt 102) 0)).bind fun began => (began.run quietEnd).map fun later =>
        (s.now, s.threads[2]?, (placeIn s.threads 1).bind Position.deadline?)) =
      some ((clockAt 103), some (.asleep .refilled (some (clockAt 105))
        (.resume (some (clockAt 105)) (clockAt 100))), some none) := rfl
  have hwaits : (((System.initial twoInTen (clockAt 100) []).run spentWindow).bind fun s =>
      (s.next (.step 1 (clockAt 102) 0)).bind fun began => (began.run quietEnd).map fun later =>
        (began.state, began.threads[1]?, refills began, later.now, refills later)) =
      some ({ twoInTen with tokens := 0 }, some (.asleep .refilled (some (clockAt 111))
        (.resume none (clockAt 100))), [], (clockAt 112), []) := rfl
  obtain ⟨s, hrun, hruns⟩ := Option.bind_eq_some_iff.1 hruns
  obtain ⟨began, hnext, hruns⟩ := Option.bind_eq_some_iff.1 hruns
  obtain ⟨later, hlater, hruns⟩ := Option.map_eq_some_iff.1 hruns
  rw [hrun, Option.bind_some, hnext, Option.bind_some, hlater, Option.map_some] at hwaits
  simp only [Option.some.injEq, Prod.mk.injEq] at hruns hwaits
  obtain ⟨hnow, hasleep, hdeadline⟩ := hruns
  obtain ⟨hstate, hwaiter, hbefore, hpresent, hsame⟩ := hwaits
  obtain ⟨hsleepers, hwaiters⟩ := waiters_never_oversleep (.run .start hrun)
  obtain ⟨_, _, _, _, _, _, _, _, _, hspent, _⟩ := hsleepers 2 _ _ _ hasleep
  have hbegins : BeginsWait 1 (clockAt 102) none s began :=
    ⟨⟨0, hnext⟩, hdeadline, _, _, _, hwaiter⟩
  obtain ⟨hnotes, _, hleft, hright, _, hlook⟩ := hwaiters 1 (clockAt 102) none began hbegins
  have huntil : began.state.untilRefill (clockAt 102) = some (.ofNanos 8) := by
    rw [hstate]
    rfl
  have hmoment : began.state.wakeAt (clockAt 102) s.now none = some (clockAt 111) := by
    rw [hstate, hnow]
    rfl
  rw [huntil] at hnotes
  rw [hmoment, hnow] at hright
  obtain ⟨_, windowEnd, hend, hleads⟩ := hleft _ huntil
  obtain ⟨hahead, _, hreturns⟩ := hlook (clockAt 111) hmoment
  have haside : ∀ event ∈ quietEnd, IsAside 1 event := by simp [quietEnd, IsAside]
  have hreal : clockAt 102 ≤ s.now := by
    rw [hnow]
    decide
  obtain ⟨awake, looked, hawake, hlooked, hreply, hover⟩ :=
    hreturns hreal later (.run .start haside hlater) (hsame.trans hbefore.symm)
      (clockAt 111) (by decide) (by rw [hpresent]; decide) 0
  have hchosen : (began.state.untilRefill (clockAt 102)).bind s.now.add? = some (clockAt 111) := by
    rw [huntil, hnow]
    rfl
  rw [hover hchosen] at hreply
  exact ⟨s, began, later, hrun, hnext, hlater, hasleep, hspent, hnotes, hright,
    hleads.trans hend.symm, hahead, awake, looked, hawake, hlooked, hreply⟩

end Backpressure.Bucket
