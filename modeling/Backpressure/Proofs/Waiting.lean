import Mathlib.Algebra.GroupWithZero.Nat
import Backpressure.Proofs.View

/-!
# Counting threads

Of the threads that have gone to sleep on a condition, some still sleep and some have been woken
and are on the way to look at the state again. A signal moves threads from the first kind to the
second, and a thread that moves leaves the second kind. The threads at places of some kind change
with the one thread that moves, and with nothing else.
-/

namespace Backpressure

variable {M : Monitor}

/-- How many threads sleep on a condition, with no wake-up under way to them. -/
def sleeping (condition : M.Condition) (threads : List (Phase M)) : Nat :=
  threads.countP (·.sleepsOn condition)

/-- How many threads have been woken from a condition and have not looked at the state since. -/
def onTheWay (condition : M.Condition) (threads : List (Phase M)) : Nat :=
  threads.countP (·.isWokenFrom condition)

variable {condition : M.Condition} {threads threads' : List (Phase M)} {thread wakee : Nat}
  {phase : Phase M}

/-- A count of threads changes with the one thread that changes. -/
theorem countP_set_add (p : Phase M → Bool) (here : threads[thread]? = some phase)
    (phase' : Phase M) :
    (threads.set thread phase').countP p + (p phase).toNat =
      threads.countP p + (p phase').toNat := by
  induction threads generalizing thread with
  | nil => contradiction
  | cons first rest ih =>
    cases thread with
    | zero =>
      cases here
      rw [List.set_cons_zero, List.countP_cons, List.countP_cons]
      cases p phase <;> cases p phase' <;> simp
    | succ n =>
      have hrest := ih here
      rw [List.set_cons_succ, List.countP_cons, List.countP_cons]
      omega

@[simp]
theorem sleeping_map_still : sleeping condition (threads.map Phase.still) =
    sleeping condition threads := by
  simp [sleeping, List.countP_map, Function.comp_def]

@[simp]
theorem onTheWay_map_still : onTheWay condition (threads.map Phase.still) =
    onTheWay condition threads := by
  simp [onTheWay, List.countP_map, Function.comp_def]

/-- Where somebody is on the way, there is a thread that has been woken. -/
theorem exists_of_onTheWay (h : 0 < onTheWay condition threads) :
    ∃ (thread : Nat) (position : M.Position),
      threads[thread]? = some (Phase.woken condition position) := by
  obtain ⟨phase, hmem, hwoken⟩ := List.countP_pos_iff.1 h
  obtain ⟨thread, hthread⟩ := List.getElem?_of_mem hmem
  cases phase with
  | woken c position =>
    have hsame : c = condition := of_decide_eq_true hwoken
    exact ⟨thread, position, hsame ▸ hthread⟩
  | _ => contradiction

/-- A new thread neither sleeps nor has been woken. -/
theorem counts_append_idle (threads : List (Phase M)) (c : M.Condition) :
    sleeping c (threads ++ [.idle]) = sleeping c threads ∧
      onTheWay c (threads ++ [.idle]) = onTheWay c threads := by
  simp [sleeping, onTheWay, Phase.sleepsOn, Phase.isWokenFrom]

/-- A call begins awake. -/
theorem counts_set_ready (here : threads[thread]? = some .idle) (position : M.Position)
    (c : M.Condition) :
    sleeping c (threads.set thread (.ready position)) = sleeping c threads ∧
      onTheWay c (threads.set thread (.ready position)) = onTheWay c threads :=
  ⟨countP_set_add (·.sleepsOn c) here (.ready position),
    countP_set_add (·.isWokenFrom c) here (.ready position)⟩

/-- A thread that moves is no longer on the way, and it sleeps where the move says so. -/
theorem counts_set_outcome (here : threads[thread]? = some phase) {position : M.Position}
    (awake : phase.position? = some position)
    (outcome : Outcome M.Position M.Reply M.Condition) (c : M.Condition) :
    sleeping c (threads.set thread (Phase.ofOutcome outcome).still) =
        sleeping c threads + ((Phase.ofOutcome outcome).sleepsOn c).toNat ∧
      onTheWay c (threads.set thread (Phase.ofOutcome outcome).still) +
        (phase.isWokenFrom c).toNat = onTheWay c threads := by
  have hasleep := countP_set_add (·.sleepsOn c) here (Phase.ofOutcome outcome).still
  have hwoken := countP_set_add (·.isWokenFrom c) here (Phase.ofOutcome outcome).still
  have hbefore : phase.sleepsOn c = false := by
    cases phase <;> simp_all [Phase.position?, Phase.sleepsOn]
  have hafter : (Phase.ofOutcome outcome).isWokenFrom c = false := by
    cases outcome <;> rfl
  simp only [Phase.sleepsOn_still, Phase.isWokenFrom_still, hbefore, hafter, Bool.toNat_false,
    Nat.add_zero] at hasleep hwoken
  exact ⟨hasleep, hwoken⟩

/-! ### Signals -/

/-- A sleeper that is woken is on the way, and sleeps no more. -/
theorem counts_set_wake (here : threads[thread]? = some phase)
    (hsleeps : phase.sleepsOn condition = true) (c : M.Condition) :
    sleeping c (threads.set thread phase.wake) + (if c = condition then 1 else 0) =
        sleeping c threads ∧
      onTheWay c (threads.set thread phase.wake) =
        onTheWay c threads + (if c = condition then 1 else 0) := by
  have hasleep := countP_set_add (·.sleepsOn c) here phase.wake
  have hwoken := countP_set_add (·.isWokenFrom c) here phase.wake
  cases phase with
  | asleep c' wakeAt position =>
    have hsame : c' = condition := of_decide_eq_true hsleeps
    subst hsame
    by_cases hc : c = c'
    · simp_all [Phase.wake, Phase.sleepsOn, Phase.isWokenFrom, sleeping, onTheWay]
    · simp_all [Phase.wake, Phase.sleepsOn, Phase.isWokenFrom, sleeping, onTheWay, Ne.symm hc]
  | _ => contradiction

/-- A signal for one thread moves one sleeper on its way, where there is any. -/
theorem counts_of_deliver_one
    (h : System.deliver threads wakee (.one condition) = some threads') :
    sleeping condition threads = 0 ∧ threads' = threads ∨
      ∀ c, sleeping c threads' + (if c = condition then 1 else 0) = sleeping c threads ∧
        onTheWay c threads' = onTheWay c threads + (if c = condition then 1 else 0) := by
  rcases System.deliver_one_cases h with ⟨hnone, rfl⟩ | ⟨phase, hphase, hsleeps, rfl⟩
  · left
    refine ⟨List.countP_eq_zero.2 ?_, rfl⟩
    intro phase hmem
    simp [hnone phase hmem]
  · right
    exact counts_set_wake hphase hsleeps

/-- A signal for all leaves no sleeper on its condition, and makes none on another. -/
theorem sleeping_of_deliver_all (h : System.deliver threads wakee (.all condition) = some threads')
    (c : M.Condition) :
    sleeping c threads' = if c = condition then 0 else sleeping c threads := by
  cases h
  rw [sleeping, List.countP_map]
  split
  · rename_i hc
    subst hc
    rw [List.countP_eq_zero]
    intro phase _
    by_cases hsleeps : phase.sleepsOn c = true <;> simp [hsleeps]
  · rename_i hc
    apply List.countP_congr
    intro phase _
    cases phase with
    | asleep c' wakeAt position =>
      by_cases hsame : c' = condition
      · subst hsame
        simp [Phase.sleepsOn, Phase.wake, Ne.symm hc]
      · simp [Phase.sleepsOn, hsame]
    | _ => simp [Phase.sleepsOn]

/-- Signals leave a thread alone that is awake. -/
theorem getElem?_of_deliver {signal : Signal M.Condition} (here : threads[thread]? = some phase)
    {position : M.Position} (awake : phase.position? = some position)
    (h : System.deliver threads wakee signal = some threads') :
    threads'[thread]? = some phase := by
  have hawake : ∀ c, phase.sleepsOn c = false := by
    intro c
    cases phase <;> simp_all [Phase.position?, Phase.sleepsOn]
  cases signal with
  | all c =>
    cases h
    simp [here, hawake c]
  | one c =>
    rcases System.deliver_one_cases h with ⟨_, rfl⟩ | ⟨sleeper, hsleeper, hsleeps, rfl⟩
    · exact here
    · have hne : wakee ≠ thread := by
        rintro rfl
        rw [here] at hsleeper
        cases hsleeper
        rw [hawake c] at hsleeps
        contradiction
      rw [List.getElem?_set_ne hne, here]

/-- A signal for one thread can always be delivered, to some thread or to nobody. -/
theorem exists_deliver_one (threads : List (Phase M)) (condition : M.Condition) :
    ∃ wakee, (System.deliver threads wakee (.one condition)).isSome = true := by
  by_cases hany : threads.any (·.sleepsOn condition) = true
  · obtain ⟨phase, hmem, hsleeps⟩ := List.any_eq_true.1 hany
    obtain ⟨wakee, hwakee⟩ := List.getElem?_of_mem hmem
    exact ⟨wakee, by simp [System.deliver, hany, hwakee, hsleeps]⟩
  · exact ⟨0, by simp [System.deliver, hany]⟩

/-- A signal for one thread, and no other, can always be delivered. -/
theorem exists_deliverAll_one (threads : List (Phase M)) (condition : M.Condition) :
    ∃ wakee, (System.deliverAll wakee [.one condition] threads).isSome = true := by
  obtain ⟨wakee, hwakee⟩ := exists_deliver_one threads condition
  obtain ⟨between, hbetween⟩ := Option.isSome_iff_exists.1 hwakee
  exact ⟨wakee, by simp [System.deliverAll, hbetween]⟩

/-- Signals for all threads can always be delivered, and so can a single one for one thread. -/
theorem exists_deliverAll_of {signals : List (Signal M.Condition)}
    (h : (∃ condition, signals = [.one condition]) ∨
      ∀ signal ∈ signals, ∃ condition, signal = .all condition) (threads : List (Phase M)) :
    ∃ wakee, (System.deliverAll wakee signals threads).isSome = true := by
  rcases h with ⟨condition, rfl⟩ | hall
  · exact exists_deliverAll_one threads condition
  · refine ⟨0, ?_⟩
    induction signals generalizing threads with
    | nil => rfl
    | cons signal rest ih =>
      rw [List.forall_mem_cons] at hall
      obtain ⟨⟨condition, rfl⟩, hrest⟩ := hall
      exact ih _ hrest

/-! ### Places -/

/-- How many threads are at a place of some kind. -/
def threadsAt (kind : M.Position → Bool) (threads : List (Phase M)) : Nat :=
  threads.countP (·.place?.any kind)

variable {kind : M.Position → Bool}

theorem threadsAt_append_idle (threads : List (Phase M)) :
    threadsAt kind (threads ++ [.idle]) = threadsAt kind threads := by
  simp [threadsAt]

/-- A thread that goes from one place to another, or to none, is all that changes. -/
theorem threadsAt_set_add (kind : M.Position → Bool) (here : threads[thread]? = some phase)
    (phase' : Phase M) :
    threadsAt kind (threads.set thread phase') + (phase.place?.any kind).toNat =
      threadsAt kind threads + (phase'.place?.any kind).toNat :=
  countP_set_add (·.place?.any kind) here phase'

/-- A thread that moves is all that changes, whoever is woken. -/
theorem threadsAt_move (here : threads[thread]? = some phase) {position : M.Position}
    (awake : phase.position? = some position) {signals : List (Signal M.Condition)}
    (wakes : System.deliverAll wakee signals threads = some threads') (phase' : Phase M) :
    threadsAt kind (threads'.set thread phase') + (kind position).toNat =
      threadsAt kind threads + (phase'.place?.any kind).toNat := by
  have hplaces := System.map_place?_deliverAll wakes
  have hsame : threadsAt kind threads' = threadsAt kind threads := by
    have hcount : ∀ list : List (Phase M),
        threadsAt kind list = (list.map Phase.place?).countP (·.any kind) := by
      intro list
      rw [List.countP_map]
      rfl
    rw [hcount, hplaces, ← hcount]
  have hplace : threads'[thread]?.map Phase.place? = some (some position) := by
    rw [← List.getElem?_map, hplaces, List.getElem?_map, here, Option.map_some,
      Phase.place?_of_position? awake]
  obtain ⟨before, hbefore, hposition⟩ := Option.map_eq_some_iff.1 hplace
  have hset := threadsAt_set_add kind hbefore phase'
  rwa [hposition, Option.any_some, hsame] at hset

/-- A sum changes with the one summand that changes. -/
theorem sum_set_add {weights : List Nat} {index before : Nat} (h : weights[index]? = some before)
    (after : Nat) : (weights.set index after).sum + before = weights.sum + after := by
  induction weights generalizing index with
  | nil => contradiction
  | cons first rest ih =>
    cases index with
    | zero =>
      cases h
      simp only [List.set_cons_zero, List.sum_cons]
      omega
    | succ n =>
      have hrest := ih h
      simp only [List.set_cons_succ, List.sum_cons]
      omega

/-- What a thread weighs, by its place. -/
def Phase.weigh (weight : M.Position → Nat) (phase : Phase M) : Nat :=
  (phase.place?.map weight).getD 0

/-- What all threads weigh together. -/
def weightOf (weight : M.Position → Nat) (threads : List (Phase M)) : Nat :=
  (threads.map (·.weigh weight)).sum

/-- A thread that moves is all that changes the weight, whoever is woken. -/
theorem weightOf_move {weight : M.Position → Nat} (here : threads[thread]? = some phase)
    {position : M.Position} (awake : phase.position? = some position)
    {signals : List (Signal M.Condition)}
    (wakes : System.deliverAll wakee signals threads = some threads') (phase' : Phase M) :
    weightOf weight (threads'.set thread phase') + weight position =
      weightOf weight threads + phase'.weigh weight := by
  have hsame : threads'.map (·.weigh weight) = threads.map (·.weigh weight) := by
    refine System.map_deliverAll ?_ wakes
    intro phase
    rw [Phase.weigh, Phase.place?_wake]
    rfl
  have hbefore : (threads.map (·.weigh weight))[thread]? = some (weight position) := by
    simp [here, Phase.weigh, Phase.place?_of_position? awake]
  rw [weightOf, List.map_set, hsame]
  exact sum_set_add hbefore _

/-- A thread that moves to a place of less weight takes weight away. -/
theorem weightOf_next {s s' : System M} (weight : M.Position → Nat)
    (here : s.threads[thread]? = some phase) {position : M.Position}
    (awake : phase.position? = some position) {input : M.Input}
    {move : Move M.State M.Position M.Reply M.Condition M.Note}
    (moves : M.step s.state s.now position input = some move)
    (hless : (Phase.ofOutcome (M := M) move.outcome).weigh weight < weight position)
    (hnext : s.next (.step thread input wakee) = some s') :
    weightOf weight s'.threads < weightOf weight s.threads := by
  cases System.next_eq_some_iff.1 hnext with
  | @step _ _ _ phase' position' move' threads here' awake' moves' wakes =>
    cases here.symm.trans here'
    cases awake.symm.trans awake'
    cases moves.symm.trans moves'
    have hmoved : weightOf weight (threads.set thread (.ofOutcome move.outcome)) +
        weight position =
        weightOf weight s.threads + (Phase.ofOutcome (M := M) move.outcome).weigh weight :=
      weightOf_move here awake wakes _
    change weightOf weight (threads.set thread (.ofOutcome move.outcome)) < _
    omega

/-- Threads can be counted by their numbers. -/
theorem countP_eq_range (p : Phase M → Bool) (threads : List (Phase M)) :
    threads.countP p = (List.range threads.length).countP fun t => threads[t]?.any p := by
  induction threads with
  | nil => rfl
  | cons first rest ih =>
    rw [List.length_cons, List.range_succ_eq_map, List.countP_cons, List.countP_cons,
      List.countP_map, ih]
    rfl

end Backpressure
