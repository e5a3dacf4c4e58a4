import Backpressure.Proofs.Buffer.Shutdown
import Backpressure.Proofs.Waiting

/-!
# Who waits in a buffer

A flush that finds a delivery under way sleeps until its round is over. The flag that says so is
taken back together with the number of the round, and everybody is woken then; so whoever still
sleeps has the delivery under way to wait for. A shutdown waits for the periodic trigger, and is
alone in that from the moment it has told the trigger to stop.
-/

namespace Backpressure.Buffer

variable {α : Type}

/-- Does a thread at this place wait for another one? -/
def Position.waits : Position α → Bool
  | .join _ _ | .await => true
  | _ => false

section Moves

variable {b b' : Buffer α} {now : Instant} {position : Position α} {input : Input} {move : Step α}
  {errand : Errand}

/-- What becomes of a thread by a step. -/
inductive Leads (b b' : Buffer α) (position : Position α) :
    Outcome (Position α) (Reply α) Condition → Prop
  /-- It sleeps until the round is over, for a delivery that it has found under way. -/
  | sleep {errand wakeAt} (found : position = .join errand b.round ∨ b.flushing = true)
      (same : b' = b) : Leads b b' position (.sleep .flushed wakeAt (.join errand b.round))
  /-- It waits for the end of the periodic trigger, which it has told to stop. -/
  | await (stop : position = .stop) (running : b.ticker = .running)
      (stopping : b'.ticker = .stopping) : Leads b b' position (.proceed .await)
  /-- It goes on. -/
  | proceed {place} (free : place.waits = false) : Leads b b' position (.proceed place)
  /-- Its call returns. -/
  | reply {reply} : Leads b b' position (.reply reply)
  /-- It was the periodic trigger, and ends. -/
  | exit (select : position = .select) (ended : b'.ticker = .ended) : Leads b b' position .exit

theorem leads_finish {flush : Flush} : Leads b b' position (finish errand flush) := by
  cases errand with
  | add =>
    simp only [finish]
    split
    · exact .proceed rfl
    · exact .reply
  | tick => exact .proceed rfl
  | flush | shutdown => exact .reply

theorem leads_wait (h : position = .join errand b.round ∨ b.flushing = true) :
    Leads b (wait b now errand b.round).state position (wait b now errand b.round).outcome := by
  unfold wait
  split
  · exact .reply
  · exact .sleep h rfl

/-- Only the periodic trigger ends its thread. -/
theorem Leads.returns_or_stays {b b' : Buffer α} {position : Position α}
    {outcome : Outcome (Position α) (Reply α) Condition} (h : Leads b b' position outcome)
    (hcalled : position.purpose ≠ .tick) :
    (∃ reply, outcome = .reply reply) ∨
      ∃ place, (Phase.ofOutcome (M := monitor α) outcome).place? = some place := by
  cases h with
  | sleep | await | proceed => exact .inr ⟨_, rfl⟩
  | reply => exact .inl ⟨_, rfl⟩
  | exit hselect =>
    rw [hselect] at hcalled
    exact absurd rfl hcalled

/-- Every step leads on in one of these ways. -/
theorem leads_of_moves (moves : (monitor α).step b now position input = some move) :
    Leads b move.state position move.outcome := by
  cases position with
  | append item =>
    cases moves
    simp only [stepAppend]
    split
    · exact .proceed rfl
    · exact .reply
  | enter errand =>
    cases moves
    unfold stepEnter
    split
    · rename_i hbusy
      exact leads_wait (.inr hbusy)
    · split
      · exact leads_finish
      · exact .proceed rfl
  | join errand round =>
    cases moves
    unfold stepJoin
    split
    · rename_i hsame
      subst hsame
      exact leads_wait (.inl rfl)
    · exact leads_finish
  | record errand size accepted =>
    cases moves
    exact leads_finish
  | recheck =>
    cases moves
    unfold stepRecheck
    split
    · exact .proceed rfl
    · exact .reply
  | deliver errand batch =>
    cases input <;> cases moves
    exact .proceed rfl
  | stop =>
    simp only [step, stepStop] at moves
    split at moves
    · rename_i hrunning
      cases moves
      exact .await rfl hrunning rfl
    · cases moves
      exact .proceed rfl
    all_goals contradiction
  | await =>
    simp only [step, stepAwait] at moves
    split at moves <;> cases moves
    exact .proceed rfl
  | select =>
    simp only [step, stepSelect] at moves
    split at moves
    · cases moves
      exact .proceed rfl
    · split at moves <;> cases moves
      exact .exit rfl rfl
    · contradiction
  | call | launch =>
    cases moves
    exact .proceed rfl
  | inspect =>
    cases moves
    exact .reply

/-- A step wakes nobody, or everybody who waits for a delivery. -/
theorem signals_of_moves (moves : (monitor α).step b now position input = some move) :
    move.signals = [] ∨ move.signals = [.all .flushed] := by
  cases position with
  | record =>
    cases moves
    exact .inr rfl
  | enter errand =>
    cases moves
    simp only [stepEnter, wait]
    left
    split <;> split <;> rfl
  | join errand round =>
    cases moves
    simp only [stepJoin, wait]
    left
    split
    · split <;> rfl
    · rfl
  | recheck =>
    cases moves
    simp only [stepRecheck]
    left
    split <;> rfl
  | deliver errand batch =>
    cases input <;> cases moves
    exact .inl rfl
  | stop =>
    simp only [step, stepStop] at moves
    split at moves <;> cases moves <;> exact .inl rfl
  | await =>
    simp only [step, stepAwait] at moves
    split at moves <;> cases moves
    exact .inl rfl
  | select =>
    simp only [step, stepSelect] at moves
    split at moves
    · cases moves
      exact .inl rfl
    · split at moves <;> cases moves
      exact .inl rfl
    · contradiction
  | append | call | launch | inspect =>
    cases moves
    exact .inl rfl

/-- A step ends the round, or leaves it and the delivery under way alone. -/
theorem ends_of_moves (moves : (monitor α).step b now position input = some move) :
    (move.state.round = b.round ∧ (b.flushing = true → move.state.flushing = true)) ∨
      move.state.round = b.round + 1 ∧ move.signals = [.all .flushed] := by
  cases effect_of_moves moves with
  | add | call | deliver => exact .inl ⟨rfl, id⟩
  | take => exact .inl ⟨rfl, fun _ => rfl⟩
  | record => exact .inr ⟨rfl, rfl⟩
  | aside noOffer free samePending sameFlushing sameRound =>
    exact .inl ⟨sameRound, fun hbusy => sameFlushing.trans hbusy⟩

/-! ### Waiting for a delivery -/

/-- A thread at this place waits for no delivery, for one that is over, or for the one under
way. -/
def Joins (b : Buffer α) : Position α → Prop
  | .join _ round => round < b.round ∨ round = b.round ∧ b.flushing = true
  | _ => True

theorem joins_of_not_waits (h : position.waits = false) : Joins b position := by
  cases position <;> trivial

/-- A thread does not sleep, or it sleeps for the delivery under way. -/
def SleepsWell (b : Buffer α) : Phase (monitor α) → Prop
  | .asleep _ _ position => b.flushing = true ∧ ∃ errand, position = .join errand b.round
  | _ => True

theorem sleepsWell_wake (phase : Phase (monitor α)) (h : SleepsWell b phase) :
    SleepsWell b phase.wake := by
  cases phase <;> first | exact h | trivial

/-- A thread that takes a step waits afterwards for a delivery under way, if for any. -/
theorem Leads.joins {outcome : Outcome (Position α) (Reply α) Condition}
    (h : Leads b b' position outcome) (hjoins : Joins b position) :
    SleepsWell b' (Phase.ofOutcome (M := monitor α) outcome).still ∧
      ∀ place, (Phase.ofOutcome (M := monitor α) outcome).place? = some place →
        Joins b' place := by
  cases h with
  | @sleep errand wakeAt found same =>
    subst same
    have hbusy : b'.flushing = true := by
      rcases found with rfl | hbusy
      · rcases hjoins with hover | ⟨_, hbusy⟩
        · exact absurd hover (Nat.lt_irrefl _)
        · exact hbusy
      · exact hbusy
    refine ⟨⟨hbusy, errand, rfl⟩, ?_⟩
    rintro _ ⟨⟩
    exact .inr ⟨rfl, hbusy⟩
  | await => exact ⟨trivial, by rintro _ ⟨⟩; trivial⟩
  | proceed free => exact ⟨trivial, by rintro _ ⟨⟩; exact joins_of_not_waits free⟩
  | reply | exit => exact ⟨trivial, nofun⟩

/-- Whom a thread waits for does not change with what others do, as long as it is not over. -/
theorem Joins.mono (h : Joins b position)
    (hround : b'.round = b.round ∧ (b.flushing = true → b'.flushing = true) ∨
      b'.round = b.round + 1) : Joins b' position := by
  cases position with
  | join errand round =>
    rcases hround with ⟨hsame, hbusy⟩ | hnext
    · rcases h with hover | ⟨heq, hflushing⟩
      · exact .inl (hsame ▸ hover)
      · exact .inr ⟨heq.trans hsame.symm, hbusy hflushing⟩
    · left
      rcases h with hover | ⟨heq, _⟩ <;> omega
  | _ => trivial

end Moves

/-- Every thread that waits for a delivery waits for one that is over, or for the one under way, and
sleeps for the one under way only. -/
structure Attended (b : Buffer α) (threads : List (Phase (monitor α))) : Prop where
  /-- The delivery that a thread waits for is over or under way. -/
  joins : ∀ phase ∈ threads, ∀ position, phase.place? = some position → Joins b position
  /-- A thread that sleeps sleeps for the delivery under way. -/
  asleep : ∀ phase ∈ threads, SleepsWell b phase

namespace Attended

variable {b : Buffer α} {threads between : List (Phase (monitor α))} {thread wakee : Nat}
  {phase : Phase (monitor α)} {position : Position α} {now : Instant} {input : Input}
  {move : Step α}

/-- A thread that becomes awake, at a place that suits it, spoils nothing. -/
theorem set (h : Attended b threads) {phase' : Phase (monitor α)}
    (hjoins : ∀ position, phase'.place? = some position → Joins b position)
    (hasleep : SleepsWell b phase') : Attended b (threads.set thread phase') := by
  constructor
  · intro p hmem
    rcases List.mem_or_eq_of_mem_set hmem with hold | rfl
    · exact h.joins p hold
    · exact hjoins
  · intro p hmem
    rcases List.mem_or_eq_of_mem_set hmem with hold | rfl
    · exact h.asleep p hold
    · exact hasleep

/-- A call begins with no delivery to wait for. -/
theorem joins_start (request : Request α) (now : Instant) : Joins b (start request now) := by
  cases request <;> trivial

/-- What a step does to the buffer, and whom it wakes, leaves the others with a delivery under way
to wait for. -/
theorem others (h : Attended b threads)
    (moves : (monitor α).step b now position input = some move)
    (wakes : System.deliverAll (M := monitor α) wakee move.signals threads = some between) :
    Attended move.state between := by
  have hbetween : Attended b between := by
    constructor
    · refine System.forall_mem_deliverAll
        (P := fun phase => ∀ position, phase.place? = some position → Joins b position) ?_ h.joins
        wakes
      intro p hp position hplace
      exact hp position (Phase.place?_wake p ▸ hplace)
    · exact System.forall_mem_deliverAll (P := SleepsWell b) sleepsWell_wake h.asleep wakes
  constructor
  · intro p hmem position hplace
    exact (hbetween.joins p hmem position hplace).mono ((ends_of_moves moves).imp id And.left)
  · intro p hmem
    have hbefore := hbetween.asleep p hmem
    cases p with
    | asleep condition wakeAt position =>
      obtain ⟨hbusy, errand, rfl⟩ := hbefore
      rcases ends_of_moves moves with ⟨hsame, hstays⟩ | ⟨_, hsignals⟩
      · exact ⟨hstays hbusy, errand, by rw [hsame]⟩
      · -- the end of a round wakes everybody
        rw [hsignals] at wakes
        obtain ⟨_, hdeliver, hend⟩ := Option.bind_eq_some_iff.1 wakes
        cases hend
        have hnobody := sleeping_of_deliver_all hdeliver .flushed
        rw [if_pos rfl] at hnobody
        have hawake := List.countP_eq_zero.1 hnobody _ hmem
        cases condition
        simp [Phase.sleepsOn] at hawake
    | _ => trivial

/-- Every step leaves every thread that waits with a delivery to wait for. -/
theorem step {allowed : Event (monitor α) → Prop} {v v' : View (monitor α)}
    (h : Attended v.state v.threads) (hstep : v.Step allowed v') :
    Attended v'.state v'.threads := by
  cases hstep with
  | arrive =>
    constructor
    · intro p hmem
      rcases List.mem_append.1 hmem with hold | hnew
      · exact h.joins p hold
      · rw [List.mem_singleton.1 hnew]
        nofun
    · intro p hmem
      rcases List.mem_append.1 hmem with hold | hnew
      · exact h.asleep p hold
      · rw [List.mem_singleton.1 hnew]
        trivial
  | @call thread request now asked here =>
    refine h.set ?_ trivial
    rintro _ ⟨⟩
    exact joins_start request now
  | @rouse thread condition wakeAt position here =>
    have hbefore := h.joins _ (List.mem_of_getElem? here) position rfl
    refine h.set ?_ trivial
    rintro _ ⟨⟩
    exact hbefore
  | @move thread wakee input phase position now move threads asked here awake moves wakes =>
    have hplace := Phase.place?_of_position? awake
    have hjoins := h.joins phase (List.mem_of_getElem? here) position hplace
    obtain ⟨hasleep, hplaces⟩ := (leads_of_moves moves).joins hjoins
    refine (h.others moves wakes).set ?_ hasleep
    intro place hplace'
    rw [Phase.place?_still] at hplace'
    exact hplaces place hplace'

/-- Whatever threads do with a buffer, who waits has a delivery to wait for. -/
theorem of_reachable {allowed : Event (monitor α) → Prop} {start v : View (monitor α)}
    (h : start.Reachable allowed v) (hstart : Attended start.state start.threads) :
    Attended v.state v.threads :=
  h.invariant (P := fun v => Attended v.state v.threads) hstart fun hbefore hstep =>
    hbefore.step hstep

end Attended

/-! ### Waiting for the end of the periodic trigger -/

/-- A thread comes to wait for the periodic trigger as it tells it to stop. -/
theorem Leads.stops {b b' : Buffer α} {position : Position α}
    {outcome : Outcome (Position α) (Reply α) Condition} (h : Leads b b' position outcome)
    (hplace : (Phase.ofOutcome (M := monitor α) outcome).place? = some .await) :
    b.ticker = .running ∧ b'.ticker = .stopping := by
  cases h with
  | await _ running stopping => exact ⟨running, stopping⟩
  | proceed free =>
    cases hplace
    contradiction
  | sleep => cases hplace
  | reply | exit => contradiction

/-- A thread that waits for the periodic trigger goes on once it has ended. -/
theorem ended_of_await {b : Buffer α} {now : Instant} {input : Input} {move : Step α}
    (moves : (monitor α).step b now .await input = some move) :
    b.ticker = .ended ∧ move.state.ticker = .stopped := by
  simp only [step, stepAwait] at moves
  split at moves
  · rename_i hended
    cases moves
    exact ⟨hended, rfl⟩
  · contradiction

/-- One shutdown at most waits for the end of the periodic trigger, from the moment it has told it
to stop until it notices the end. -/
structure Awaited (l : Layout (monitor α)) : Prop where
  /-- Nobody waits with another. -/
  alone : ∀ {thread thread'}, l.place thread = some .await → l.place thread' = some .await →
    thread = thread'
  /-- Who waits has told the trigger to stop. -/
  told : ∀ {thread}, l.place thread = some .await →
    l.state.ticker = .stopping ∨ l.state.ticker = .ended
  /-- Somebody waits until the end is noticed. -/
  noticed : l.state.ticker = .stopping ∨ l.state.ticker = .ended →
    ∃ thread, l.place thread = some .await

namespace Awaited

variable {l l' : Layout (monitor α)} {allowed : Event (monitor α) → Prop}

/-- A thread that neither waits for the periodic trigger nor comes to do so leaves whoever waits as
he is. -/
theorem update {thread : Nat} {place? : Option (Position α)} {state : Buffer α}
    {notes : List (Nat × Note α)} (h : Awaited l) (hbefore : l.place thread ≠ some .await)
    (hafter : place? ≠ some .await)
    (hticker : state.ticker = l.state.ticker ∨
      l.state.ticker = .stopping ∧ state.ticker = .ended) :
    Awaited ⟨state, Function.update l.place thread place?, notes⟩ := by
  have hold : ∀ {t}, Function.update l.place thread place? t = some .await →
      l.place t = some .await := by
    intro t hplace
    rcases cases_of_update hplace with ⟨_, hnew⟩ | ⟨_, hstays⟩
    · exact absurd hnew hafter
    · exact hstays
  refine ⟨fun hplace hplace' => h.alone (hold hplace) (hold hplace'), ?_, ?_⟩
  · intro t hplace
    rcases hticker with hsame | ⟨_, hended⟩
    · rw [hsame]
      exact h.told (hold hplace)
    · exact .inr hended
  · intro hwaits
    have hwaited : l.state.ticker = .stopping ∨ l.state.ticker = .ended := by
      rcases hticker with hsame | ⟨hstopping, _⟩
      · rwa [← hsame]
      · exact .inl hstopping
    obtain ⟨t, hplace⟩ := h.noticed hwaited
    have hne : t ≠ thread := by
      rintro rfl
      exact hbefore hplace
    exact ⟨t, (Function.update_of_ne hne _ _).trans hplace⟩

/-- Every step leaves one shutdown at most to wait. -/
theorem step (h : Awaited l) (hstep : l.Step allowed l') : Awaited l' := by
  cases hstep with
  | @call thread request now asked free =>
    refine h.update ?_ ?_ (.inl rfl)
    · rw [free]
      nofun
    · cases request <;> nofun
  | @move thread wakee input position now move asked here moves =>
    by_cases hcomes : (Phase.ofOutcome (M := monitor α) move.outcome).place? = some .await
    · obtain ⟨hrunning, hstopping⟩ := (leads_of_moves moves).stops hcomes
      have hnobody : ∀ {t}, l.place t ≠ some .await := by
        intro t hplace
        rcases h.told hplace with hold | hold <;> rw [hrunning] at hold <;> contradiction
      have honly : ∀ {t}, (l.after thread move).place t = some .await → t = thread := by
        intro t hplace
        rcases cases_of_update hplace with ⟨ht, _⟩ | ⟨_, hold⟩
        · exact ht
        · exact absurd hold hnobody
      refine ⟨fun hplace hplace' => (honly hplace).trans (honly hplace').symm,
        fun _ => .inl hstopping, fun _ => ⟨thread, ?_⟩⟩
      exact (Function.update_self _ _ _).trans hcomes
    · by_cases hwaits : position = .await
      · subst hwaits
        obtain ⟨hended, hstopped⟩ := ended_of_await moves
        have hnobody : ∀ {t}, (l.after thread move).place t ≠ some .await := by
          intro t hplace
          rcases cases_of_update hplace with ⟨_, hnew⟩ | ⟨ht, hold⟩
          · exact hcomes hnew
          · exact ht (h.alone hold here)
        refine ⟨fun hplace => absurd hplace hnobody, fun hplace => absurd hplace hnobody, ?_⟩
        intro hticker
        change move.state.ticker = .stopping ∨ move.state.ticker = .ended at hticker
        rw [hstopped] at hticker
        rcases hticker with hold | hold <;> contradiction
      · refine h.update ?_ hcomes ?_
        · rw [here]
          exact fun hplace => hwaits (Option.some.inj hplace)
        · rcases ticker_of_moves moves with hsame | ⟨rfl, hrunning, _⟩ | ⟨hplace, _⟩ |
            ⟨_, hstopping, hended, _⟩
          · exact .inl hsame
          · simp only [step, stepStop, hrunning, Option.some.injEq] at moves
            subst moves
            exact absurd rfl hcomes
          · exact absurd hplace hwaits
          · exact .inr ⟨hstopping, hended⟩

/-- Whatever threads do with a buffer, one shutdown at most waits for the periodic trigger. -/
theorem of_reachable {start : Layout (monitor α)} (h : start.Reachable allowed l)
    (hstart : Awaited start) : Awaited l :=
  h.invariant hstart fun hbefore hstep => hbefore.step hstep

end Awaited

end Backpressure.Buffer
