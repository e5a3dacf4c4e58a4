import Backpressure.Buffer.Monitor
import Backpressure.Proofs.View

/-!
# What one step does to a buffer

An item joins the pending ones, a batch is taken, handed to the sink, and its delivery recorded.
Every other step leaves the items and the batches alone, and its thread carries no batch.
-/

namespace Backpressure.Buffer

variable {α : Type}

/-- The item that a call wants to add. -/
def Request.offered? : Request α → Option α
  | .add item => some item
  | _ => none

/-- The item that a thread at this place has still to add. -/
def Position.offered? : Position α → Option α
  | .append item => some item
  | _ => none

/-- Does a thread at this place carry a batch that it has taken and not recorded? -/
def Position.carries : Position α → Bool
  | .call _ _ | .deliver _ _ | .record _ _ _ => true
  | _ => false

/-- What a call on a buffer is for. -/
inductive Purpose where
  /-- It adds an item. -/
  | add
  /-- It flushes. -/
  | flush
  /-- It shuts the buffer down. -/
  | shutdown
  /-- It is the periodic trigger. -/
  | tick
  /-- It looks at the buffer. -/
  | inspect
  deriving DecidableEq, Repr

/-- What a call asks for. -/
def Request.purpose : Request α → Purpose
  | .add _ => .add
  | .flush | .flushTimeout _ | .flushDeadline _ => .flush
  | .shutdown => .shutdown
  | .inspect => .inspect

/-- What a flush for an errand is for. -/
def Errand.purpose : Errand → Purpose
  | .flush _ => .flush
  | .add => .add
  | .shutdown => .shutdown
  | .tick => .tick

/-- What a thread at this place is there for. -/
def Position.purpose : Position α → Purpose
  | .append _ | .recheck => .add
  | .enter errand | .join errand _ | .call errand _ | .deliver errand _ | .record errand _ _ =>
    errand.purpose
  | .stop | .await => .shutdown
  | .launch | .select => .tick
  | .inspect => .inspect

/-- The item that a note says was added. -/
def Note.added? : Note α → Option α
  | .added item => some item
  | _ => none

/-- Does a note tell of neither items nor batches? -/
def Note.isAside : Note α → Bool
  | .started _ | .stopped => true
  | _ => false

/-- What a step at a place does to a buffer. -/
inductive Effect (b : Buffer α) (now : Instant) : Position α → Step α → Prop
  /-- An item is added. -/
  | add {item} : Effect b now (.append item) (stepAppend b item)
  /-- The pending items are taken as a batch. -/
  | take {errand} (resting : b.flushing = false) (some : b.pending ≠ []) :
      Effect b now (.enter errand)
        { state := b.take, outcome := .proceed (.call errand b.pending), signals := []
          notes := [.taken errand b.pending] }
  /-- The sink is called with the batch. -/
  | call {errand batch} : Effect b now (.call errand batch) (stepCall b errand batch)
  /-- The sink's call ends. -/
  | deliver {errand batch} (outcome : SinkOutcome) :
      Effect b now (.deliver errand batch) (stepDeliver b errand batch outcome)
  /-- The delivery is recorded. -/
  | record {errand size accepted} :
      Effect b now (.record errand size accepted) (stepRecord b errand size accepted)
  /-- Nothing that concerns the items happens. -/
  | aside {position : Position α} {step : Step α} (noOffer : position.offered? = none)
      (free : position.carries = false) (samePending : step.state.pending = b.pending)
      (sameFlushing : step.state.flushing = b.flushing) (sameRound : step.state.round = b.round)
      (sameTally : step.state.tally = b.tally) (sameLimit : step.state.limit = b.limit)
      (stays : ∀ place, (Phase.ofOutcome (M := monitor α) step.outcome).place? = some place →
        place.offered? = none ∧ place.carries = false ∧ place.purpose = position.purpose)
      (quiet : ∀ note ∈ step.notes, note.isAside = true) :
      Effect b now position step

variable {b : Buffer α} {now : Instant}

@[simp]
theorem offered?_start (request : Request α) (now : Instant) :
    (start request now).offered? = request.offered? := by
  cases request <;> rfl

@[simp]
theorem carries_start (request : Request α) (now : Instant) :
    (start request now).carries = false := by
  cases request <;> rfl

@[simp]
theorem purpose_start (request : Request α) (now : Instant) :
    (start request now).purpose = request.purpose := by
  cases request <;> rfl

/-- Only an add has an item to add. -/
theorem offered?_of_purpose {position : Position α} (h : position.purpose ≠ .add) :
    position.offered? = none := by
  cases position <;> first | rfl | exact absurd rfl h

/-- Who only looks at the buffer is at one place. -/
theorem eq_inspect_of_purpose {position : Position α} (h : position.purpose = .inspect) :
    position = .inspect := by
  cases position with
  | inspect => rfl
  | enter errand | join errand | call errand | deliver errand | record errand =>
    cases errand <;> contradiction
  | append | recheck | stop | await | launch | select => contradiction

/-- A thread whose flush is over carries nothing. -/
theorem stays_finish {errand : Errand} {flush : Flush} {place : Position α}
    (h : (Phase.ofOutcome (M := monitor α) (finish errand flush)).place? = some place) :
    place.offered? = none ∧ place.carries = false ∧ place.purpose = errand.purpose := by
  cases errand with
  | add =>
    simp only [finish] at h
    split at h
    · cases h
      exact ⟨rfl, rfl, rfl⟩
    · contradiction
  | tick =>
    cases h
    exact ⟨rfl, rfl, rfl⟩
  | flush | shutdown => contradiction

theorem effect_wait {position : Position α} {errand : Errand} {round : Nat}
    (hoffers : position.offered? = none) (hcarries : position.carries = false)
    (hpurpose : errand.purpose = position.purpose) :
    Effect b now position (wait b now errand round) := by
  unfold wait
  split
  · refine .aside hoffers hcarries rfl rfl rfl rfl rfl ?_ ?_
    · intro place hplace
      contradiction
    · intro note hnote
      contradiction
  · refine .aside hoffers hcarries rfl rfl rfl rfl rfl ?_ ?_
    · rintro place ⟨⟩
      exact ⟨rfl, rfl, hpurpose⟩
    · intro note hnote
      contradiction

theorem effect_stepEnter (errand : Errand) :
    Effect b now (.enter errand) (stepEnter b now errand) := by
  unfold stepEnter
  split
  · exact effect_wait rfl rfl rfl
  · rename_i hresting
    split
    · refine .aside rfl rfl rfl rfl rfl rfl rfl (fun _ => stays_finish) ?_
      intro note hnote
      contradiction
    · rename_i hpending
      refine .take (eq_false_of_ne_true hresting) ?_
      rintro hnil
      simp [hnil] at hpending

theorem effect_stepJoin (errand : Errand) (round : Nat) :
    Effect b now (.join errand round) (stepJoin b now errand round) := by
  unfold stepJoin
  split
  · exact effect_wait rfl rfl rfl
  · refine .aside rfl rfl rfl rfl rfl rfl rfl (fun _ => stays_finish) ?_
    intro note hnote
    contradiction

/-- A thread that goes on to a place where it neither adds an item nor carries a batch. -/
theorem effect_proceed {position place : Position α} {b' : Buffer α}
    (hoffers : position.offered? = none) (hcarries : position.carries = false)
    (hstate : ∃ ticker, b' = { b with ticker })
    (hplace : place.offered? = none ∧ place.carries = false ∧ place.purpose = position.purpose) :
    Effect b now position (.proceed b' place) := by
  obtain ⟨ticker, rfl⟩ := hstate
  refine .aside hoffers hcarries rfl rfl rfl rfl rfl ?_ ?_
  · rintro _ ⟨⟩
    exact hplace
  · intro note hnote
    contradiction

theorem effect_reply {position : Position α} {reply : Reply α}
    (hoffers : position.offered? = none) (hcarries : position.carries = false) :
    Effect b now position (.reply b reply) := by
  refine .aside hoffers hcarries rfl rfl rfl rfl rfl ?_ ?_
  · intro place hplace
    contradiction
  · intro note hnote
    contradiction

/-- Every move of a thread on a shared buffer has one of the effects. -/
theorem effect_of_moves {position : Position α} {input : Input} {move : Step α}
    (h : (monitor α).step b now position input = some move) : Effect b now position move := by
  cases position with
  | append item =>
    cases h
    exact .add
  | enter errand =>
    cases h
    exact effect_stepEnter errand
  | join errand round =>
    cases h
    exact effect_stepJoin errand round
  | call errand batch =>
    cases h
    exact .call
  | deliver errand batch =>
    cases input with
    | outcome outcome =>
      cases h
      exact .deliver outcome
    | _ => contradiction
  | record errand size accepted =>
    cases h
    exact .record
  | recheck =>
    cases h
    unfold stepRecheck
    split
    · exact effect_proceed rfl rfl ⟨_, rfl⟩ ⟨rfl, rfl, rfl⟩
    · exact effect_reply rfl rfl
  | stop =>
    simp only [step, stepStop] at h
    split at h
    · cases h
      exact effect_proceed rfl rfl ⟨_, rfl⟩ ⟨rfl, rfl, rfl⟩
    · cases h
      exact effect_proceed rfl rfl ⟨_, rfl⟩ ⟨rfl, rfl, rfl⟩
    all_goals contradiction
  | await =>
    simp only [step, stepAwait] at h
    split at h
    · cases h
      exact effect_proceed rfl rfl ⟨_, rfl⟩ ⟨rfl, rfl, rfl⟩
    · contradiction
  | launch =>
    cases h
    refine .aside rfl rfl rfl rfl rfl rfl rfl ?_ ?_
    · rintro _ ⟨⟩
      exact ⟨rfl, rfl, rfl⟩
    · intro note hnote
      rw [List.mem_singleton.1 hnote]
      rfl
  | select =>
    simp only [step, stepSelect] at h
    split at h
    · cases h
      exact effect_proceed rfl rfl ⟨_, rfl⟩ ⟨rfl, rfl, rfl⟩
    · split at h
      · cases h
        refine .aside rfl rfl rfl rfl rfl rfl rfl ?_ ?_
        · intro place hplace
          contradiction
        · intro note hnote
          rw [List.mem_singleton.1 hnote]
          rfl
      · contradiction
    · contradiction
  | inspect =>
    cases h
    exact effect_reply rfl rfl

/-- A step of a call adds the item that the call has still to add, and none is left to add. -/
theorem Effect.adds {position : Position α} {move : Step α}
    (h : Effect b now position move) :
    move.notes.filterMap Note.added? = position.offered?.toList ∧
      ∀ place, (Phase.ofOutcome (M := monitor α) move.outcome).place? = some place →
        place.offered? = none := by
  cases h with
  | @add item =>
    refine ⟨rfl, ?_⟩
    intro place hplace
    simp only [stepAppend] at hplace
    split at hplace
    · cases hplace
      rfl
    · contradiction
  | take | call | deliver =>
    refine ⟨rfl, ?_⟩
    rintro place ⟨⟩
    rfl
  | record => exact ⟨rfl, fun place hplace => (stays_finish hplace).1⟩
  | aside noOffer free samePending sameFlushing sameRound sameTally sameLimit stays quiet =>
    refine ⟨?_, fun place hplace => (stays place hplace).1⟩
    rw [noOffer, Option.toList_none, List.filterMap_eq_nil_iff]
    intro note hnote
    have haside := quiet note hnote
    cases note <;> trivial

/-- A thread goes on with what it is there for. -/
theorem Effect.purpose {position place : Position α} {move : Step α}
    (h : Effect b now position move)
    (hplace : (Phase.ofOutcome (M := monitor α) move.outcome).place? = some place) :
    place.purpose = position.purpose := by
  cases h with
  | @add item =>
    simp only [stepAppend] at hplace
    split at hplace
    · cases hplace
      rfl
    · contradiction
  | take | call | deliver =>
    cases hplace
    rfl
  | record => exact (stays_finish hplace).2.2
  | aside noOffer free samePending sameFlushing sameRound sameTally sameLimit stays quiet =>
    exact (stays place hplace).2.2

end Backpressure.Buffer
