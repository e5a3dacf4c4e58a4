import Backpressure.Proofs.Buffer.Effect

/-!
# Batches between the buffer and its sink

A batch is outstanding from the moment a thread takes it until that thread records its delivery.
One batch at most is outstanding at any time, because the buffer counts as flushing all the while,
so the batches reach the sink in the order in which they were taken, each of them once.
-/

namespace Backpressure.Buffer

variable {α : Type}

/-- A recorded delivery: who made it, of which batch, and whether the sink accepted it. -/
structure Delivery (α : Type) where
  /-- The thread that took the batch. -/
  thread : Nat
  /-- The batch. -/
  batch : List α
  /-- Did the sink accept it? -/
  accepted : Bool
  deriving DecidableEq, Repr

/-- The batch of a delivery, with the thread that took it. -/
def Delivery.load (delivery : Delivery α) : Nat × List α := (delivery.thread, delivery.batch)

/-- The item that a note says was added. -/
def added? (noted : Nat × Note α) : Option α := noted.2.added?

/-- The batch that a note says was taken, with the thread that took it. -/
def taken? : Nat × Note α → Option (Nat × List α)
  | (thread, .taken _ batch) => some (thread, batch)
  | _ => none

/-- The batch that a note says the sink was called with, with the thread that called it. -/
def called? : Nat × Note α → Option (Nat × List α)
  | (thread, .called _ batch) => some (thread, batch)
  | _ => none

/-- The delivery that a note says the sink has returned from. -/
def returned? : Nat × Note α → Option (Delivery α)
  | (thread, .returned batch outcome) => some ⟨thread, batch, outcome.isAccepted⟩
  | _ => none

/-- The batches that have been taken and whose delivery has not been recorded, in the order in which
they were taken, each with the thread that took it. The notes come latest first. -/
def outstanding : List (Nat × Note α) → List (Nat × List α)
  | [] => []
  | (thread, .taken _ batch) :: earlier => outstanding earlier ++ [(thread, batch)]
  | (thread, .recorded _ _) :: earlier => (outstanding earlier).filter (·.1 ≠ thread)
  | _ :: earlier => outstanding earlier

/-- The deliveries that have been recorded, in the order in which they were. A record is about what
its thread had taken. The notes come latest first. -/
def completed : List (Nat × Note α) → List (Delivery α)
  | [] => []
  | (thread, .recorded _ accepted) :: earlier =>
    completed earlier ++
      ((outstanding earlier).filter (·.1 = thread)).map fun load => ⟨thread, load.2, accepted⟩
  | _ :: earlier => completed earlier

/-- How far the delivery of an outstanding batch has come when its thread is at this place. -/
def Underway (notes : List (Nat × Note α)) (thread : Nat) (batch : List α) : Position α → Prop
  | .call _ carried =>
    carried = batch ∧ told called? notes = (completed notes).map Delivery.load ∧
      told returned? notes = completed notes
  | .deliver _ carried =>
    carried = batch ∧ told called? notes =
        (completed notes).map Delivery.load ++ [(thread, batch)] ∧
      told returned? notes = completed notes
  | .record _ size accepted =>
    size = batch.length ∧ told called? notes =
        (completed notes).map Delivery.load ++ [(thread, batch)] ∧
      told returned? notes = completed notes ++ [⟨thread, batch, accepted⟩]
  | _ => False

/-- A buffer is at rest, or one thread alone carries the one outstanding batch. -/
inductive Flight (l : Layout (monitor α)) : Prop
  | resting (resting : l.state.flushing = false)
      (nobody : ∀ thread position, l.place thread = some position → position.carries = false)
      (settled : outstanding l.notes = [])
      (called : told called? l.notes = (completed l.notes).map Delivery.load)
      (returned : told returned? l.notes = completed l.notes)
  | busy {thread : Nat} {position : Position α} {batch : List α}
      (flushing : l.state.flushing = true)
      (here : l.place thread = some position)
      (alone : ∀ t p, l.place t = some p → p.carries = true → t = thread)
      (carried : outstanding l.notes = [(thread, batch)])
      (underway : Underway l.notes thread batch position)

/-- All that was added is accounted for. -/
structure Ledger (l : Layout (monitor α)) : Prop where
  /-- What was added was taken, in order, or is pending. -/
  items : ((told taken? l.notes).map (·.2)).flatten ++ l.state.pending = told added? l.notes
  /-- What was taken was delivered, in order, or is outstanding. -/
  batches : told taken? l.notes = (completed l.notes).map Delivery.load ++ outstanding l.notes
  /-- No batch is empty. -/
  nonempty : ∀ load ∈ told taken? l.notes, load.2 ≠ []
  /-- Nothing is outstanding, or one batch. -/
  flight : Flight l

/-! ### Notes that tell of no batch -/

section Aside

variable {new notes : List (Nat × Note α)}

theorem outstanding_append (h : ∀ noted ∈ new, noted.2.isAside = true) :
    outstanding (new ++ notes) = outstanding notes := by
  induction new with
  | nil => rfl
  | cons noted rest ih =>
    rw [List.forall_mem_cons] at h
    obtain ⟨thread, note⟩ := noted
    cases note with
    | started | stopped => exact ih h.2
    | _ => exact absurd h.1 (by simp [Note.isAside])

theorem completed_append (h : ∀ noted ∈ new, noted.2.isAside = true) :
    completed (new ++ notes) = completed notes := by
  induction new with
  | nil => rfl
  | cons noted rest ih =>
    rw [List.forall_mem_cons] at h
    obtain ⟨thread, note⟩ := noted
    cases note with
    | started | stopped => exact ih h.2
    | _ => exact absurd h.1 (by simp [Note.isAside])

theorem told_append {β : Type} {tell : Nat × Note α → Option β}
    (htell : ∀ noted, noted.2.isAside = true → tell noted = none)
    (h : ∀ noted ∈ new, noted.2.isAside = true) :
    told tell (new ++ notes) = told tell notes := by
  have hnone : new.filterMap tell = [] := by
    rw [List.filterMap_eq_nil_iff]
    intro noted hmem
    exact htell noted (h noted hmem)
  rw [told, List.filterMap_append, hnone]
  rfl

theorem isAside_of_mem_record {thread : Nat} {step : Step α}
    (h : ∀ note ∈ step.notes, note.isAside = true) :
    ∀ noted ∈ step.record thread, noted.2.isAside = true := by
  intro noted hmem
  rw [Move.record, List.mem_reverse, List.mem_map] at hmem
  obtain ⟨note, hnote, rfl⟩ := hmem
  exact h note hnote

end Aside

/-- Two lists of notes that tell the same of the batches. -/
structure SameBatches (notes notes' : List (Nat × Note α)) : Prop where
  taken : told taken? notes' = told taken? notes
  called : told called? notes' = told called? notes
  returned : told returned? notes' = told returned? notes
  outstanding : outstanding notes' = Buffer.outstanding notes
  completed : completed notes' = Buffer.completed notes

theorem sameBatches_added (thread : Nat) (item : α) (notes : List (Nat × Note α)) :
    SameBatches notes ((thread, .added item) :: notes) where
  taken := by simp [taken?]
  called := by simp [called?]
  returned := by simp [returned?]
  outstanding := rfl
  completed := rfl

theorem sameBatches_aside {new notes : List (Nat × Note α)}
    (h : ∀ noted ∈ new, noted.2.isAside = true) : SameBatches notes (new ++ notes) where
  taken := told_append (by rintro ⟨thread, note⟩ hnote; cases note <;> trivial) h
  called := told_append (by rintro ⟨thread, note⟩ hnote; cases note <;> trivial) h
  returned := told_append (by rintro ⟨thread, note⟩ hnote; cases note <;> trivial) h
  outstanding := outstanding_append h
  completed := completed_append h

theorem Underway.of_same {notes notes' : List (Nat × Note α)} {thread : Nat} {batch : List α}
    {position : Position α} (h : Underway notes thread batch position)
    (hsame : SameBatches notes notes') : Underway notes' thread batch position := by
  cases position with
  | call | deliver | record =>
    simpa only [Underway, hsame.called, hsame.returned, hsame.completed] using h
  | _ => exact h

/-- A thread with an outstanding batch carries it. -/
theorem Underway.carries {notes : List (Nat × Note α)} {thread : Nat} {batch : List α}
    {position : Position α} (h : Underway notes thread batch position) :
    position.carries = true := by
  cases position <;> first | rfl | exact absurd h id

/-! ### Steps -/

namespace Flight

variable {l : Layout (monitor α)} {thread : Nat} {state : Buffer α}
  {notes : List (Nat × Note α)}

/-- What a thread without a batch does to none leaves the flight as it was. -/
theorem of_same (h : Flight l) {place? : Option (Position α)}
    (hflushing : state.flushing = l.state.flushing)
    (hbefore : ∀ position, l.place thread = some position → position.carries = false)
    (hafter : ∀ position, place? = some position → position.carries = false)
    (hsame : SameBatches l.notes notes) :
    Flight ⟨state, Function.update l.place thread place?, notes⟩ := by
  cases h with
  | resting resting nobody settled called returned =>
    refine .resting (hflushing.trans resting) ?_ (hsame.outstanding.trans settled) ?_ ?_
    · intro t position hplace
      rcases cases_of_update hplace with ⟨_, hnew⟩ | ⟨_, hold⟩
      · exact hafter position hnew
      · exact nobody t position hold
    · rw [hsame.called, hsame.completed, called]
    · rw [hsame.returned, hsame.completed, returned]
  | @busy carrier position batch flushing here alone carried underway =>
    have hne : carrier ≠ thread := by
      rintro rfl
      have hfree := hbefore position here
      rw [underway.carries] at hfree
      contradiction
    refine .busy (hflushing.trans flushing) ?_ ?_ (hsame.outstanding.trans carried)
      (underway.of_same hsame)
    · exact (Function.update_of_ne hne _ _).trans here
    · intro t p hplace hcarries
      rcases cases_of_update hplace with ⟨_, hnew⟩ | ⟨_, hold⟩
      · rw [hafter p hnew] at hcarries
        contradiction
      · exact alone t p hold hcarries

/-- The one outstanding batch is that of a thread that carries one. -/
theorem of_carries (h : Flight l) {position : Position α} (here : l.place thread = some position)
    (hcarries : position.carries = true) :
    ∃ batch, l.state.flushing = true ∧ outstanding l.notes = [(thread, batch)] ∧
      Underway l.notes thread batch position ∧
      ∀ t p, l.place t = some p → p.carries = true → t = thread := by
  cases h with
  | resting resting nobody settled called returned =>
    rw [nobody thread position here] at hcarries
    contradiction
  | @busy carrier p batch flushing there alone carried underway =>
    obtain rfl := alone thread position here hcarries
    rw [there] at here
    cases here
    exact ⟨batch, flushing, carried, underway, alone⟩

/-- A thread that carries the one batch and goes on with it. -/
theorem of_progress {position' : Position α} {batch : List α}
    (hflushing : state.flushing = true)
    (alone : ∀ t p, l.place t = some p → p.carries = true → t = thread)
    (hcarried : outstanding notes = [(thread, batch)])
    (hunderway : Underway notes thread batch position') :
    Flight ⟨state, Function.update l.place thread (some position'), notes⟩ := by
  refine .busy hflushing (Function.update_self _ _ _) ?_ hcarried hunderway
  intro t p hplace hcarries
  rcases cases_of_update hplace with ⟨ht, _⟩ | ⟨_, hold⟩
  · exact ht
  · exact alone t p hold hcarries

end Flight

namespace Ledger

variable {l l' : Layout (monitor α)} {allowed : Event (monitor α) → Prop}

theorem add {thread : Nat} {item : α} {place? : Option (Position α)} (h : Ledger l)
    (here : l.place thread = some (.append item))
    (hafter : ∀ position, place? = some position → position.carries = false) :
    Ledger ⟨l.state.append item, Function.update l.place thread place?,
      (thread, .added item) :: l.notes⟩ := by
  have hsame := sameBatches_added thread item l.notes
  refine ⟨?_, ?_, ?_, ?_⟩
  · have hadded : told added? ((thread, Note.added item) :: l.notes) =
        told added? l.notes ++ [item] := told_cons _ _ _
    rw [hsame.taken, hadded, ← h.items]
    exact (List.append_assoc _ _ _).symm
  · rw [hsame.taken, hsame.completed, hsame.outstanding, h.batches]
  · rw [hsame.taken]
    exact h.nonempty
  · refine h.flight.of_same rfl ?_ hafter hsame
    intro position hplace
    rw [here] at hplace
    cases hplace
    rfl

theorem take {thread : Nat} {errand : Errand} (h : Ledger l)
    (resting : l.state.flushing = false) (some : l.state.pending ≠ []) :
    Ledger ⟨l.state.take, Function.update l.place thread (.some (.call errand l.state.pending)),
      (thread, .taken errand l.state.pending) :: l.notes⟩ := by
  cases h.flight with
  | busy flushing =>
    rw [resting] at flushing
    contradiction
  | resting _ nobody settled called returned =>
    refine ⟨?_, ?_, ?_, ?_⟩
    · rw [told_cons, told_cons, List.map_append, List.flatten_append, ← h.items]
      simp [Buffer.take, taken?, added?, Note.added?]
    · rw [told_cons, h.batches, List.append_assoc]
      rfl
    · rw [told_cons]
      intro load hmem
      rcases List.mem_append.1 hmem with hold | hnew
      · exact h.nonempty load hold
      · rw [taken?, Option.toList_some, List.mem_singleton] at hnew
        rw [hnew]
        exact some
    · refine .of_progress rfl ?_ (by rw [outstanding, settled]; rfl) ⟨rfl, ?_, ?_⟩
      · intro t p hplace hcarries
        rw [nobody t p hplace] at hcarries
        contradiction
      · rw [told_cons, called]
        exact List.append_nil _
      · rw [told_cons, returned]
        exact List.append_nil _

theorem call {thread : Nat} {errand : Errand} {batch : List α} (h : Ledger l)
    (here : l.place thread = some (.call errand batch)) :
    Ledger ⟨l.state, Function.update l.place thread (some (.deliver errand batch)),
      (thread, .called errand batch) :: l.notes⟩ := by
  obtain ⟨_, flushing, carried, ⟨rfl, called, returned⟩, alone⟩ := h.flight.of_carries here rfl
  have htaken : told taken? ((thread, Note.called errand batch) :: l.notes) =
      told taken? l.notes := by
    rw [told_cons]
    exact List.append_nil _
  refine ⟨?_, ?_, ?_, ?_⟩
  · rw [htaken, h.items, told_cons]
    exact (List.append_nil _).symm
  · rw [htaken, h.batches]
    rfl
  · rw [htaken]
    exact h.nonempty
  · refine .of_progress flushing alone carried ⟨rfl, ?_, ?_⟩
    · rw [told_cons, called]
      rfl
    · rw [told_cons, returned]
      exact List.append_nil _

theorem deliver {thread : Nat} {errand : Errand} {batch : List α} {outcome : SinkOutcome}
    (h : Ledger l) (here : l.place thread = some (.deliver errand batch)) :
    Ledger ⟨l.state,
      Function.update l.place thread (some (.record errand batch.length outcome.isAccepted)),
      (thread, .returned batch outcome) :: l.notes⟩ := by
  obtain ⟨_, flushing, carried, ⟨rfl, called, returned⟩, alone⟩ := h.flight.of_carries here rfl
  have htaken : told taken? ((thread, Note.returned batch outcome) :: l.notes) =
      told taken? l.notes := by
    rw [told_cons]
    exact List.append_nil _
  refine ⟨?_, ?_, ?_, ?_⟩
  · rw [htaken, h.items, told_cons]
    exact (List.append_nil _).symm
  · rw [htaken, h.batches]
    rfl
  · rw [htaken]
    exact h.nonempty
  · refine .of_progress flushing alone carried ⟨rfl, ?_, ?_⟩
    · rw [told_cons, called]
      exact List.append_nil _
    · rw [told_cons, returned]
      rfl

theorem record {thread size : Nat} {errand : Errand} {accepted : Bool}
    {place? : Option (Position α)} (h : Ledger l)
    (here : l.place thread = some (.record errand size accepted))
    (hafter : ∀ position, place? = some position → position.carries = false) :
    Ledger ⟨l.state.complete size accepted, Function.update l.place thread place?,
      (thread, .recorded size accepted) :: l.notes⟩ := by
  obtain ⟨batch, flushing, carried, ⟨rfl, called, returned⟩, alone⟩ :=
    h.flight.of_carries here rfl
  have htaken : told taken? ((thread, Note.recorded batch.length accepted) :: l.notes) =
      told taken? l.notes := by
    rw [told_cons]
    exact List.append_nil _
  have hcompleted : completed ((thread, Note.recorded batch.length accepted) :: l.notes) =
      completed l.notes ++ [⟨thread, batch, accepted⟩] := by
    simp [completed, carried]
  have hsettled : outstanding ((thread, Note.recorded batch.length accepted) :: l.notes) = [] := by
    simp [outstanding, carried]
  refine ⟨?_, ?_, ?_, ?_⟩
  · rw [htaken, told_cons]
    exact h.items.trans (List.append_nil _).symm
  · rw [htaken, hcompleted, hsettled, h.batches, carried, List.map_append, List.append_nil]
    rfl
  · rw [htaken]
    exact h.nonempty
  · refine .resting rfl ?_ hsettled ?_ ?_
    · intro t p hplace
      rcases cases_of_update hplace with ⟨_, hnew⟩ | ⟨ht, hold⟩
      · exact hafter p hnew
      · exact eq_false_of_ne_true fun hcarries => ht (alone t p hold hcarries)
    · rw [told_cons, hcompleted, called, List.map_append]
      exact List.append_nil _
    · rw [told_cons, hcompleted, returned]
      exact List.append_nil _

theorem aside {thread : Nat} {position : Position α} {state : Buffer α}
    {place? : Option (Position α)} {new : List (Nat × Note α)} (h : Ledger l)
    (here : l.place thread = some position) (hfree : position.carries = false)
    (hpending : state.pending = l.state.pending) (hflushing : state.flushing = l.state.flushing)
    (hafter : ∀ position, place? = some position → position.carries = false)
    (hquiet : ∀ noted ∈ new, noted.2.isAside = true) :
    Ledger ⟨state, Function.update l.place thread place?, new ++ l.notes⟩ := by
  have hsame : SameBatches l.notes (new ++ l.notes) := sameBatches_aside hquiet
  have hadded : told added? (new ++ l.notes) = told added? l.notes :=
    told_append (by rintro ⟨thread, note⟩ hnote; cases note <;> trivial) hquiet
  refine ⟨?_, ?_, ?_, ?_⟩
  · rw [hsame.taken, hadded, hpending]
    exact h.items
  · rw [hsame.taken, hsame.completed, hsame.outstanding, h.batches]
  · rw [hsame.taken]
    exact h.nonempty
  · refine h.flight.of_same hflushing ?_ hafter hsame
    intro p hplace
    rw [here] at hplace
    cases hplace
    exact hfree

/-- Every step keeps the ledger. -/
theorem step (h : Ledger l) (hstep : l.Step allowed l') : Ledger l' := by
  cases hstep with
  | @call thread request now asked free =>
    have hflight : Flight ⟨l.state, Function.update l.place thread (some (start request now)),
        l.notes⟩ := by
      refine h.flight.of_same rfl ?_ ?_ ⟨rfl, rfl, rfl, rfl, rfl⟩
      · intro position hplace
        rw [free] at hplace
        contradiction
      · rintro _ ⟨⟩
        exact carries_start request now
    exact ⟨h.items, h.batches, h.nonempty, hflight⟩
  | @move thread wakee input position now move asked here moves =>
    cases effect_of_moves moves with
    | @add item =>
      refine h.add here ?_
      intro position hplace
      simp only [stepAppend] at hplace
      split at hplace
      · cases hplace
        rfl
      · contradiction
    | @take errand resting some => exact h.take resting some
    | @call errand batch => exact h.call here
    | @deliver errand batch outcome => exact h.deliver here
    | @record errand size accepted =>
      exact h.record here fun position hplace => (stays_finish hplace).2.1
    | aside noOffer free samePending sameFlushing sameRound sameTally sameLimit stays quiet =>
      refine h.aside here free samePending sameFlushing ?_ (isAside_of_mem_record quiet)
      exact fun place hplace => (stays place hplace).2.1

/-- A buffer without items, and without threads that carry batches, has its ledger in order, and
every use of it keeps it so. -/
theorem of_reachable {start : Layout (monitor α)} (h : start.Reachable allowed l)
    (hpending : start.state.pending = []) (hresting : start.state.flushing = false)
    (hnobody : ∀ thread position, start.place thread = some position →
      position.carries = false) (hnotes : start.notes = []) : Ledger l := by
  refine h.invariant ⟨?_, ?_, ?_, ?_⟩ fun hledger hstep => hledger.step hstep
  · rw [hnotes, hpending]
    rfl
  · rw [hnotes]
    rfl
  · rw [hnotes]
    intro load hmem
    contradiction
  · refine .resting hresting hnobody ?_ ?_ ?_ <;> rw [hnotes] <;> rfl

end Ledger

end Backpressure.Buffer
