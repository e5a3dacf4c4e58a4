import Backpressure.Proofs.Buffer.Effect

/-!
# Shutting a buffer down

A shutdown ends the periodic trigger and flushes. Where no other thread flushes or adds items, it
finds no delivery under way, delivers what is pending itself, and leaves nothing behind.
-/

namespace Backpressure.Buffer

variable {α : Type} {b : Buffer α} {now : Instant} {position : Position α} {input : Input}
  {move : Step α}

/-- The periodic trigger changes only as it is told to stop, as it ends, and as its end is
noticed. -/
theorem ticker_of_moves (h : (monitor α).step b now position input = some move) :
    move.state.ticker = b.ticker ∨
      (position = .stop ∧ b.ticker = .running ∧ move.state.ticker = .stopping) ∨
      (position = .await ∧ b.ticker = .ended ∧ move.state.ticker = .stopped) ∨
      (position = .select ∧ b.ticker = .stopping ∧ move.state.ticker = .ended ∧
        move.outcome = .exit) := by
  cases position with
  | stop =>
    simp only [step, stepStop] at h
    split at h
    · rename_i hrunning
      cases h
      exact .inr (.inl ⟨rfl, hrunning, rfl⟩)
    · cases h
      exact .inl rfl
    all_goals contradiction
  | await =>
    simp only [step, stepAwait] at h
    split at h
    · rename_i hended
      cases h
      exact .inr (.inr (.inl ⟨rfl, hended, rfl⟩))
    · contradiction
  | select =>
    simp only [step, stepSelect] at h
    split at h
    · cases h
      exact .inl rfl
    · split at h
      · rename_i hstopping
        cases h
        exact .inr (.inr (.inr ⟨rfl, hstopping, rfl, rfl⟩))
      · contradiction
    · contradiction
  | deliver errand batch =>
    cases input <;> cases h
    exact .inl rfl
  | enter errand =>
    cases h
    simp only [stepEnter, wait]
    left
    split
    · split <;> rfl
    · split <;> rfl
  | join errand round =>
    cases h
    simp only [stepJoin, wait]
    left
    split
    · split <;> rfl
    · rfl
  | recheck =>
    cases h
    simp only [stepRecheck]
    left
    split <;> rfl
  | append | call | record | launch | inspect =>
    cases h
    exact .inl rfl

/-- A buffer with nothing left to be done: its periodic trigger is over, no item is pending, and no
batch is on its way. -/
structure Settled (b : Buffer α) : Prop where
  ticker : b.ticker = .stopped
  pending : b.pending = []
  flushing : b.flushing = false

/-- How things stand for a thread at this place of a shutdown that nobody disturbs. -/
def Undisturbed (b : Buffer α) : Position α → Prop
  | .enter _ => b.ticker = .stopped
  | .call _ _ | .deliver _ _ | .record _ _ _ => b.ticker = .stopped ∧ b.pending = []
  | .join _ _ => False
  | _ => True

/-- A flush for a shutdown returns what it has come to. -/
theorem finish_of_purpose {errand : Errand} (h : errand.purpose = .shutdown) (flush : Flush) :
    finish (α := α) errand flush = .reply (.flushed (.ok flush)) := by
  cases errand <;> first | rfl | contradiction

/-- A shutdown that nobody disturbs goes on undisturbed, and returns what its own flush came to once
nothing is left to be done. -/
theorem undisturbed_of_moves (h : Undisturbed b position) (hpurpose : position.purpose = .shutdown)
    (hresting : ∀ errand, position = .enter errand → b.flushing = false)
    (moves : (monitor α).step b now position input = some move) :
    (∀ place, (Phase.ofOutcome (M := monitor α) move.outcome).place? = some place →
      Undisturbed move.state place) ∧
    ∀ reply, move.outcome = .reply reply →
      Settled move.state ∧ ∃ flush, reply = .flushed (.ok flush) ∧ flush ≠ .joined := by
  cases position with
  | stop =>
    simp only [step, stepStop] at moves
    split at moves
    · cases moves
      constructor
      · rintro _ ⟨⟩
        trivial
      · rintro _ ⟨⟩
    · rename_i hstopped
      cases moves
      constructor
      · rintro _ ⟨⟩
        exact hstopped
      · rintro _ ⟨⟩
    all_goals contradiction
  | await =>
    simp only [step, stepAwait] at moves
    split at moves
    · cases moves
      constructor
      · rintro _ ⟨⟩
        rfl
      · rintro _ ⟨⟩
    · contradiction
  | enter errand =>
    cases moves
    have hrests := hresting errand rfl
    simp only [stepEnter, hrests, Bool.false_eq_true, if_false]
    split
    · rename_i hpending
      rw [finish_of_purpose hpurpose]
      constructor
      · rintro _ ⟨⟩
      · rintro _ ⟨⟩
        exact ⟨⟨h, List.isEmpty_iff.1 hpending, hrests⟩, .empty, rfl, by decide⟩
    · constructor
      · rintro _ ⟨⟩
        exact ⟨h, rfl⟩
      · rintro _ ⟨⟩
  | call errand batch =>
    cases moves
    constructor
    · rintro _ ⟨⟩
      exact h
    · rintro _ ⟨⟩
  | deliver errand batch =>
    cases input <;> cases moves
    constructor
    · rintro _ ⟨⟩
      exact h
    · rintro _ ⟨⟩
  | record errand size accepted =>
    cases moves
    simp only [stepRecord]
    rw [finish_of_purpose hpurpose]
    constructor
    · rintro _ ⟨⟩
    · rintro _ ⟨⟩
      refine ⟨⟨h.1, h.2, rfl⟩, _, rfl, ?_⟩
      cases accepted <;> rintro ⟨⟩
  | join errand round => exact absurd h id
  | append | recheck | launch | select | inspect => contradiction

/-- A shutdown that nobody disturbs comes to what became of its batch, or finds none. -/
theorem flushed_of_undisturbed (h : Undisturbed b position)
    (hpurpose : position.purpose = .shutdown)
    (hresting : ∀ errand, position = .enter errand → b.flushing = false)
    (moves : (monitor α).step b now position input = some move) {reply : Reply α}
    (hreply : move.outcome = .reply reply) :
    (∃ errand size accepted, position = .record errand size accepted ∧
        reply = .flushed (.ok (.ofDelivery size accepted))) ∨
      position.carries = false ∧ reply = .flushed (.ok .empty) := by
  cases position with
  | stop =>
    simp only [step, stepStop] at moves
    split at moves <;> cases moves <;> cases hreply
  | await =>
    simp only [step, stepAwait] at moves
    split at moves <;> cases moves
    cases hreply
  | enter errand =>
    cases moves
    simp only [stepEnter, hresting errand rfl, Bool.false_eq_true, if_false] at hreply
    split at hreply
    · rw [finish_of_purpose hpurpose] at hreply
      cases hreply
      exact .inr ⟨rfl, rfl⟩
    · cases hreply
  | call errand batch =>
    cases moves
    cases hreply
  | deliver errand batch =>
    cases input <;> cases moves
    cases hreply
  | record errand size accepted =>
    cases moves
    simp only [stepRecord] at hreply
    rw [finish_of_purpose hpurpose] at hreply
    cases hreply
    exact .inl ⟨errand, size, accepted, rfl, rfl⟩
  | join errand round => exact absurd h id
  | append | recheck | launch | select | inspect => contradiction

/-- A shutdown that finds nothing left to be done does nothing, and says so. -/
theorem settled_of_moves (h : Settled b) (hpurpose : position.purpose = .shutdown)
    (hcarries : position.carries = false) (hundisturbed : Undisturbed b position)
    (moves : (monitor α).step b now position input = some move) :
    move.state = b ∧ ∀ reply, move.outcome = .reply reply → reply = .flushed (.ok .empty) := by
  cases position with
  | stop =>
    simp only [step, stepStop, h.ticker] at moves
    cases moves
    refine ⟨rfl, ?_⟩
    rintro _ ⟨⟩
  | await =>
    simp only [step, stepAwait, h.ticker] at moves
    contradiction
  | enter errand =>
    cases moves
    simp only [stepEnter, h.flushing, h.pending]
    rw [finish_of_purpose hpurpose]
    refine ⟨rfl, ?_⟩
    rintro _ ⟨⟩
    rfl
  | call | deliver | record => contradiction
  | join errand round => exact absurd hundisturbed id
  | append | recheck | launch | select | inspect => contradiction

end Backpressure.Buffer
