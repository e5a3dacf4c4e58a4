import Backpressure.Proofs.Channel.Effect
import Backpressure.Proofs.History

/-!
# Every item is handed over once

A channel is a queue under the lock: what pushes have added is what polls have taken, followed by
what is queued, and the queue never outgrows the capacity. A push that returns has added its item,
once, or hands it back and has not added it.
-/

namespace Backpressure.Channel

variable {α : Type}

/-- A channel that threads share, before any thread uses it. -/
def system (c : Channel α) (now : Instant) : System (monitor α) := .initial c now []

/-- The item that a note says was added, with the thread that added it. -/
def addedBy? (noted : Nat × Note α) : Option (Nat × α) :=
  noted.2.accepted?.map (noted.1, ·)

/-- The item that a note says was taken. -/
def taken? (noted : Nat × Note α) : Option α := noted.2.removed?

theorem filterMap_addedBy? (thread : Nat) (notes : List (Note α)) :
    notes.filterMap (fun note => addedBy? (thread, note)) =
      (notes.filterMap Note.accepted?).map (thread, ·) := by
  rw [List.map_filterMap]
  rfl

/-! ### The queue -/

/-- What has been added is what has been taken and what is queued, within the capacity. -/
structure Conserved (capacity : Nat) (l : Layout (monitor α)) : Prop where
  /-- No item is lost, doubled or overtaken. -/
  conserved : (told addedBy? l.notes).map (·.2) = told taken? l.notes ++ l.state.queue
  /-- The queue keeps to the capacity. -/
  bounded : l.state.queue.length ≤ l.state.capacity
  /-- The capacity stays what it was. -/
  capacity : l.state.capacity = capacity

namespace Conserved

variable {capacity : Nat} {l : Layout (monitor α)} {thread : Nat}

/-- A move that neither adds nor takes an item changes nothing here. -/
theorem of_quiet {place : Nat → Option (Position α)} {move : Step α} (h : Conserved capacity l)
    (hqueue : move.state.queue = l.state.queue) (hcapacity : move.state.capacity = l.state.capacity)
    (hadded : move.notes.filterMap Note.accepted? = [])
    (htaken : move.notes.filterMap Note.removed? = []) :
    Conserved capacity ⟨move.state, place, move.record thread ++ l.notes⟩ where
  conserved := by
    have hnone : move.notes.filterMap (fun note => taken? (thread, note)) = [] := htaken
    rw [told_record, told_record, filterMap_addedBy?, hadded, hnone, hqueue]
    simpa using h.conserved
  bounded := by
    rw [hqueue, hcapacity]
    exact h.bounded
  capacity := hcapacity.trans h.capacity

/-- A step keeps the queue in order. -/
theorem step {allowed : Event (monitor α) → Prop} {l' : Layout (monitor α)}
    (h : Conserved capacity l) (hstep : l.Step allowed l') : Conserved capacity l' := by
  cases hstep with
  | call asked free => exact ⟨h.conserved, h.bounded, h.capacity⟩
  | @move thread wakee input position now move asked here moves =>
    cases effect_of_moves moves with
    | @add position item reply offers isOpen room isPushed =>
      refine ⟨?_, ?_, h.capacity⟩
      · rw [told_record, told_record, filterMap_addedBy?]
        simp [pushed, Note.accepted?, taken?, Note.removed?, h.conserved]
      · simpa [pushed] using Nat.succ_le_of_lt room
    | @take position item rest reply polls front got =>
      refine ⟨?_, ?_, h.capacity⟩
      · rw [told_record, told_record, filterMap_addedBy?]
        simp [polled, Note.accepted?, taken?, Note.removed?, h.conserved, front]
      · have hbounded := h.bounded
        rw [front, List.length_cons] at hbounded
        exact Nat.le_of_succ_le hbounded
    | refuse offers noRoom handed => exact h.of_quiet rfl rfl rfl rfl
    | lack polls nothing notPushed noItem => exact h.of_quiet rfl rfl rfl rfl
    | awaitRoom isOpen full early => exact h.of_quiet rfl rfl rfl rfl
    | awaitItem isOpen nothing early => exact h.of_quiet rfl rfl rfl rfl
    | close isOpen => exact h.of_quiet rfl rfl rfl rfl
    | aside noOffer noPoll sameQueue sameClosed sameCapacity notPushed noItem noneAdded
        noneTaken =>
      exact h.of_quiet sameQueue sameCapacity noneAdded noneTaken

/-- A channel without items is in order, and every use of it keeps it so. -/
theorem of_reachable {allowed : Event (monitor α) → Prop} {start : Layout (monitor α)}
    (hreachable : start.Reachable allowed l) (hqueue : start.state.queue = [])
    (hnotes : start.notes = []) : Conserved start.state.capacity l := by
  refine hreachable.invariant ⟨?_, ?_, rfl⟩ fun h hstep => h.step hstep
  · rw [hqueue, hnotes]
    rfl
  · simp [hqueue]

end Conserved

/-! ### Calls -/

/-- The item that a call added, if it is a push that succeeded, with the thread that made it. -/
def pushOf? (returned : Call (monitor α) × Reply α) : Option (Nat × α) :=
  if returned.2.isPushed then returned.1.request.offered?.map (returned.1.thread, ·) else none

/-- The items that pushes have added, in the order in which they were added, each with the thread
that added it. -/
def pushes (s : System (monitor α)) : List (Nat × α) := s.returns.filterMap pushOf?

/-- The items that polls have taken, in the order in which they were taken. -/
def polls (s : System (monitor α)) : List α := s.returns.filterMap (·.2.item?)

/-- What becomes of a call on a channel: a push has added its item, once, and succeeds, or it has
not added it and hands it back. A call of any other kind adds nothing. -/
def Comes (call : Call (monitor α)) (reply : Reply α) : Prop :=
  match call.request.offered? with
  | some item =>
    reply.isPushed = true ∧ call.notes = [.accepted item] ∨
      reply.isPushed = false ∧ reply.refused? = some item ∧ call.notes = []
  | none => reply.isPushed = false ∧ call.notes.filterMap Note.accepted? = []

section Effect

variable {c : Channel α} {now : Instant} {position : Position α} {move : Step α}

/-- A step that goes on with a call leaves it where it is, and records nothing. -/
theorem Effect.stay (h : Effect c now position move) {position' : Position α}
    (hplace : (Phase.ofOutcome (M := monitor α) move.outcome).place? = some position') :
    position' = position ∧ move.notes = [] := by
  cases h with
  | awaitRoom isOpen full early =>
    cases hplace
    exact ⟨rfl, rfl⟩
  | awaitItem isOpen nothing early =>
    cases hplace
    exact ⟨rfl, rfl⟩
  | add | take | refuse | lack | close | aside => contradiction

/-- A call that has recorded nothing comes to what its last step does. -/
theorem Effect.comes (h : Effect c now position move) {call : Call (monitor α)} {reply : Reply α}
    (hnotes : call.notes = []) (hoffers : position.offered? = call.request.offered?)
    (hreply : move.outcome = .reply reply) : Comes (call.record move.notes) reply := by
  unfold Comes
  simp only [Call.record, hnotes, List.nil_append, ← hoffers]
  cases h with
  | add offers isOpen room isPushed =>
    cases hreply
    simp [offers, isPushed, pushed]
  | take polls front got =>
    cases hreply
    simp [offered?_of_isPoll polls, isPushed_of_item? got, polled, Note.accepted?]
  | refuse offers noRoom handed =>
    cases hreply
    simp [offers, handed, isPushed_of_refused? handed, Move.reply]
  | lack polls nothing notPushed noItem =>
    cases hreply
    simp [offered?_of_isPoll polls, notPushed, Move.reply]
  | close isOpen =>
    cases hreply
    simp [Position.offered?, Reply.isPushed, Note.accepted?]
  | aside noOffer noPoll sameQueue sameClosed sameCapacity notPushed noItem noneAdded noneTaken =>
    cases hreply
    simp [noOffer, notPushed, noneAdded]
  | awaitRoom | awaitItem => contradiction

/-- A call that returns records the item that it has added, or the item that it has taken. -/
theorem Effect.tells (h : Effect c now position move) {reply : Reply α}
    (hreply : move.outcome = .reply reply) :
    move.notes.filterMap Note.accepted? =
        (if reply.isPushed then position.offered? else none).toList ∧
      move.notes.filterMap Note.removed? = reply.item?.toList := by
  cases h with
  | add offers isOpen room isPushed =>
    cases hreply
    simp [pushed, Note.accepted?, Note.removed?, isPushed, offers, item?_of_isPushed isPushed]
  | take polls front got =>
    cases hreply
    simp [polled, Note.accepted?, Note.removed?, isPushed_of_item? got, got]
  | refuse offers noRoom handed =>
    cases hreply
    simp [Move.reply, isPushed_of_refused? handed, item?_of_refused? handed]
  | lack polls nothing notPushed noItem =>
    cases hreply
    simp [Move.reply, notPushed, noItem]
  | close isOpen =>
    cases hreply
    simp [Note.accepted?, Note.removed?, Reply.isPushed, Reply.item?]
  | aside noOffer noPoll sameQueue sameClosed sameCapacity notPushed noItem noneAdded noneTaken =>
    cases hreply
    simp [noneAdded, noneTaken, notPushed, noItem]
  | awaitRoom | awaitItem => contradiction

/-- A step that does not return records nothing. -/
theorem Effect.notes_eq_nil (h : Effect c now position move)
    (hreply : ∀ reply, move.outcome ≠ .reply reply) : move.notes = [] := by
  cases h with
  | awaitRoom isOpen full early => rfl
  | awaitItem isOpen nothing early => rfl
  | add | take | refuse | lack | close | aside => exact absurd rfl (hreply _)

end Effect

/-- A call stays where it started and records nothing until it returns. -/
def rule (α : Type) : CallRule (monitor α) where
  stands call? position :=
    ∃ call, call? = some call ∧ call.notes = [] ∧ ∃ now, position = start call.request now
  comes := Comes
  start thread request now := ⟨_, rfl, rfl, now, rfl⟩
  step := by
    rintro _ _ state now input move ⟨call, rfl, hnotes, began, rfl⟩ moves
    have heffect := effect_of_moves moves
    constructor
    · intro position' hplace
      obtain ⟨rfl, hquiet⟩ := heffect.stay hplace
      rw [hquiet]
      exact ⟨call, congrArg some call.record_nil, hnotes, began, rfl⟩
    · rintro _ reply ⟨⟩ hreply
      exact heffect.comes hnotes (offered?_start _ _) hreply

/-- Every call on a channel keeps its rule. -/
theorem rule_holds {c : Channel α} {now : Instant} {s : System (monitor α)}
    (h : (system c now).Reachable s) : (rule α).Holds s :=
  CallRule.holds h (by simp)

/-! ### Notes and calls -/

/-- The notes of a channel tell of the same items as the calls on it. -/
structure Told (s : System (monitor α)) : Prop where
  /-- What the notes say was added is what pushes have added. -/
  added : told addedBy? s.view.notes = pushes s
  /-- What the notes say was taken is what polls have taken. -/
  taken : told taken? s.view.notes = polls s

section Told

variable {s : System (monitor α)} {thread : Nat} {position : Position α} {now : Instant}
  {input : Unit} {move : Step α}

/-- A push that returns is the one that has added its item. -/
theorem endedBy_pushOf? (hrule : (rule α).Holds s)
    (hplace : placeIn s.threads thread = some position)
    (moves : (monitor α).step s.state now position input = some move) :
    (endedBy thread move s.journal).toList.filterMap pushOf? =
      move.notes.filterMap fun note => addedBy? (thread, note) := by
  obtain ⟨call, hopen, _, began, rfl⟩ := hrule.stands hplace
  have heffect := effect_of_moves moves
  rw [filterMap_addedBy?, endedBy]
  cases houtcome : move.outcome with
  | reply reply =>
    rw [(heffect.tells houtcome).1, offered?_start, hopen]
    have hthread := thread_of_openCall hopen
    cases hpushed : Reply.isPushed reply with
    | false => simp [pushOf?, hpushed]
    | true => cases hoffers : call.request.offered? <;>
        simp [pushOf?, hpushed, hoffers, hthread, Call.record]
  | _ =>
    rw [heffect.notes_eq_nil (by simp [houtcome])]
    rfl

/-- A poll that returns is the one that has taken its item. -/
theorem endedBy_item? (hrule : (rule α).Holds s)
    (hplace : placeIn s.threads thread = some position)
    (moves : (monitor α).step s.state now position input = some move) :
    (endedBy thread move s.journal).toList.filterMap (·.2.item?) =
      move.notes.filterMap fun note => taken? (thread, note) := by
  obtain ⟨call, hopen, _, began, rfl⟩ := hrule.stands hplace
  have heffect := effect_of_moves moves
  rw [endedBy]
  cases houtcome : move.outcome with
  | reply reply =>
    have htakes : move.notes.filterMap (fun note => taken? (thread, note)) =
        reply.item?.toList := (heffect.tells houtcome).2
    rw [htakes, hopen]
    cases hitem : Reply.item? reply <;> simp [hitem]
  | _ =>
    rw [heffect.notes_eq_nil (by simp [houtcome])]
    rfl

end Told

/-- The notes and the calls tell the same of every use of a channel. -/
theorem Told.of_reachable {c : Channel α} {now : Instant} {s : System (monitor α)}
    (h : (system c now).Reachable s) : Told s := by
  induction h with
  | start => exact ⟨rfl, rfl⟩
  | next hreachable hnext ih =>
    have hrule := rule_holds hreachable
    have hchange := System.next_eq_some_iff.1 hnext
    constructor
    · exact told_change ih.added (endedBy_pushOf? hrule) hchange
    · exact told_change ih.taken (endedBy_item? hrule) hchange

/-- The items that have been added, in the order in which they were appended to the queue, each
with the thread that added it. -/
def additions (s : System (monitor α)) : List (Nat × α) := told addedBy? s.view.notes

/-- The items that polls have taken, each with the thread that had added it. -/
def handed (s : System (monitor α)) : List (Nat × α) := (pushes s).take (polls s).length

/-- What a thread has added is, in order, part of what it has offered. -/
theorem pushes_sublist_requests {s : System (monitor α)} (h : OneByOne s) (thread : Nat) :
    (((pushes s).filter (·.1 = thread)).map (·.2)).Sublist
      ((s.requests thread).filterMap Request.offered?) := by
  have hpushes : ((pushes s).filter (·.1 = thread)).map (·.2) =
      ((s.returnsOf thread).filter (·.2.isPushed)).filterMap (·.1.request.offered?) := by
    rw [pushes, System.returnsOf, List.filter_filterMap, List.map_filterMap,
      List.filterMap_filter, List.filterMap_filter]
    congr 1
    funext returned
    obtain ⟨call, reply⟩ := returned
    by_cases hthread : call.thread = thread <;> cases hpushed : Reply.isPushed reply <;>
      cases hoffers : call.request.offered? <;> simp [pushOf?, hpushed, hoffers, hthread]
  have hreturned : List.Sublist
      (((s.returnsOf thread).filter (·.2.isPushed)).filterMap (·.1.request.offered?))
      ((s.returnsOf thread).filterMap (·.1.request.offered?)) :=
    List.filter_sublist.filterMap _
  have horder : (s.requests thread).filterMap Request.offered? =
      (s.returnsOf thread).filterMap (·.1.request.offered?) ++
        ((openCall thread s.journal).map (·.request)).toList.filterMap Request.offered? := by
    rw [h.order thread, List.filterMap_append, List.filterMap_map]
    rfl
  rw [hpushes, horder]
  exact hreturned.trans (List.sublist_append_left _ _)

/-- Whatever threads do with a channel: what pushes have added, in order, is what polls have
taken, in order, followed by the queue, and the queue keeps to the capacity. A push that has
returned has added its item, once, and succeeded, or has added nothing and hands its item back.
The items of one producer are taken in the order in which it offered them. -/
theorem handed_over_once {capacity errorCapacity : Nat} {capacity_pos : 0 < capacity}
    {errorCapacity_pos : 0 < errorCapacity} {now : Instant} {s : System (monitor α)}
    (h : (system (.empty capacity errorCapacity capacity_pos errorCapacity_pos) now).Reachable s) :
    additions s = pushes s ∧
      (pushes s).map (·.2) = polls s ++ s.state.queue ∧
      s.state.queue.length ≤ capacity ∧
      (∀ call reply item, (call, reply) ∈ s.returns → call.request.offered? = some item →
        reply.isPushed = true ∧ call.notes = [.accepted item] ∨
          reply.isPushed = false ∧ reply.refused? = some item ∧ call.notes = []) ∧
      (handed s).map (·.2) = polls s ∧
      ∀ producer,
        (handed s).filter (·.1 = producer) <+: (pushes s).filter (·.1 = producer) ∧
        (((pushes s).filter (·.1 = producer)).map (·.2)).Sublist
          ((s.requests producer).filterMap Request.offered?) := by
  have hconserved : Conserved capacity s.layout :=
    Conserved.of_reachable h.reachableBy.layout rfl rfl
  have htold := Told.of_reachable h
  have hadded : additions s = pushes s := htold.added
  have hfifo : (pushes s).map (·.2) = polls s ++ s.state.queue := by
    rw [← hadded, ← htold.taken]
    exact hconserved.conserved
  refine ⟨hadded, hfifo, ?_, ?_, ?_, ?_⟩
  · rw [← hconserved.capacity]
    exact hconserved.bounded
  · intro call reply item hreturned hoffers
    have hcomes : Comes call reply := (rule_holds h).comes hreturned
    rw [Comes, hoffers] at hcomes
    exact hcomes
  · rw [handed, List.map_take, hfifo]
    exact List.take_left
  · intro producer
    constructor
    · exact (List.take_prefix _ _).filter _
    · exact pushes_sublist_requests (.of_reachable h) producer

/-- One producer fills the queue, the next one waits until a consumer has taken the item. -/
def takingTurns : List (Event (monitor Nat)) :=
  [.arrive, .arrive, .arrive, .call 0 (.push 7), .step 0 () 0, .call 1 (.push 8), .step 1 () 0,
    .call 2 .poll, .step 2 () 1, .step 1 () 0]

theorem handed_over_once_takingTurns :
    ∃ s, (system (.empty 1 1 (by decide) (by decide)) .midrange).run takingTurns = some s ∧
      pushes s = [(0, 7), (1, 8)] ∧ polls s = [7] ∧ s.state.queue = [8] ∧
      (pushes s).map (·.2) = polls s ++ s.state.queue := by
  refine ⟨_, rfl, rfl, rfl, rfl, ?_⟩
  have hreachable := System.Reachable.run .start
    (rfl : (system (.empty 1 1 (by decide) (by decide)) .midrange).run takingTurns = some _)
  exact (handed_over_once hreachable).2.1

end Backpressure.Channel
