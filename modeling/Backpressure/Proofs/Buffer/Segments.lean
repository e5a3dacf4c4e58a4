import Backpressure.Proofs.Buffer.Chunks
import Backpressure.Proofs.Buffer.Effect
import Backpressure.Proofs.History

/-!
# The calls of a thread that has a buffer to itself

Such calls never find a delivery under way, so that every one of them does by itself what it is
there for. What they hand to the sink is known from their requests: the items that are added
between two flushes are cut into chunks, and what fills no chunk is left to the second flush.
-/

namespace Backpressure.Buffer

variable {α : Type}

/-! ### What the calls are to do -/

/-- Does a call flush, whatever is pending? -/
def Request.cuts : Request α → Bool
  | .flush | .flushTimeout _ | .flushDeadline _ | .shutdown => true
  | .add _ | .inspect => false

/-- The items that calls add one after the other, cut at every call that flushes. -/
def segments (requests : List (Request α)) : List (List α) :=
  (requests.splitOnP Request.cuts).map (·.filterMap Request.offered?)

theorem segments_ne_nil (requests : List (Request α)) : segments requests ≠ [] := by
  simp [segments, List.splitOnP_ne_nil]

/-- The items that calls add after the last one that flushes. -/
def sinceFlush (requests : List (Request α)) : List α :=
  (segments requests).getLast (segments_ne_nil requests)

/-- The batches that the sink is to be called with: every segment in chunks, but for the short rest
of the last one, which stays pending. -/
def expectedBatches (limit : Nat) (requests : List (Request α)) : List (List α) :=
  (segments requests).dropLast.flatMap (List.toChunks limit) ++
    fullChunks limit (sinceFlush requests)

/-- The items that are to be flushed by the next call, after one call more. -/
def sinceAfter (since : List α) (request : Request α) : List α :=
  if request.cuts then [] else since ++ request.offered?.toList

section Reference

variable {limit : Nat} {requests : List (Request α)} {request : Request α}

theorem segments_eq (requests : List (Request α)) :
    segments requests = (segments requests).dropLast ++ [sinceFlush requests] :=
  (List.dropLast_concat_getLast (segments_ne_nil requests)).symm

theorem segments_concat (requests : List (Request α)) (request : Request α) :
    segments (requests ++ [request]) =
      (if request.cuts then segments requests else (segments requests).dropLast) ++
        [sinceAfter (sinceFlush requests) request] := by
  unfold sinceAfter
  split
  · rename_i hcuts
    rw [segments, List.splitOnP_append_cons _ _ hcuts, List.map_append]
    rfl
  · rename_i hcuts
    have hsplit := (List.dropLast_concat_getLast (List.splitOnP_ne_nil Request.cuts requests)).symm
    rw [segments, splitOnP_concat (eq_false_of_ne_true hcuts) hsplit]
    have hoffered : [request].filterMap Request.offered? = request.offered?.toList := by
      cases hoffer : request.offered? <;> simp [hoffer]
    simp only [segments, sinceFlush, List.map_append, List.map_dropLast, List.map_cons,
      List.map_nil, List.filterMap_append, List.getLast_map, hoffered]

theorem sinceFlush_concat (requests : List (Request α)) (request : Request α) :
    sinceFlush (requests ++ [request]) = sinceAfter (sinceFlush requests) request := by
  simp only [sinceFlush, segments_concat, List.getLast_concat]

/-- A call that flushes cuts off a segment. -/
theorem expectedBatches_of_cuts (hcuts : request.cuts = true) :
    expectedBatches limit (requests ++ [request]) =
      (segments requests).dropLast.flatMap (List.toChunks limit) ++
        (sinceFlush requests).toChunks limit := by
  have hnone : sinceAfter (sinceFlush requests) request = [] := if_pos hcuts
  rw [expectedBatches, sinceFlush_concat, segments_concat, if_pos hcuts, List.dropLast_concat,
    hnone, fullChunks_nil, List.append_nil, segments_eq requests, List.flatMap_append,
    List.dropLast_concat, List.flatMap_singleton]

/-- A call that does not flush goes on with the last segment. -/
theorem expectedBatches_of_not_cuts (hcuts : request.cuts = false) :
    expectedBatches limit (requests ++ [request]) =
      (segments requests).dropLast.flatMap (List.toChunks limit) ++
        fullChunks limit (sinceFlush requests ++ request.offered?.toList) := by
  have hafter : sinceAfter (sinceFlush requests) request =
      sinceFlush requests ++ request.offered?.toList := if_neg (by simp [hcuts])
  rw [expectedBatches, sinceFlush_concat, segments_concat, if_neg (by simp [hcuts]),
    List.dropLast_concat, hafter]

end Reference

/-! ### What a call comes to -/

/-- What a delivery records, from the taking of its batch on. -/
def deliveryNotes (errand : Errand) (batch : List α) (outcome : SinkOutcome) : List (Note α) :=
  [.taken errand batch, .called errand batch, .returned batch outcome,
    .recorded batch.length outcome.isAccepted]

/-- What a call records and returns that has the buffer to itself, after these items have been added
since the last flush. -/
inductive Answered (limit : Nat) (since : List α) : Call (monitor α) → Reply α → Prop
  /-- An add that completes no chunk leaves its item pending. -/
  | kept {thread item} (short : (since.length + 1) % limit ≠ 0) :
      Answered limit since ⟨thread, .add item, [.added item]⟩ .added
  /-- An add that completes a chunk hands it to the sink. -/
  | filled {thread item} (full : (since.length + 1) % limit = 0) (outcome : SinkOutcome) :
      Answered limit since
        ⟨thread, .add item,
          .added item :: deliveryNotes .add ((since ++ [item]).rtake limit) outcome⟩
        .added
  /-- A flush finds nothing pending where the items fill their chunks. -/
  | nothing {thread request} (cuts : request.cuts = true) (none : since.length % limit = 0) :
      Answered limit since ⟨thread, request, []⟩ (.flushed (.ok .empty))
  /-- A flush hands the short rest to the sink, and tells what the sink made of it. -/
  | flushed {thread request errand} (cuts : request.cuts = true)
      (some : since.length % limit ≠ 0) (same : errand.purpose = request.purpose)
      (outcome : SinkOutcome) :
      Answered limit since
        ⟨thread, request, deliveryNotes errand (shortRest limit since) outcome⟩
        (.flushed (.ok (.ofDelivery (since.length % limit) outcome.isAccepted)))
  /-- Who looks at the buffer changes nothing. -/
  | inspected {thread buffer} : Answered limit since ⟨thread, .inspect, []⟩ (.snapshot buffer)

/-- The batches with which a call has called the sink. -/
def handed (call : Call (monitor α)) : List (List α) := call.notes.filterMap Note.batch?

/-- The batches of a call are those that it adds to the expected ones. -/
theorem Answered.expected {limit : Nat} (hlimit : 0 < limit) {requests : List (Request α)}
    {call : Call (monitor α)} {reply : Reply α}
    (h : Answered limit (sinceFlush requests) call reply) :
    expectedBatches limit (requests ++ [call.request]) =
      expectedBatches limit requests ++ handed call := by
  cases h with
  | kept short =>
    rw [expectedBatches_of_not_cuts rfl]
    simp only [Request.offered?, Option.toList_some, fullChunks_concat_of_short short]
    exact (List.append_nil _).symm
  | filled full outcome =>
    rw [expectedBatches_of_not_cuts rfl]
    simp only [Request.offered?, Option.toList_some, fullChunks_concat_of_full hlimit full,
      expectedBatches, List.append_assoc]
    rfl
  | nothing cuts none =>
    rw [expectedBatches_of_cuts cuts, toChunks_of_mod_eq_zero none]
    exact (List.append_nil _).symm
  | flushed cuts some same outcome =>
    rw [expectedBatches_of_cuts cuts, toChunks_of_mod_ne_zero hlimit some, expectedBatches,
      List.append_assoc]
    rfl
  | inspected =>
    rw [expectedBatches_of_not_cuts rfl]
    simp only [Request.offered?, Option.toList_none, List.append_nil]
    exact (List.append_nil _).symm

/-! ### A call on its way -/

/-- No delivery is under way, and what fills no chunk is pending. -/
structure Rests (limit : Nat) (since : List α) (b : Buffer α) : Prop where
  flushing : b.flushing = false
  pending : b.pending = shortRest limit since

/-- A call that has recorded this much is to flush a batch, for an errand. -/
inductive Owes (limit : Nat) (since : List α) :
    Request α → Errand → List (Note α) → List α → Prop
  | add {item} (full : (since.length + 1) % limit = 0) :
      Owes limit since (.add item) .add [.added item] ((since ++ [item]).rtake limit)
  | cut {request errand} (cuts : request.cuts = true) (same : errand.purpose = request.purpose) :
      Owes limit since request errand [] (shortRest limit since)

/-- A thread on its way with a batch has recorded this much of the delivery. -/
inductive OnItsWay (errand : Errand) (batch : List α) : List (Note α) → Position α → Prop
  | call : OnItsWay errand batch [.taken errand batch] (.call errand batch)
  | deliver : OnItsWay errand batch [.taken errand batch, .called errand batch]
      (.deliver errand batch)
  | record (outcome : SinkOutcome) :
      OnItsWay errand batch [.taken errand batch, .called errand batch, .returned batch outcome]
        (.record errand batch.length outcome.isAccepted)

/-- How a call stands that has the buffer to itself. -/
inductive Stands (limit : Nat) (since : List α) (b : Buffer α) :
    Call (monitor α) → Position α → Prop
  | append {thread item} (rests : Rests limit since b) :
      Stands limit since b ⟨thread, .add item, []⟩ (.append item)
  | stop {thread} (rests : Rests limit since b) :
      Stands limit since b ⟨thread, .shutdown, []⟩ .stop
  | await {thread} (rests : Rests limit since b) :
      Stands limit since b ⟨thread, .shutdown, []⟩ .await
  | inspect {thread} (rests : Rests limit since b) :
      Stands limit since b ⟨thread, .inspect, []⟩ .inspect
  | enter {thread request errand lead batch}
      (owes : Owes limit since request errand lead batch)
      (flushing : b.flushing = false) (pending : b.pending = batch) :
      Stands limit since b ⟨thread, request, lead⟩ (.enter errand)
  | carry {thread request errand lead batch notes position}
      (owes : Owes limit since request errand lead batch)
      (some : batch ≠ []) (pending : b.pending = [])
      (underway : OnItsWay errand batch notes position) :
      Stands limit since b ⟨thread, request, lead ++ notes⟩ position

/-- How a step leaves a call that has the buffer to itself: on its way, or answered. -/
def Goes (limit : Nat) (since : List α) (b : Buffer α) (call : Call (monitor α)) :
    Outcome (Position α) (Reply α) Condition → Prop
  | .proceed place => Stands limit since b call place
  | .reply reply =>
    Answered limit since call reply ∧ Rests limit (sinceAfter since call.request) b
  | _ => False

section Steps

variable {limit : Nat} {since : List α} {b : Buffer α} {thread : Nat} {request : Request α}
  {errand : Errand} {lead : List (Note α)} {batch : List α}

/-- Only the items and the flag count. -/
theorem Stands.of_same {b' : Buffer α} {call : Call (monitor α)} {position : Position α}
    (h : Stands limit since b call position) (hpending : b'.pending = b.pending)
    (hflushing : b'.flushing = b.flushing) : Stands limit since b' call position := by
  have hrests : Rests limit since b → Rests limit since b' := fun rests =>
    ⟨hflushing.trans rests.flushing, hpending.trans rests.pending⟩
  cases h with
  | append rests => exact .append (hrests rests)
  | stop rests => exact .stop (hrests rests)
  | await rests => exact .await (hrests rests)
  | inspect rests => exact .inspect (hrests rests)
  | enter owes flushing pending =>
    exact .enter owes (hflushing.trans flushing) (hpending.trans pending)
  | carry owes some pending underway =>
    exact .carry owes some (hpending.trans pending) underway

/-- A call begins. -/
theorem Stands.start (h : Rests limit since b) (thread : Nat) (request : Request α)
    (now : Instant) : Stands limit since b ⟨thread, request, []⟩ (start request now) := by
  cases request with
  | add item => exact .append h
  | flush => exact .enter (.cut rfl rfl) h.flushing h.pending
  | flushTimeout timeout => exact .enter (.cut rfl rfl) h.flushing h.pending
  | flushDeadline deadline => exact .enter (.cut rfl rfl) h.flushing h.pending
  | shutdown => exact .stop h
  | inspect => exact .inspect h

/-- A flush that a caller has asked for returns what it has come to. -/
theorem finish_of_cuts (hcuts : request.cuts = true) (hsame : errand.purpose = request.purpose)
    (flush : Flush) : finish (α := α) errand flush = .reply (.flushed (.ok flush)) := by
  cases errand with
  | flush | shutdown => rfl
  | add | tick => cases request <;> contradiction

theorem goes_of_delivered (h : Owes limit since request errand lead batch)
    (hsome : batch ≠ []) (hpending : b.pending = []) (hflushing : b.flushing = false)
    (outcome : SinkOutcome) :
    Goes limit since b ⟨thread, request, lead ++ deliveryNotes errand batch outcome⟩
      (finish errand (.ofDelivery batch.length outcome.isAccepted)) := by
  cases h with
  | @add item full =>
    have hadded : finish (α := α) .add (.ofDelivery ((since ++ [item]).rtake limit).length
        outcome.isAccepted) = .reply .added := by
      cases outcome <;> rfl
    have hafter : sinceAfter since (.add item) = since ++ [item] := rfl
    rw [hadded]
    refine ⟨.filled full outcome, hflushing, ?_⟩
    rw [hpending, hafter, shortRest_concat_of_full full]
  | cut cuts same =>
    have hafter : sinceAfter since request = [] := if_pos cuts
    have hlength : (shortRest limit since).length = _ := length_shortRest since
    rw [finish_of_cuts cuts same, hlength]
    refine ⟨.flushed cuts ?_ same outcome, hflushing, ?_⟩
    · rw [← hlength, ne_eq, List.length_eq_zero_iff]
      exact hsome
    · rw [hpending, hafter, shortRest_nil]

/-- An add that completes a chunk goes on to flush it, and any other one is done. -/
theorem goes_of_append {item : α} (hlimit : 0 < limit) (hsame : b.limit = limit)
    (h : Rests limit since b) :
    Goes limit since (b.append item) ⟨thread, .add item, [.added item]⟩
      (stepAppend b item).outcome := by
  have hpending : (b.append item).pending = shortRest limit since ++ [item] :=
    congrArg (· ++ [item]) h.pending
  have hdue : (b.append item).isDue = decide (limit ≤ since.length % limit + 1) := by
    rw [isDue, hpending, List.length_append, length_shortRest, ← hsame]
    rfl
  by_cases hfull : (since.length + 1) % limit = 0
  · have hmod := mod_add_one_of_full hlimit hfull
    have houtcome : (stepAppend b item).outcome = .proceed (.enter .add) := by
      simp [stepAppend, hdue, hmod]
    rw [houtcome]
    exact .enter (.add hfull) h.flushing (hpending.trans (rtake_concat_of_full hlimit hfull).symm)
  · have hmod := mod_add_one_of_short hfull
    have hlt := Nat.mod_lt (since.length + 1) hlimit
    have houtcome : (stepAppend b item).outcome = .reply .added := by
      simp only [stepAppend, hdue, ← hmod, Nat.not_le.2 hlt, decide_false, Bool.false_eq_true,
        if_false]
    rw [houtcome]
    exact ⟨.kept hfull, h.flushing, hpending.trans (shortRest_concat_of_short hfull).symm⟩

/-- A flush that begins takes what is pending, or is done where nothing is. -/
theorem goes_of_enter {now : Instant} (hlimit : 0 < limit)
    (h : Owes limit since request errand lead batch) (hflushing : b.flushing = false)
    (hpending : b.pending = batch) :
    Goes limit since (stepEnter b now errand).state
      ⟨thread, request, lead ++ (stepEnter b now errand).notes⟩
      (stepEnter b now errand).outcome := by
  by_cases hsome : batch = []
  · have hempty : stepEnter b now errand =
        { state := b, outcome := finish errand .empty, signals := [], notes := [] } := by
      simp [stepEnter, hflushing, hpending, hsome]
    rw [hempty]
    cases h with
    | add full =>
      rw [rtake_concat_of_full hlimit full] at hsome
      simp at hsome
    | cut cuts same =>
      have hafter : sinceAfter since request = [] := if_pos cuts
      have hlength : (shortRest limit since).length = _ := length_shortRest since
      rw [hsome, List.length_nil] at hlength
      rw [finish_of_cuts cuts same]
      refine ⟨.nothing cuts hlength.symm, hflushing, ?_⟩
      rw [hpending, hsome, hafter, shortRest_nil]
  · have htake : stepEnter b now errand =
        { state := b.take, outcome := .proceed (.call errand b.pending), signals := [],
          notes := [.taken errand b.pending] } := by
      simp [stepEnter, hflushing, hpending, hsome]
    rw [htake, hpending]
    exact .carry h hsome rfl .call

/-- A step leaves a call on its way, or answered. -/
theorem Stands.step {now : Instant} {call : Call (monitor α)} {position : Position α}
    {input : Input} {move : Step α} (h : Stands limit since b call position)
    (hlimit : 0 < limit) (hsame : b.limit = limit)
    (moves : (monitor α).step b now position input = some move) :
    Goes limit since move.state (call.record move.notes) move.outcome := by
  cases h with
  | append rests =>
    cases moves
    exact goes_of_append hlimit hsame rests
  | stop rests =>
    simp only [Buffer.step, stepStop] at moves
    split at moves
    · cases moves
      exact .await ⟨rests.flushing, rests.pending⟩
    · cases moves
      exact .enter (.cut rfl rfl) rests.flushing rests.pending
    all_goals contradiction
  | await rests =>
    simp only [Buffer.step, stepAwait] at moves
    split at moves
    · cases moves
      exact .enter (.cut rfl rfl) rests.flushing rests.pending
    · contradiction
  | inspect rests =>
    cases moves
    have hafter : sinceAfter since (.inspect : Request α) = since := List.append_nil since
    exact ⟨.inspected, rests.flushing, rests.pending.trans (congrArg _ hafter.symm)⟩
  | enter owes flushing pending =>
    cases moves
    exact goes_of_enter hlimit owes flushing pending
  | @carry thread request errand lead batch notes position owes some pending underway =>
    rw [Call.record, List.append_assoc]
    cases underway with
    | call =>
      cases moves
      exact .carry owes some pending .deliver
    | deliver =>
      cases input with
      | outcome outcome =>
        cases moves
        exact .carry owes some pending (.record outcome)
      | nothing | tick | stop => contradiction
    | record outcome =>
      cases moves
      have hpending : (b.complete batch.length outcome.isAccepted).pending = [] := pending
      exact goes_of_delivered owes some hpending rfl outcome

end Steps

end Backpressure.Buffer
