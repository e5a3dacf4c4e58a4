import Backpressure.Proofs.Buffer.Completion

/-!
# What a shutdown leaves behind

A shutdown flushes once, after the periodic trigger has ended. That flush may find a delivery of
another thread on its way, and is then content with it. What had been added behind that delivery is
left behind, even if its add had returned long before.
-/

namespace Backpressure.Buffer

variable {α : Type}

/-- A thread has looked at the buffer on behalf of a shutdown, since some system. -/
def HasFlushed (start : System (monitor α)) (thread : Nat) (s : System (monitor α)) : Prop :=
  ∃ look looked input wakee, start.Reachable look ∧
    look.returnsOf thread = start.returnsOf thread ∧
    placeIn look.threads thread = some (.enter .shutdown) ∧
    look.next (.step thread input wakee) = some looked ∧ looked.Reachable s

theorem HasFlushed.later {start s s' : System (monitor α)} {thread : Nat}
    (h : HasFlushed start thread s) (hlater : s.Reachable s') : HasFlushed start thread s' :=
  have ⟨look, looked, input, wakee, hsince, hsame, hplace, hlook, hs⟩ := h
  ⟨look, looked, input, wakee, hsince, hsame, hplace, hlook, hs.trans hlater⟩

/-- A shutdown that has not looked at the buffer is on its way to do so. -/
theorem place_of_shutdown {b : Buffer α} {now : Instant} {position : Position α} {input : Input}
    {move : Step α} (hbefore : position = .stop ∨ position = .await)
    (moves : (monitor α).step b now position input = some move) :
    move.outcome = .proceed .await ∨ move.outcome = .proceed (.enter .shutdown) := by
  rcases hbefore with rfl | rfl
  · simp only [step, stepStop] at moves
    split at moves
    · cases moves
      exact .inl rfl
    · cases moves
      exact .inr rfl
    all_goals contradiction
  · simp only [step, stepAwait] at moves
    split at moves
    · cases moves
      exact .inr rfl
    · contradiction

/-- The course of a shutdown: it flushes before it returns. -/
def shutdownCourse (start : System (monitor α)) (thread : Nat)
    (hplace : placeIn start.threads thread = some .stop) : Course start thread where
  during s position :=
    (position = .stop ∨ position = .await) ∨ position = .enter .shutdown ∨
      HasFlushed start thread s
  after s _ := HasFlushed start thread s
  begins := by
    intro position hposition
    rw [hplace] at hposition
    cases hposition
    exact .inl (.inl rfl)
  stays := by
    intro s s' event position _ hchange _ hduring
    have hlater : s.Reachable s' := .single (System.next_eq_some_iff.2 hchange)
    exact hduring.imp id (·.imp id (·.later hlater))
  goes := by
    intro s s' input wakee position move hreachable hreturns hnext hplace moves _ hduring
    rcases hduring with hbefore | hflush
    · have hmoved := place_of_shutdown hbefore moves
      constructor
      · intro place hplace'
        rcases hmoved with houtcome | houtcome
        · rw [houtcome] at hplace'
          cases hplace'
          exact .inl (.inr rfl)
        · rw [houtcome] at hplace'
          cases hplace'
          exact .inr (.inl rfl)
      · intro reply hreply
        rcases hmoved with houtcome | houtcome
        · rw [houtcome] at hreply
          contradiction
        · rw [houtcome] at hreply
          contradiction
    · have hflushed : HasFlushed start thread s' := by
        rcases hflush with rfl | hflushed
        · exact ⟨s, s', input, wakee, hreachable, hreturns, hplace, hnext, .start⟩
        · exact hflushed.later (.single hnext)
      exact ⟨fun _ _ => .inr (.inr hflushed), fun _ _ => hflushed⟩

section Runs

variable {limit : Nat} {interval : Duration} {limit_pos : 0 < limit}
  {interval_pos : 0 < interval.nanos} {now : Instant} {s called s' : System (monitor α)}

theorem eq_add_of_offered? {request : Request α} {item : α}
    (h : request.offered? = some item) : request = .add item := by
  cases request <;> cases h
  rfl

/-- An add that has returned has put its item in. -/
theorem mem_additions {b : Buffer α} (h : (system b now).Reachable s) {call : Call (monitor α)}
    {reply : Reply α} {item : α} (hreturned : (call, reply) ∈ s.returns)
    (hadd : call.request = .add item) : item ∈ additions s := by
  have hadded : call.notes.filterMap Note.added? = call.request.offered?.toList :=
    (rule_holds h).comes hreturned
  rw [hadd] at hadded
  have hitem : item ∈ call.notes.filterMap Note.added? := by
    rw [hadded]
    exact List.mem_singleton_self item
  obtain ⟨note, hnote, hsome⟩ := List.mem_filterMap.1 hitem
  obtain ⟨thread, hentry⟩ := mem_of_returnedCalls (List.mem_reverse.1 hreturned) hnote
  rw [additions, told, List.mem_reverse, List.mem_filterMap]
  exact ⟨(thread, note), List.mem_filterMap.2 ⟨_, hentry, rfl⟩, hsome⟩

/-- A shutdown that has returned has flushed. -/
theorem flushed_of_shutdown {b : Buffer α} (h : (system b now).Reachable s) {thread : Nat}
    (hcall : s.next (.call thread .shutdown) = some called) (hlater : called.Reachable s')
    {call : Call (monitor α)} {reply : Reply α}
    (hreturned : called.returnsOf thread ++ [(call, reply)] <+: s'.returnsOf thread) :
    (∃ flush, reply = .flushed (.ok flush)) ∧ HasFlushed called thread s' := by
  obtain ⟨hplace, hopen, _⟩ := System.begun_of_next hcall
  obtain ⟨hrequest, moment, _, hmoment, hflushed⟩ := (shutdownCourse called thread
    hplace).after_of_returned (.of_reachable (h.next hcall)) hopen hlater hreturned
  have hmem : (call, reply) ∈ s'.returns := by
    have hlast : (call, reply) ∈ s'.returnsOf thread := hreturned.subset (by simp)
    exact (List.mem_filter.1 hlast).1
  have hallows := (purposeRule_holds ((h.next hcall).trans hlater)).comes hmem
  have hpurpose : call.request.purpose = .shutdown := by
    rw [hrequest]
    rfl
  have hreply : Purpose.shutdown.Allows reply := hpurpose ▸ hallows
  exact ⟨hreply, hflushed.later hmoment⟩

/-- What a shutdown has delivered when it returns, whatever other threads and the sink do. It never
gives up. If it has not merely joined another delivery, the sink has returned from everything that
had been added when it was called, and so from every item whose add had returned. If it has joined a
delivery, the sink has returned from that one and all before it, and what was pending behind them at
that moment is all that can be left. -/
theorem shutdown_delivers
    (h : (system (.empty limit interval limit_pos interval_pos) now).Reachable s) {thread : Nat}
    (hcall : s.next (.call thread .shutdown) = some called) (hlater : called.Reachable s')
    {call : Call (monitor α)} {reply : Reply α}
    (hreturned : s.returnsOf thread ++ [(call, reply)] <+: s'.returnsOf thread) :
    (∀ call' reply' item, (call', reply') ∈ s.returns → call'.request = .add item →
      item ∈ additions s) ∧
      ∃ flush, reply = .flushed (.ok flush) ∧
        (flush ≠ .joined → additions s <+: settled s') ∧
        (flush = .joined → ∃ look, called.Reachable look ∧ look.Reachable s' ∧
          inFlight look ≠ [] ∧ batched look <+: settled s' ∧
          additions s <+: batched look ++ look.state.pending) := by
  refine ⟨fun _ _ _ hmem hadd => mem_additions h hmem hadd, ?_⟩
  have hcalled := h.next hcall
  have hsame : called.returnsOf thread = s.returnsOf thread := by
    rw [System.returnsOf, (System.begun_of_next hcall).2.2.1, ← System.returnsOf]
  rw [← hsame] at hreturned
  obtain ⟨⟨flush, rfl⟩, look, looked, input, wakee, hsince, hreturns, hplace, hlook, hs'⟩ :=
    flushed_of_shutdown h hcall hlater hreturned
  rw [← hreturns] at hreturned
  have hdone := completed_of_look (hcalled.trans hsince) (fun _ => rfl) hplace hlook hs' hreturned
  have hadded : additions s <+: additions look :=
    additions_isPrefix ((System.Reachable.single hcall).trans hsince)
  refine ⟨flush, rfl, fun hflush => hadded.trans (hdone.settled hflush).2, ?_⟩
  intro hflush
  obtain ⟨hfound, htaken, _⟩ := hdone.joined hflush
  refine ⟨look, hsince, (System.Reachable.single hlook).trans hs', hfound, ?_, ?_⟩
  · have hbatches := flatten_isPrefix (htaken.map (·.2))
    rwa [List.map_map] at hbatches
  · rw [batched_append_pending (hcalled.trans hsince)]
    exact hadded

end Runs

/-- Two adds have returned. -/
def twoAdds : List (Event (monitor Nat)) :=
  [.arrive, .arrive, .arrive, .step 0 .nothing 0, .call 1 (.add 1), .step 1 .nothing 0,
    .call 2 (.add 2), .step 2 .nothing 0]

/-- A shutdown delivers what it finds, while a third item is added. -/
def shutdownFlushes : List (Event (monitor Nat)) :=
  [.step 3 .nothing 0, .step 0 .stop 0, .step 3 .nothing 0, .step 3 .nothing 0,
    .step 3 .nothing 0, .call 2 (.add 3), .step 2 .nothing 0, .step 3 (.outcome .accepted) 0,
    .step 3 .nothing 0]

theorem shutdown_delivers_shutdownFlushes :
    ∃ s called s' call, (system (.empty 9 ⟨1, by decide⟩ (by decide) (by decide))
        .midrange).run twoAdds = some s ∧
      s.next (.call 3 .shutdown) = some called ∧ called.run shutdownFlushes = some s' ∧
      s.returnsOf 3 ++ [(call, .flushed (.ok (.delivered 2)))] <+: s'.returnsOf 3 ∧
      additions s = [1, 2] ∧ s'.state.pending = [3] ∧ additions s <+: settled s' := by
  have hruns : (((system (.empty 9 ⟨1, by decide⟩ (by decide) (by decide)) .midrange).run
      twoAdds).bind fun s => (s.next (.call 3 .shutdown)).bind fun called =>
        (called.run shutdownFlushes).map fun s' =>
          decide (s.returnsOf 3 = [] ∧ (s'.returnsOf 3).map (·.2.flush?) = [some (.delivered 2)] ∧
            additions s = [1, 2] ∧ s'.state.pending = [3])) = some true := by
    decide +kernel
  simp only [Option.bind_eq_some_iff, Option.map_eq_some_iff, decide_eq_true_eq] at hruns
  obtain ⟨s, hbefore, called, hcall, s', hafter, hnone, hdelivered, hadded, hpending⟩ := hruns
  obtain ⟨call, hprefix⟩ := exists_flushed hnone hdelivered
  obtain ⟨_, flush, hflush, hsettled, _⟩ :=
    shutdown_delivers (.run .start hbefore) hcall (.run .start hafter) hprefix
  cases hflush
  exact ⟨s, called, s', call, hbefore, hcall, hafter, hprefix, hadded, hpending,
    hsettled (by decide)⟩

/-- A first item is on its way when a second one is added, and its add has returned. -/
def addBehindDelivery : List (Event (monitor Nat)) :=
  [.arrive, .arrive, .arrive, .step 0 .nothing 0, .call 1 (.add 1), .step 1 .nothing 0,
    .call 1 .flush, .step 1 .nothing 0, .step 1 .nothing 0, .call 2 (.add 2), .step 2 .nothing 0]

/-- A shutdown waits for that delivery only. -/
def shutdownJoins : List (Event (monitor Nat)) :=
  [.step 3 .nothing 0, .step 0 .stop 0, .step 3 .nothing 0, .step 3 .nothing 0,
    .step 1 (.outcome .accepted) 0, .step 1 .nothing 0, .step 3 .nothing 0]

/-- A shutdown can return while an item is pending whose add had returned before it was called. -/
theorem shutdown_leaves_pending :
    ∃ s called s' add reply call, (system (.empty 9 ⟨1, by decide⟩ (by decide) (by decide))
        .midrange).run addBehindDelivery = some s ∧
      (add, reply) ∈ s.returns ∧ add.request = .add 2 ∧
      s.next (.call 3 .shutdown) = some called ∧ called.run shutdownJoins = some s' ∧
      s.returnsOf 3 ++ [(call, .flushed (.ok .joined))] <+: s'.returnsOf 3 ∧
      s'.state.pending = [2] ∧ settled s' = [1] := by
  have hruns : (((system (.empty 9 ⟨1, by decide⟩ (by decide) (by decide)) .midrange).run
      addBehindDelivery).bind fun s => (s.next (.call 3 .shutdown)).bind fun called =>
        (called.run shutdownJoins).map fun s' =>
          decide ((s.returnsOf 2).map (·.1.request.offered?) = [some 2] ∧ s.returnsOf 3 = [] ∧
            (s'.returnsOf 3).map (·.2.flush?) = [some .joined] ∧ s'.state.pending = [2] ∧
            settled s' = [1])) = some true := by
    decide +kernel
  simp only [Option.bind_eq_some_iff, Option.map_eq_some_iff, decide_eq_true_eq] at hruns
  obtain ⟨s, hbefore, called, hcall, s', hafter, hadd, hnone, hjoined, hpending, hsettled⟩ := hruns
  obtain ⟨⟨add, reply⟩, hadded, hitem⟩ := List.map_eq_singleton_iff.1 hadd
  obtain ⟨call, hprefix⟩ := exists_flushed hnone hjoined
  have hmem : (add, reply) ∈ s.returns := by
    have hlast : (add, reply) ∈ s.returnsOf 2 := hadded ▸ List.mem_singleton_self _
    exact (List.mem_filter.1 hlast).1
  exact ⟨s, called, s', add, reply, call, hbefore, hmem, eq_add_of_offered? hitem, hcall, hafter,
    hprefix, hpending, hsettled⟩

end Backpressure.Buffer
