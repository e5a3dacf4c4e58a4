import Backpressure.Proofs.Buffer.Calls
import Backpressure.Proofs.Buffer.Progress
import Backpressure.Proofs.Waiting

/-!
# A full buffer is flushed

An add that fills a buffer owes it a flush, and goes on owing it while it waits for the deliveries
of others. It returns once its item has been taken, and not before. Every item from the limit on has
come with such an add, so the pending items keep to the limit but for the adds that are on their
way.
-/

namespace Backpressure.Buffer

variable {α : Type}

/-- Does a thread at this place owe a flush, because it has found the buffer full? -/
def Position.owesFlush : Position α → Bool
  | .enter .add | .join .add _ | .recheck => true
  | _ => false

/-- Has a call put its item into the buffer? -/
def hasAdded (call : Call (monitor α)) : Bool := call.notes.any (·.added?.isSome)

/-- How many adds have put their item into the buffer and have not returned. -/
def unreturned (s : System (monitor α)) : Nat :=
  (List.range s.threads.length).countP fun thread => (openCall thread s.journal).any hasAdded

/-- A thread that owes a flush is there for an add whose item is in. -/
theorem purpose_of_owesFlush {position : Position α} (h : position.owesFlush = true) :
    position.purpose = .add ∧ position.offered? = none := by
  cases position with
  | enter errand | join errand =>
    cases errand <;> first | exact ⟨rfl, rfl⟩ | contradiction
  | recheck => exact ⟨rfl, rfl⟩
  | _ => contradiction

/-! ### One step -/

section Moves

variable {b : Buffer α} {now : Instant} {position : Position α} {input : Input} {move : Step α}

/-- A thread that owes a flush goes on owing it, unless there is room again. -/
theorem owes_or_room (howes : position.owesFlush = true)
    (moves : (monitor α).step b now position input = some move) :
    (move.state.pending = b.pending ∧
      ∃ place, (Phase.ofOutcome (M := monitor α) move.outcome).place? = some place ∧
        place.owesFlush = true) ∨
      move.state.pending.length < move.state.limit := by
  cases position with
  | enter errand =>
    cases errand <;> cases howes
    cases moves
    simp only [stepEnter, wait, Errand.deadline, Deadline.reached_none, Bool.false_eq_true,
      if_false]
    split
    · exact .inl ⟨rfl, _, rfl, rfl⟩
    · right
      split
      · rename_i hempty
        rw [List.isEmpty_iff.1 hempty]
        exact b.limit_pos
      · exact b.limit_pos
  | join errand round =>
    cases errand <;> cases howes
    cases moves
    simp only [stepJoin, wait, Errand.deadline, Deadline.reached_none, Bool.false_eq_true,
      if_false]
    left
    split
    · exact ⟨rfl, _, rfl, rfl⟩
    · exact ⟨rfl, _, rfl, rfl⟩
  | recheck =>
    cases moves
    unfold stepRecheck
    split
    · exact .inl ⟨rfl, _, rfl, rfl⟩
    · rename_i hroom
      right
      simpa [isDue, Move.reply] using hroom
  | append | call | deliver | record | stop | await | launch | select | inspect => contradiction

/-- The pending items grow, or are taken all together. -/
theorem pending_of_moves (moves : (monitor α).step b now position input = some move) :
    b.pending <+: move.state.pending ∨ move.state.pending = [] := by
  cases effect_of_moves moves with
  | add => exact .inl (List.prefix_append _ _)
  | take => exact .inr rfl
  | call | deliver | record => exact .inl List.prefix_rfl
  | aside noOffer free samePending =>
    rw [samePending]
    exact .inl List.prefix_rfl

/-- A thread takes what is pending and carries it, or it takes nothing, and carries only what it
has carried before. -/
theorem cases_of_taken (thread : Nat)
    (moves : (monitor α).step b now position input = some move) :
    (∃ errand, position = .enter errand ∧ b.flushing = false ∧ b.pending ≠ [] ∧
        move.notes.filterMap (fun note => taken? (thread, note)) = [(thread, b.pending)] ∧
        move.outcome = .proceed (.call errand b.pending)) ∨
      move.notes.filterMap (fun note => taken? (thread, note)) = [] ∧
        ∀ place, (Phase.ofOutcome (M := monitor α) move.outcome).place? = some place →
          place.carries = true → position.carries = true := by
  cases effect_of_moves moves with
  | @add item =>
    refine .inr ⟨rfl, ?_⟩
    intro place hplace hcarries
    simp only [stepAppend] at hplace
    split at hplace
    · cases hplace
      contradiction
    · contradiction
  | @take errand resting some => exact .inl ⟨errand, rfl, resting, some, rfl, rfl⟩
  | call | deliver | record => exact .inr ⟨rfl, fun _ _ _ => rfl⟩
  | aside noOffer free samePending sameFlushing sameRound sameTally sameLimit stays quiet =>
    refine .inr ⟨?_, ?_⟩
    · rw [List.filterMap_eq_nil_iff]
      intro note hnote
      have haside := quiet note hnote
      cases note <;> trivial
    · intro place hplace hcarries
      rw [(stays place hplace).2.1] at hcarries
      contradiction

/-- A batch is made of all that is pending. -/
theorem taken_of_moves (thread : Nat)
    (moves : (monitor α).step b now position input = some move) :
    move.notes.filterMap (fun note => taken? (thread, note)) = [] ∨
      move.notes.filterMap (fun note => taken? (thread, note)) = [(thread, b.pending)] := by
  rcases cases_of_taken thread moves with ⟨_, _, _, _, htaken, _⟩ | ⟨hnone, _⟩
  · exact .inr htaken
  · exact .inl hnone

/-- An add goes on to flush only where it has found the buffer full. -/
theorem due_of_moves (moves : (monitor α).step b now position input = some move)
    (hplace : (Phase.ofOutcome (M := monitor α) move.outcome).place? = some (.enter .add)) :
    move.state.limit ≤ move.state.pending.length := by
  have hpurpose : .add = position.purpose := (effect_of_moves moves).purpose hplace
  cases position with
  | append item =>
    cases moves
    simp only [stepAppend] at hplace ⊢
    split at hplace
    · rename_i hdue
      simpa [isDue] using hdue
    · contradiction
  | recheck =>
    cases moves
    simp only [stepRecheck] at hplace ⊢
    split at hplace
    · rename_i hdue
      rw [if_pos hdue]
      exact of_decide_eq_true hdue
    · contradiction
  | enter errand =>
    cases errand <;> cases hpurpose
    cases moves
    simp only [stepEnter, wait, Errand.deadline, Deadline.reached_none] at hplace
    split at hplace
    · cases hplace
    · split at hplace <;> cases hplace
  | join errand round =>
    cases errand <;> cases hpurpose
    cases moves
    simp only [stepJoin, wait, Errand.deadline, Deadline.reached_none] at hplace
    split at hplace <;> cases hplace
  | call errand batch =>
    cases moves
    cases hplace
  | deliver errand batch =>
    cases input <;> cases moves
    cases hplace
  | record errand size accepted =>
    cases errand <;> cases hpurpose
    cases moves
    cases accepted <;> contradiction
  | stop | await | launch | select | inspect => cases hpurpose

/-- An item from the limit on comes with a thread that owes a flush, and that thread does not leave
before there is room again. -/
theorem owed_of_moves {owing owing' : Nat} (h : b.pending.length < b.limit + owing)
    (moves : (monitor α).step b now position input = some move)
    (hcount : owing' + position.owesFlush.toNat = owing +
      ((Phase.ofOutcome (M := monitor α) move.outcome).place?.any Position.owesFlush).toNat) :
    move.state.pending.length < move.state.limit + owing' := by
  have hlimit := limit_of_moves moves
  by_cases howes : position.owesFlush = true
  · rcases owes_or_room howes moves with ⟨hpending, place, hplace, howing⟩ | hroom
    · simp only [howes, hplace, Option.any_some, howing] at hcount
      rw [hpending, hlimit]
      omega
    · omega
  · rw [eq_false_of_ne_true howes, Bool.toNat_false] at hcount
    cases effect_of_moves moves with
    | @add item =>
      -- the new item brings its own debtor along, or leaves room
      simp only [stepAppend] at hcount ⊢
      split at hcount
      · have howing : (Phase.ofOutcome (M := monitor α)
            (.proceed (.enter .add))).place?.any Position.owesFlush = true := rfl
        rw [howing, Bool.toNat_true] at hcount
        simp only [append, List.length_append, List.length_singleton]
        omega
      · rename_i hroom
        have hroom' : (b.append item).pending.length < (b.append item).limit := by
          simpa [isDue] using hroom
        omega
    | take => exact Nat.lt_of_lt_of_le b.limit_pos (Nat.le_add_right _ _)
    | call | deliver | record =>
      exact Nat.lt_of_lt_of_le h (Nat.add_le_add_left (by omega) _)
    | aside noOffer free samePending =>
      rw [samePending, hlimit]
      omega

end Moves

/-! ### Whole runs -/

/-- Every item from the limit on has a thread that owes a flush. -/
def Owed (s : System (monitor α)) : Prop :=
  s.state.pending.length <
    s.state.limit + threadsAt (M := monitor α) Position.owesFlush s.threads

theorem Owed.change {s s' : System (monitor α)} {event : Event (monitor α)} (h : Owed s)
    (hchange : System.Change s event s') : Owed s' := by
  unfold Owed at h ⊢
  cases hchange with
  | elapse => exact h
  | arrive =>
    rw [threadsAt_append_idle]
    exact h
  | @call thread request phase here free =>
    have hset := threadsAt_set_add Position.owesFlush here
      (.ready ((monitor α).start request s.now))
    have hbefore : phase.place?.any Position.owesFlush = false := by
      cases phase <;> first | rfl | contradiction
    have hafter : (Phase.ready (M := monitor α)
        ((monitor α).start request s.now)).place?.any Position.owesFlush = false := by
      cases request <;> rfl
    rw [hbefore, hafter] at hset
    exact Nat.lt_of_lt_of_le h (Nat.add_le_add_left (Nat.le_of_eq hset.symm) _)
  | @rouse thread condition wakeAt position here =>
    have hset := threadsAt_set_add Position.owesFlush here
      (.woken (M := monitor α) condition position)
    have hsame := (Nat.add_right_cancel hset).symm
    exact Nat.lt_of_lt_of_le h (Nat.add_le_add_left (Nat.le_of_eq hsame) _)
  | step here awake moves wakes =>
    exact owed_of_moves h moves (threadsAt_move here awake wakes _)

section Runs

variable {limit : Nat} {interval : Duration} {limit_pos : 0 < limit}
  {interval_pos : 0 < interval.nanos} {now : Instant} {s s' : System (monitor α)}

/-- A thread that owes a flush is in an add that has put its item in. -/
theorem hasAdded_of_owesFlush {b : Buffer α} (h : (system b now).Reachable s) {thread : Nat}
    {position : Position α} (hplace : placeIn s.threads thread = some position)
    (howes : position.owesFlush = true) : (openCall thread s.journal).any hasAdded = true := by
  have hpurpose := purpose_of_owesFlush howes
  obtain ⟨call, hopen, hrequest⟩ := exists_openCall h hplace (by rw [hpurpose.1]; decide)
  have hadded : call.notes.filterMap Note.added? ++ position.offered?.toList =
      call.request.offered?.toList := (rule_holds h).stands hplace call hopen
  rw [hpurpose.2, Option.toList_none, List.append_nil] at hadded
  rw [hopen, Option.any_some, hasAdded, List.any_eq_true]
  rw [hpurpose.1] at hrequest
  cases hasked : call.request with
  | add item =>
    have hitem : item ∈ call.notes.filterMap Note.added? := by
      rw [hadded, hasked]
      exact List.mem_singleton_self item
    obtain ⟨note, hnote, hsome⟩ := List.mem_filterMap.1 hitem
    exact ⟨note, hnote, by rw [hsome]; rfl⟩
  | _ =>
    rw [hasked] at hrequest
    contradiction

/-- Whoever owes a flush has not returned from an add. -/
theorem threadsAt_le_unreturned {b : Buffer α} (h : (system b now).Reachable s) :
    threadsAt (M := monitor α) Position.owesFlush s.threads ≤ unreturned s := by
  rw [threadsAt, countP_eq_range]
  apply List.countP_mono_left
  intro thread _ howes
  obtain ⟨phase, hphase, hany⟩ := (Option.any_eq_true _ _).1 howes
  obtain ⟨position, hposition, howing⟩ := (Option.any_eq_true _ _).1 hany
  exact hasAdded_of_owesFlush h (by simp [placeIn, hphase, hposition]) howing

theorem owed (h : (system (.empty limit interval limit_pos interval_pos) now).Reachable s) :
    s.state.pending.length <
      limit + threadsAt (M := monitor α) Position.owesFlush s.threads := by
  have howed : Owed s := by
    refine h.reachableBy.invariant ?_ fun howed _ hchange => howed.change hchange
    exact Nat.lt_of_lt_of_le limit_pos (Nat.le_add_right _ _)
  rwa [Owed, limit_eq h] at howed

/-- The pending items keep to the limit, but for the adds that have not returned. -/
theorem length_pending_le
    (h : (system (.empty limit interval limit_pos interval_pos) now).Reachable s) :
    s.state.pending.length ≤ limit - 1 + unreturned s := by
  have howed := owed h
  have hreturned := threadsAt_le_unreturned h
  omega

/-- Where no add is in progress, nobody owes a flush. -/
theorem threadsAt_eq_zero {b : Buffer α} (h : (system b now).Reachable s)
    (hnone : ∀ thread call, openCall thread s.journal = some call →
      call.request.purpose ≠ .add) :
    threadsAt (M := monitor α) Position.owesFlush s.threads = 0 := by
  rw [threadsAt, countP_eq_range, List.countP_eq_zero]
  intro thread _ howes
  obtain ⟨phase, hphase, hany⟩ := (Option.any_eq_true _ _).1 howes
  obtain ⟨position, hposition, howing⟩ := (Option.any_eq_true _ _).1 hany
  have hplace : placeIn s.threads thread = some position := by simp [placeIn, hphase, hposition]
  have hpurpose := (purpose_of_owesFlush howing).1
  obtain ⟨call, hopen, hadd⟩ := exists_openCall h hplace (by rw [hpurpose]; decide)
  exact hnone thread call hopen (hadd.trans hpurpose)

/-- What fills a buffer stays in it, and it stays full, until it is taken. -/
theorem batched_or_full
    (h : (system (.empty limit interval limit_pos interval_pos) now).Reachable s)
    (hfull : limit ≤ s.state.pending.length) (hlater : s.Reachable s') :
    additions s <+: batched s' ∨ limit ≤ s'.state.pending.length := by
  induction hlater with
  | start => exact .inr hfull
  | @next s₁ s₂ event hbetween hnext ih =>
    have hlater : s₁.Reachable s₂ := .single hnext
    rcases ih with htaken | hstill
    · exact .inl (htaken.trans (batched_isPrefix hlater))
    · rcases (System.next_eq_some_iff.1 hnext).moves
        with ⟨hstate, _⟩ | ⟨thread, input, wakee, position, move, _, _, moves, hlayout⟩
      · rw [hstate]
        exact .inr hstill
      · have hstate : s₂.state = move.state := congrArg Layout.state hlayout
        rcases pending_of_moves moves with hgrown | hempty
        · rw [hstate]
          exact .inr (Nat.le_trans hstill hgrown.length_le)
        · have hall := batched_append_pending ((h.trans hbetween).trans hlater)
          rw [hstate, hempty, List.append_nil] at hall
          rw [hall]
          exact .inl (additions_isPrefix (hbetween.trans hlater))

/-- The course of an add that has found the buffer full: it owes a flush until its item has been
taken. -/
def fullCourse (h : (system (.empty limit interval limit_pos interval_pos) now).Reachable s)
    (hfull : limit ≤ s.state.pending.length) (thread : Nat)
    (hplace : placeIn s.threads thread = some (.enter .add)) : Course s thread where
  during s' position := additions s <+: batched s' ∨ position.owesFlush = true
  after s' _ := additions s <+: batched s'
  begins := by
    intro position hposition
    rw [hplace] at hposition
    cases hposition
    exact .inr rfl
  stays := by
    intro s₁ s₂ event position _ hchange _ hduring
    have hlater := batched_isPrefix (System.Reachable.single (System.next_eq_some_iff.2 hchange))
    exact hduring.imp (fun htaken => htaken.trans hlater) id
  goes := by
    intro s₁ s₂ input wakee position move hreachable _ hnext _ moves hlayout hduring
    have hlater := batched_isPrefix (System.Reachable.single hnext)
    have hstate : s₂.state = move.state := congrArg Layout.state hlayout
    have hwhole := hreachable.trans (.single hnext)
    have hsettled : additions s <+: batched s₂ ∨
        ∃ place, (Phase.ofOutcome (M := monitor α) move.outcome).place? = some place ∧
          place.owesFlush = true := by
      rcases hduring with htaken | howes
      · exact .inl (htaken.trans hlater)
      · rcases owes_or_room howes moves with ⟨_, hstays⟩ | hroom
        · exact .inr hstays
        · -- a buffer stays full until it is taken, so room tells that it has been
          rw [← hstate, limit_eq (h.trans hwhole)] at hroom
          left
          exact (batched_or_full h hfull hwhole).resolve_right (Nat.not_le.2 hroom)
    constructor
    · intro place hplace'
      refine hsettled.imp id ?_
      rintro ⟨place', hplace'', howing⟩
      rw [hplace'] at hplace''
      cases hplace''
      exact howing
    · intro reply hreply
      refine hsettled.resolve_right ?_
      rintro ⟨place', hplace'', _⟩
      rw [hreply] at hplace''
      contradiction

/-- An add puts its item in, and owes a flush if it has filled the buffer. -/
theorem add_of_next {thread wakee : Nat} {item : α} {input : Input}
    (hplace : placeIn s.threads thread = some (.append item))
    (hnext : s.next (.step thread input wakee) = some s') :
    additions s' = additions s ++ [item] ∧
      (s'.state.limit ≤ s'.state.pending.length →
        placeIn s'.threads thread = some (.enter .add)) := by
  obtain ⟨position, move, hposition, moves, hlayout⟩ := System.moves_of_next hnext
  rw [hplace] at hposition
  cases hposition
  cases moves
  have hnotes : s'.view.notes = (stepAppend s.state item).record thread ++ s.view.notes :=
    congrArg Layout.notes hlayout
  have hstate : s'.state = s.state.append item := congrArg Layout.state hlayout
  constructor
  · rw [additions, hnotes, told_record]
    rfl
  · intro hfull
    have hdue : (s.state.append item).isDue = true := by
      rw [← hstate]
      exact decide_eq_true hfull
    rw [System.placeIn_of_layout hlayout]
    simp only [stepAppend, hdue, if_true]
    rfl

/-- An add that has found the buffer full returns once its item has been taken. -/
theorem isPrefix_batched
    (h : (system (.empty limit interval limit_pos interval_pos) now).Reachable s)
    {thread : Nat} (hplace : placeIn s.threads thread = some (.enter .add))
    (hfull : limit ≤ s.state.pending.length) (hlater : s.Reachable s')
    {call : Call (monitor α)} {reply : Reply α}
    (hreturned : s.returnsOf thread ++ [(call, reply)] <+: s'.returnsOf thread) :
    additions s <+: batched s' := by
  obtain ⟨call', hopen, _⟩ := exists_openCall h hplace nofun
  obtain ⟨_, moment, _, hmoment, htaken⟩ := (fullCourse h hfull thread hplace).after_of_returned
    (.of_reachable h) hopen hlater hreturned
  exact htaken.trans (batched_isPrefix hmoment)

/-- A batch that is new after an event was all that was pending before it. -/
theorem taken_of_next {event : Event (monitor α)} (hnext : s.next event = some s')
    {load : Nat × List α} (hload : load ∈ taken s') :
    load ∈ taken s ∨ (taken s' = taken s ++ [load] ∧ load.2 = s.state.pending) := by
  rcases (System.next_eq_some_iff.1 hnext).moves
    with ⟨_, hnotes⟩ | ⟨thread, _, _, _, move, _, _, moves, hlayout⟩
  · left
    rwa [taken, hnotes] at hload
  · have hnotes : s'.view.notes = move.record thread ++ s.view.notes :=
      congrArg Layout.notes hlayout
    have htaken : taken s' = taken s ++ move.notes.filterMap fun note => taken? (thread, note) := by
      rw [taken, hnotes, told_record]
      rfl
    rcases taken_of_moves thread moves with hnone | hone
    · left
      rwa [htaken, hnone, List.append_nil] at hload
    · rw [hone] at htaken
      rw [htaken] at hload
      rcases List.mem_append.1 hload with hold | hnew
      · exact .inl hold
      · cases List.mem_singleton.1 hnew
        exact .inr ⟨htaken, rfl⟩

/-- A batch was taken at some moment, and was then all that was pending. -/
theorem exists_take {start : System (monitor α)} (hnone : taken start = [])
    (h : start.Reachable s) {load : Nat × List α} (hload : load ∈ taken s) :
    ∃ before event after, start.Reachable before ∧ before.next event = some after ∧
      after.Reachable s ∧ taken after = taken before ++ [load] ∧
      load.2 = before.state.pending := by
  induction h with
  | start =>
    rw [hnone] at hload
    contradiction
  | @next s s' event hreachable hnext ih =>
    rcases taken_of_next hnext hload with hold | ⟨htaken, hpending⟩
    · obtain ⟨before, earlier, after, hbefore, htakes, hafter, hload⟩ := ih hold
      exact ⟨before, earlier, after, hbefore, htakes, .next hafter hnext, hload⟩
    · exact ⟨s, event, s', hreachable, hnext, .start, htaken, hpending⟩

/-- A full buffer is flushed, whatever threads and the sink do. The pending items stay below the
limit but for one item for each add that has put its item in and has not returned, and so does every
batch that the sink is called with, at the moment at which it is taken. While no add is in progress
they stay below the limit. An add that has found the buffer full returns only once its item, and all
that was added before it, has been taken. -/
theorem full_buffer_flushed
    (h : (system (.empty limit interval limit_pos interval_pos) now).Reachable s) :
    s.state.pending.length ≤ limit - 1 + unreturned s ∧
      (∀ load ∈ sinkCalls s, ∃ before event after,
        (system (.empty limit interval limit_pos interval_pos) now).Reachable before ∧
          before.next event = some after ∧ after.Reachable s ∧
          taken after = taken before ++ [load] ∧ load.2 = before.state.pending ∧
          load.2.length ≤ limit - 1 + unreturned before) ∧
      ((∀ thread call, openCall thread s.journal = some call → call.request.purpose ≠ .add) →
        s.state.pending.length < limit) ∧
      ∀ thread item input wakee s₁ s₂ call reply,
        placeIn s.threads thread = some (.append item) →
        s.next (.step thread input wakee) = some s₁ → limit ≤ s₁.state.pending.length →
        s₁.Reachable s₂ → s₁.returnsOf thread ++ [(call, reply)] <+: s₂.returnsOf thread →
        additions s₁ = additions s ++ [item] ∧ additions s₁ <+: batched s₂ ∧
          batched s₂ ++ s₂.state.pending = additions s₂ := by
  refine ⟨length_pending_le h, ?_, ?_, ?_⟩
  · intro load hload
    have hcalled := ((ledger h).flight.prefixes (ledger h).batches).1
    obtain ⟨before, event, after, hbefore, hnext, hafter, htaken, hpending⟩ :=
      exists_take rfl h (hcalled.subset hload)
    refine ⟨before, event, after, hbefore, hnext, hafter, htaken, hpending, ?_⟩
    rw [hpending]
    exact length_pending_le hbefore
  · intro hnone
    have howed := owed h
    rwa [threadsAt_eq_zero h hnone, Nat.add_zero] at howed
  · intro thread item input wakee s₁ s₂ call reply hplace hnext hfull hlater hreturned
    have h₁ := h.next hnext
    obtain ⟨hadded, howes⟩ := add_of_next hplace hnext
    rw [limit_eq h₁] at howes
    exact ⟨hadded, isPrefix_batched h₁ (howes hfull) hfull hlater hreturned,
      batched_append_pending (h₁.trans hlater)⟩

end Runs

/-- While one thread delivers a first item, another one adds two more, and is about to put the
second of them in. -/
def fillDuringDelivery : List (Event (monitor Nat)) :=
  [.arrive, .arrive, .call 1 (.add 1), .step 1 .nothing 0, .call 1 .flush, .step 1 .nothing 0,
    .step 1 .nothing 0, .call 2 (.add 2), .step 2 .nothing 0, .call 2 (.add 3)]

/-- The add waits for the delivery, finds the buffer still full, and delivers itself. -/
def joinThenDeliver : List (Event (monitor Nat)) :=
  [.step 2 .nothing 0, .step 1 (.outcome .accepted) 0, .step 1 .nothing 0, .step 2 .nothing 0,
    .step 2 .nothing 0, .step 2 .nothing 0, .step 2 .nothing 0, .step 2 (.outcome .accepted) 0,
    .step 2 .nothing 0]

theorem full_buffer_flushed_joinThenDeliver :
    ∃ s s₁ s₂, (system (.empty 2 ⟨1, by decide⟩ (by decide) (by decide)) .midrange).run
        fillDuringDelivery = some s ∧
      s.next (.step 2 .nothing 0) = some s₁ ∧ s₁.run joinThenDeliver = some s₂ ∧
      s₁.state.pending = [2, 3] ∧ unreturned s₁ = 1 ∧
      s₁.state.pending.length ≤ 2 - 1 + unreturned s₁ ∧ sinkCalls s₂ = [(1, [1]), (2, [2, 3])] ∧
      additions s₁ = additions s ++ [3] ∧ additions s₁ <+: batched s₂ ∧
      batched s₂ ++ s₂.state.pending = additions s₂ := by
  have hruns : (((system (.empty 2 ⟨1, by decide⟩ (by decide) (by decide)) .midrange).run
      fillDuringDelivery).bind fun s => (s.next (.step 2 .nothing 0)).bind fun s₁ =>
        (s₁.run joinThenDeliver).map fun s₂ =>
          decide (placeIn s.threads 2 = some (.append 3) ∧ s₁.state.pending = [2, 3] ∧
            unreturned s₁ = 1 ∧ sinkCalls s₂ = [(1, [1]), (2, [2, 3])] ∧
            (s₁.returnsOf 2).length < (s₂.returnsOf 2).length)) = some true := by
    decide +kernel
  simp only [Option.bind_eq_some_iff, Option.map_eq_some_iff, decide_eq_true_eq] at hruns
  obtain ⟨s, hfill, s₁, hadd, s₂, hdeliver, hplace, hpending, hone, hcalls, hmore⟩ := hruns
  have h := System.Reachable.start.run hfill
  have hlater := System.Reachable.start.run hdeliver
  obtain ⟨call, reply, hreturned⟩ := hlater.exists_returned hmore
  exact ⟨s, s₁, s₂, hfill, hadd, hdeliver, hpending, hone,
    (full_buffer_flushed (h.next hadd)).1, hcalls,
    (full_buffer_flushed h).2.2.2 2 3 .nothing 0 s₁ s₂ call reply hplace hadd
      (by rw [hpending]; decide) hlater hreturned⟩

end Backpressure.Buffer
