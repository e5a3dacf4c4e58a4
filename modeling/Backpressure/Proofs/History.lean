import Backpressure.Proofs.View

/-!
# Calls in a journal

A journal tells of every thread which call it is in and what it has recorded in that call, and of
every call that has returned what it came to. What a call does depends on its own steps only, so a
property of calls is proved step by step of one call, whatever the other threads do.
-/

namespace Backpressure

variable {M : Monitor}

/-- A call, as a journal tells of it. -/
structure Call (M : Monitor) where
  /-- The thread that made it. -/
  thread : Nat
  /-- What it asked for. -/
  request : M.Request
  /-- What its steps have recorded, in order. -/
  notes : List M.Note

/-- A call whose steps have recorded more. -/
def Call.record (call : Call M) (notes : List M.Note) : Call M :=
  { call with notes := call.notes ++ notes }

@[simp]
theorem Call.record_nil (call : Call M) : call.record [] = call := by
  simp [Call.record]

theorem Call.record_record (call : Call M) (notes notes' : List M.Note) :
    (call.record notes).record notes' = call.record (notes ++ notes') := by
  simp [Call.record]

/-- The call that a thread is in at the end of a journal, latest entry first. -/
def openCall (thread : Nat) : List (Entry M) → Option (Call M)
  | [] => none
  | .called t request :: earlier =>
    if t = thread then some { thread, request, notes := [] } else openCall thread earlier
  | .noted t note :: earlier =>
    if t = thread then (openCall thread earlier).map (·.record [note])
    else openCall thread earlier
  | .returned t _ :: earlier => if t = thread then none else openCall thread earlier

/-- The calls that have returned by the end of a journal, latest first, each with its reply. -/
def returnedCalls : List (Entry M) → List (Call M × M.Reply)
  | [] => []
  | .returned t reply :: earlier =>
    ((openCall t earlier).map (·, reply)).toList ++ returnedCalls earlier
  | .called _ _ :: earlier | .noted _ _ :: earlier => returnedCalls earlier

/-- The calls that have returned, in the order in which they did, each with its reply. -/
def System.returns (s : System M) : List (Call M × M.Reply) := (returnedCalls s.journal).reverse

theorem thread_of_openCall {thread : Nat} {journal : List (Entry M)} {call : Call M}
    (h : openCall thread journal = some call) : call.thread = thread := by
  induction journal generalizing call with
  | nil => contradiction
  | cons entry earlier ih =>
    cases entry with
    | called t request =>
      simp only [openCall] at h
      split at h
      · cases h
        rfl
      · exact ih h
    | noted t note =>
      simp only [openCall] at h
      split at h
      · obtain ⟨before, hbefore, hcall⟩ := Option.map_eq_some_iff.1 h
        have hthread := ih hbefore
        rw [← hcall]
        exact hthread
      · exact ih h
    | returned t reply =>
      simp only [openCall] at h
      split at h
      · contradiction
      · exact ih h

/-! ### What a move adds -/

section Entries

variable {thread : Nat} {journal : List (Entry M)}
  {move : Move M.State M.Position M.Reply M.Condition M.Note}

theorem openCall_noted (notes : List M.Note) :
    openCall thread ((notes.map (Entry.noted (M := M) thread)).reverse ++ journal) =
      (openCall thread journal).map (·.record notes) := by
  induction notes generalizing journal with
  | nil => simp
  | cons note rest ih =>
    rw [List.map_cons, List.reverse_cons, List.append_assoc, List.singleton_append, ih]
    simp [openCall, Function.comp_def, Call.record_record]

theorem openCall_noted_of_ne {t : Nat} (h : t ≠ thread) (notes : List M.Note) :
    openCall thread ((notes.map (Entry.noted (M := M) t)).reverse ++ journal) =
      openCall thread journal := by
  induction notes generalizing journal with
  | nil => rfl
  | cons note rest ih =>
    rw [List.map_cons, List.reverse_cons, List.append_assoc, List.singleton_append, ih]
    simp [openCall, h]

theorem returnedCalls_noted (t : Nat) (notes : List M.Note) :
    returnedCalls ((notes.map (Entry.noted (M := M) t)).reverse ++ journal) =
      returnedCalls journal := by
  induction notes generalizing journal with
  | nil => rfl
  | cons note rest ih =>
    rw [List.map_cons, List.reverse_cons, List.append_assoc, List.singleton_append, ih]
    rfl

/-- A move leaves the thread in its call, unless the call returns. -/
theorem openCall_entries :
    openCall thread ((System.entries thread move).reverse ++ journal) =
      match move.outcome with
      | .reply _ => none
      | _ => (openCall thread journal).map (·.record move.notes) := by
  cases houtcome : move.outcome <;>
    simp [System.entries, houtcome, openCall, openCall_noted]

/-- A move does nothing to the call of another thread. -/
theorem openCall_entries_of_ne {t : Nat} (h : t ≠ thread) :
    openCall thread ((System.entries t move).reverse ++ journal) = openCall thread journal := by
  unfold System.entries
  split
  · simp [openCall, h, openCall_noted_of_ne]
  · simp [openCall_noted_of_ne h]

/-- A call returns by a move that replies, with all that its steps have recorded. -/
theorem returnedCalls_entries_of_reply {reply : M.Reply} (h : move.outcome = .reply reply) :
    returnedCalls ((System.entries thread move).reverse ++ journal) =
      ((openCall thread journal).map (·.record move.notes, reply)).toList ++
        returnedCalls journal := by
  simp [System.entries, h, returnedCalls, openCall_noted, returnedCalls_noted,
    Function.comp_def]

/-- A call returns by no other move. -/
theorem returnedCalls_entries (h : ∀ reply, move.outcome ≠ .reply reply) :
    returnedCalls ((System.entries thread move).reverse ++ journal) = returnedCalls journal := by
  cases houtcome : move.outcome with
  | reply reply => exact absurd houtcome (h reply)
  | _ => simp [System.entries, houtcome, returnedCalls_noted]

/-- The call that a move brings to its end, with its reply. -/
def endedBy (thread : Nat) (move : Move M.State M.Position M.Reply M.Condition M.Note)
    (journal : List (Entry M)) : Option (Call M × M.Reply) :=
  match move.outcome with
  | .reply reply => (openCall thread journal).map (·.record move.notes, reply)
  | _ => none

/-- A move that brings a call to its end returns its reply, with all that the call has recorded. -/
theorem of_endedBy {call : Call M} {reply : M.Reply}
    (h : endedBy thread move journal = some (call, reply)) :
    move.outcome = .reply reply ∧
      ∃ opened, openCall thread journal = some opened ∧ opened.record move.notes = call := by
  unfold endedBy at h
  split at h
  · rename_i houtcome
    obtain ⟨opened, hopen, hsame⟩ := Option.map_eq_some_iff.1 h
    cases hsame
    exact ⟨houtcome, opened, hopen, rfl⟩
  · contradiction

/-- A system after a move tells of the call that the move has brought to its end. -/
theorem returns_entries {state : M.State} {now : Instant} {threads : List (Phase M)} :
    (System.mk now state threads ((System.entries thread move).reverse ++ journal)).returns =
      (returnedCalls journal).reverse ++ (endedBy thread move journal).toList := by
  unfold System.returns endedBy
  cases houtcome : move.outcome with
  | reply reply =>
    rw [returnedCalls_entries_of_reply houtcome, List.reverse_append]
    cases openCall thread journal <;> rfl
  | _ =>
    rw [returnedCalls_entries (by simp [houtcome])]
    simp

end Entries

/-- Where every step adds to what the notes tell what it adds to the calls that have returned, the
notes and the calls tell the same. -/
theorem told_change {β : Type} {tell : Nat × M.Note → Option β}
    {of? : Call M × M.Reply → Option β} {s s' : System M} {event : Event M}
    (h : told tell s.view.notes = s.returns.filterMap of?)
    (hstep : ∀ {thread position now input move}, placeIn s.threads thread = some position →
      M.step s.state now position input = some move →
        (endedBy thread move s.journal).toList.filterMap of? =
          move.notes.filterMap fun note => tell (thread, note))
    (hchange : System.Change s event s') :
    told tell s'.view.notes = s'.returns.filterMap of? := by
  cases hchange with
  | elapse | arrive | call | rouse => exact h
  | @step thread wakee input phase position move threads here awake moves wakes =>
    have hplace : placeIn s.threads thread = some position := placeIn_of_awake here awake
    have hbefore : s.returns = (returnedCalls s.journal).reverse := rfl
    rw [returns_entries, List.filterMap_append, hstep hplace moves, ← hbefore, ← h]
    simp only [System.view]
    rw [filterMap_note?_append, told_record]

/-! ### The order of calls -/

/-- What a thread asks for in an entry of a journal. -/
def Entry.requestBy? (thread : Nat) : Entry M → Option M.Request
  | .called t request => if t = thread then some request else none
  | _ => none

/-- What a thread has asked for, in order. -/
def System.requests (s : System M) (thread : Nat) : List M.Request :=
  (s.journal.filterMap (Entry.requestBy? thread)).reverse

/-- The calls of one thread that have returned, in the order in which they did. -/
def System.returnsOf (s : System M) (thread : Nat) : List (Call M × M.Reply) :=
  s.returns.filter (·.1.thread = thread)

/-- A thread makes its calls one after the other. -/
structure OneByOne (s : System M) : Prop where
  /-- A thread that is free, or not there yet, is in no call. -/
  free : ∀ {thread}, s.threads[thread]?.all Phase.isFree = true →
    openCall thread s.journal = none
  /-- What a thread has asked for is what its calls asked for, the one that it is in last. -/
  order : ∀ thread, s.requests thread =
    (s.returnsOf thread).map (·.1.request) ++ ((openCall thread s.journal).map (·.request)).toList

section Order

variable {thread : Nat} {move : Move M.State M.Position M.Reply M.Condition M.Note}

/-- A move asks for nothing. -/
theorem filterMap_requestBy?_entries (t : Nat) :
    (System.entries thread move).filterMap (Entry.requestBy? t) = [] := by
  rw [List.filterMap_eq_nil_iff]
  intro entry hentry
  unfold System.entries at hentry
  rw [List.mem_append, List.mem_map] at hentry
  rcases hentry with ⟨note, _, rfl⟩ | hreply
  · rfl
  · split at hreply
    · rw [List.mem_singleton] at hreply
      rw [hreply]
      rfl
    · contradiction

/-- A thread that goes on with its call asks for the same as before. -/
theorem request_record (call? : Option (Call M)) (notes : List M.Note) :
    (call?.map (·.record notes)).map (·.request) = call?.map (·.request) := by
  rw [Option.map_map]
  rfl

end Order

namespace OneByOne

variable {s s' : System M} {event : Event M}

/-- A step keeps the calls of every thread apart. -/
theorem step {thread wakee : Nat} {phase : Phase M} {now : Instant} {threads : List (Phase M)}
    {move : Move M.State M.Position M.Reply M.Condition M.Note} (h : OneByOne s)
    (here : s.threads[thread]? = some phase)
    (wakes : System.deliverAll wakee move.signals s.threads = some threads) :
    OneByOne (System.mk now move.state (threads.set thread (.ofOutcome move.outcome))
      ((System.entries thread move).reverse ++ s.journal)) := by
  have hsame := System.map_deliverAll Phase.isFree_wake wakes
  have hlt : thread < threads.length := by
    have hlength : threads.length = s.threads.length := by
      simpa using congrArg List.length hsame
    exact hlength ▸ (List.getElem?_eq_some_iff.1 here).1
  constructor
  · intro t hfree
    by_cases ht : t = thread
    · subst ht
      rw [openCall_entries]
      cases houtcome : move.outcome <;>
        simp_all [Phase.ofOutcome, Phase.isFree]
    · rw [openCall_entries_of_ne (Ne.symm ht)]
      apply h.free
      have hfrees : ∀ list : List (Phase M),
          list[t]?.all Phase.isFree = (list.map Phase.isFree)[t]?.all id := by
        intro list
        rw [List.getElem?_map]
        cases list[t]? <;> rfl
      simp only [List.getElem?_set_ne (Ne.symm ht)] at hfree
      rwa [hfrees, ← hsame, ← hfrees]
  · intro t
    have hrequests : ((System.entries thread move).reverse ++ s.journal).filterMap
        (Entry.requestBy? t) = s.journal.filterMap (Entry.requestBy? t) := by
      rw [List.filterMap_append, List.filterMap_reverse, filterMap_requestBy?_entries,
        List.reverse_nil, List.nil_append]
    rw [System.requests, hrequests]
    refine (h.order t).trans ?_
    simp only [System.returnsOf, System.returns]
    by_cases ht : t = thread
    · subst ht
      rw [openCall_entries]
      cases houtcome : move.outcome with
      | reply reply =>
        rw [returnedCalls_entries_of_reply houtcome]
        cases hopen : openCall t s.journal with
        | none => simp
        | some call => simp [Call.record, thread_of_openCall hopen]
      | _ =>
        rw [returnedCalls_entries (by simp [houtcome])]
        simp only [request_record]
    · rw [openCall_entries_of_ne (Ne.symm ht)]
      cases houtcome : move.outcome with
      | reply reply =>
        rw [returnedCalls_entries_of_reply houtcome]
        cases hopen : openCall thread s.journal with
        | none => simp
        | some call => simp [Call.record, thread_of_openCall hopen, Ne.symm ht]
      | _ => rw [returnedCalls_entries (by simp [houtcome])]

/-- A change keeps the calls of every thread apart. -/
theorem change (h : OneByOne s) (hchange : System.Change s event s') : OneByOne s' := by
  cases hchange with
  | elapse _ => exact ⟨h.free, h.order⟩
  | arrive =>
    refine ⟨?_, h.order⟩
    intro t hfree
    by_cases ht : t < s.threads.length
    · simp only [List.getElem?_append_left ht] at hfree
      exact h.free hfree
    · exact h.free (by simp [List.getElem?_eq_none (Nat.le_of_not_lt ht)])
  | @call thread request phase here free =>
    have hlt := (List.getElem?_eq_some_iff.1 here).1
    have hnone : openCall thread s.journal = none := h.free (by simp [here, free])
    constructor
    · intro t hfree
      by_cases ht : t = thread
      · subst ht
        simp [hlt, Phase.isFree] at hfree
      · simp only [List.getElem?_set_ne (Ne.symm ht)] at hfree
        simpa [openCall, Ne.symm ht] using h.free hfree
    · intro t
      have horder := h.order t
      by_cases ht : t = thread
      · subst ht
        rw [hnone] at horder
        simp only [System.requests, System.returnsOf, System.returns] at horder
        simp [System.requests, System.returnsOf, System.returns, Entry.requestBy?, openCall,
          returnedCalls, horder]
      · simp only [System.requests, System.returnsOf, System.returns] at horder
        simp [System.requests, System.returnsOf, System.returns, Entry.requestBy?, openCall,
          returnedCalls, Ne.symm ht, horder]
  | @rouse thread condition wakeAt position here =>
    refine ⟨?_, h.order⟩
    intro t hfree
    by_cases ht : t = thread
    · subst ht
      simp [(List.getElem?_eq_some_iff.1 here).1, Phase.isFree] at hfree
    · simp only [List.getElem?_set_ne (Ne.symm ht)] at hfree
      exact h.free hfree
  | step here _ _ wakes => exact h.step here wakes

/-- Only the threads that are there can be in a call. -/
theorem openCall_eq_none (h : OneByOne s)
    (hnone : ∀ thread < s.threads.length, openCall thread s.journal = none) (thread : Nat) :
    openCall thread s.journal = none := by
  by_cases hthread : thread < s.threads.length
  · exact hnone thread hthread
  · exact h.free (by rw [List.getElem?_eq_none (Nat.le_of_not_lt hthread)]; rfl)

/-- At the beginning nobody has asked for anything. -/
theorem of_reachable {state : M.State} {now : Instant} {background : List M.Position}
    (h : (System.initial state now background).Reachable s) : OneByOne s := by
  refine h.reachableBy.invariant ⟨?_, ?_⟩ fun holds _ hchange => holds.change hchange
  · intro thread _
    rfl
  · intro thread
    rfl

end OneByOne

/-! ### Properties of calls -/

/-- What a call may do, step by step: how it stands to the place it is at, where it has one, and
how it stands to its reply. A thread of the system itself is at a place without a call. -/
structure CallRule (M : Monitor) where
  /-- A call may be at this place. -/
  stands : Option (Call M) → M.Position → Prop
  /-- A call may come to this reply. -/
  comes : Call M → M.Reply → Prop
  /-- A call begins in a proper place. -/
  start : ∀ thread request now, stands (some ⟨thread, request, []⟩) (M.start request now)
  /-- A step leads from a proper place to a proper place, or to a proper reply. -/
  step : ∀ {call? position state now input move}, stands call? position →
    M.step state now position input = some move →
    (∀ position', (Phase.ofOutcome move.outcome).place? = some position' →
      stands (call?.map (·.record move.notes)) position') ∧
    ∀ call reply, call? = some call → move.outcome = .reply reply →
      comes (call.record move.notes) reply

/-- Every call of a system keeps a rule. -/
structure CallRule.Holds (rule : CallRule M) (s : System M) : Prop where
  /-- Every call is at a proper place. -/
  stands : ∀ {thread position}, placeIn s.threads thread = some position →
    rule.stands (openCall thread s.journal) position
  /-- Every reply is proper. -/
  comes : ∀ {call reply}, (call, reply) ∈ s.returns → rule.comes call reply

/-- At the beginning only the threads of the system itself are somewhere. -/
theorem placeIn_initial {state : M.State} {now : Instant} {background : List M.Position}
    {thread : Nat} {position : M.Position}
    (h : placeIn (System.initial state now background).threads thread = some position) :
    position ∈ background := by
  simp only [placeIn, System.initial, List.getElem?_map, Option.bind_map,
    Option.bind_eq_some_iff] at h
  obtain ⟨p, hp, hplace⟩ := h
  cases hplace
  exact List.mem_of_getElem? hp

namespace CallRule

variable {rule : CallRule M} {s s' : System M} {event : Event M}

/-- A change keeps a rule that all calls keep. -/
theorem Holds.change (h : rule.Holds s) (hchange : System.Change s event s') : rule.Holds s' := by
  cases hchange with
  | elapse _ => exact ⟨h.stands, h.comes⟩
  | arrive =>
    refine ⟨?_, h.comes⟩
    intro thread position hplace
    rw [placeIn_append_idle] at hplace
    exact h.stands hplace
  | @call thread request phase here free =>
    have hlt := (List.getElem?_eq_some_iff.1 here).1
    refine ⟨?_, h.comes⟩
    intro t position hplace
    rw [placeIn_set hlt] at hplace
    by_cases ht : t = thread
    · subst ht
      rw [Function.update_self] at hplace
      cases hplace
      simpa [openCall] using rule.start t request s.now
    · rw [Function.update_of_ne ht] at hplace
      simpa [openCall, Ne.symm ht] using h.stands hplace
  | @rouse thread condition wakeAt position here =>
    refine ⟨?_, h.comes⟩
    intro t position' hplace
    rw [placeIn_rouse here] at hplace
    exact h.stands hplace
  | @step thread wakee input phase position move threads here awake moves wakes =>
    have hplace : placeIn s.threads thread = some position := placeIn_of_awake here awake
    have hrule := rule.step (h.stands hplace) moves
    constructor
    · intro t position' hplace'
      rw [placeIn_deliverAll_set here wakes] at hplace'
      by_cases ht : t = thread
      · subst ht
        rw [Function.update_self] at hplace'
        have hstands := hrule.1 position' hplace'
        rw [openCall_entries]
        cases houtcome : move.outcome <;> simp_all [Phase.ofOutcome]
      · rw [Function.update_of_ne ht] at hplace'
        rw [openCall_entries_of_ne (Ne.symm ht)]
        exact h.stands hplace'
    · intro call reply hreturns
      simp only [System.returns, List.mem_reverse] at hreturns
      cases houtcome : move.outcome with
      | reply r =>
        rw [returnedCalls_entries_of_reply houtcome] at hreturns
        simp only [List.mem_append, Option.mem_toList, Option.map_eq_some_iff,
          Prod.mk.injEq] at hreturns
        rcases hreturns with ⟨before, hopen, rfl, rfl⟩ | hold
        · exact hrule.2 before r hopen houtcome
        · exact h.comes (List.mem_reverse.2 hold)
      | _ =>
        rw [returnedCalls_entries (by simp [houtcome])] at hreturns
        exact h.comes (List.mem_reverse.2 hreturns)

/-- Every call of a reachable system keeps a rule that its own threads keep at the start. -/
theorem holds {state : M.State} {now : Instant} {background : List M.Position}
    (h : (System.initial state now background).Reachable s)
    (hbackground : ∀ position ∈ background, rule.stands none position) : rule.Holds s := by
  refine h.reachableBy.invariant ?_ fun holds _ hchange => holds.change hchange
  constructor
  · intro thread position hplace
    exact hbackground position (placeIn_initial hplace)
  · intro call reply hreturns
    simp [System.returns, System.initial, returnedCalls] at hreturns

/-- A thread in a call is somewhere in it, where no call ends its thread. -/
theorem exists_place {state : M.State} {now : Instant} {background : List M.Position}
    {thread : Nat} {call : Call M} (h : (System.initial state now background).Reachable s)
    (hbackground : ∀ position ∈ background, rule.stands none position)
    (hstays : ∀ {call position state now input move}, rule.stands (some call) position →
      M.step state now position input = some move → move.outcome ≠ .exit)
    (hopen : openCall thread s.journal = some call) :
    ∃ position, placeIn s.threads thread = some position := by
  induction h generalizing call with
  | start => contradiction
  | @next s s' event hreachable hnext ih =>
    have hrule := holds hreachable hbackground
    cases System.next_eq_some_iff.1 hnext with
    | elapse later => exact ih hopen
    | arrive =>
      rw [placeIn_append_idle]
      exact ih hopen
    | @call t request phase here free =>
      rw [placeIn_set (List.getElem?_eq_some_iff.1 here).1]
      by_cases ht : thread = t
      · subst ht
        exact ⟨_, Function.update_self _ _ _⟩
      · rw [Function.update_of_ne ht]
        exact ih (by simpa [openCall, Ne.symm ht] using hopen)
    | @rouse t condition wakeAt position here =>
      rw [placeIn_rouse here]
      exact ih hopen
    | @step t wakee input phase position move threads here awake moves wakes =>
      rw [placeIn_deliverAll_set here wakes]
      by_cases ht : thread = t
      · subst ht
        rw [openCall_entries] at hopen
        rw [Function.update_self]
        cases houtcome : move.outcome with
        | proceed position' => exact ⟨position', rfl⟩
        | sleep condition wakeAt position' => exact ⟨position', rfl⟩
        | reply reply =>
          rw [houtcome] at hopen
          contradiction
        | exit =>
          rw [houtcome] at hopen
          obtain ⟨before, hbefore, _⟩ := Option.map_eq_some_iff.1 hopen
          have hplace : placeIn s.threads thread = some position := placeIn_of_awake here awake
          have hstands := hrule.stands hplace
          rw [hbefore] at hstands
          exact absurd houtcome (hstays hstands moves)
      · rw [Function.update_of_ne ht]
        rw [openCall_entries_of_ne (Ne.symm ht)] at hopen
        exact ih hopen

end CallRule

end Backpressure
