import Backpressure.Proofs.History

/-!
# The course of a call

What a call has come to when it returns depends on all that has happened since it began. A course
follows a call of one thread from some moment on. It says what holds while the call is at a place,
which the other threads must not spoil, and what holds at the moment at which a step of the call's
own makes it return.
-/

namespace Backpressure

variable {M : Monitor}

/-! ### What is kept of the past -/

/-- What notes have told is told for ever. -/
theorem told_isPrefix {Noted β : Type} (tell : Noted → Option β) {notes notes' : List Noted}
    (h : notes <:+ notes') : told tell notes <+: told tell notes' := by
  obtain ⟨new, rfl⟩ := h
  refine ⟨told tell new, ?_⟩
  simp only [told, List.filterMap_append, List.reverse_append]

/-- What a call has recorded is in the journal. -/
theorem mem_of_openCall {thread : Nat} {journal : List (Entry M)} {call : Call M} {note : M.Note}
    (h : openCall thread journal = some call) (hnote : note ∈ call.notes) :
    Entry.noted thread note ∈ journal := by
  induction journal generalizing call with
  | nil => contradiction
  | cons entry earlier ih =>
    apply List.mem_cons.2
    cases entry with
    | called t request =>
      simp only [openCall] at h
      split at h
      · cases h
        contradiction
      · exact .inr (ih h hnote)
    | noted t note' =>
      simp only [openCall] at h
      split at h
      · rename_i ht
        obtain ⟨before, hbefore, rfl⟩ := Option.map_eq_some_iff.1 h
        rcases List.mem_append.1 hnote with hold | hnew
        · exact .inr (ih hbefore hold)
        · rw [List.mem_singleton.1 hnew, ht]
          exact .inl rfl
      · exact .inr (ih h hnote)
    | returned t reply =>
      simp only [openCall] at h
      split at h
      · contradiction
      · exact .inr (ih h hnote)

theorem mem_of_returnedCalls {journal : List (Entry M)} {call : Call M} {reply : M.Reply}
    {note : M.Note} (h : (call, reply) ∈ returnedCalls journal) (hnote : note ∈ call.notes) :
    ∃ thread, Entry.noted thread note ∈ journal := by
  induction journal with
  | nil => contradiction
  | cons entry earlier ih =>
    have hold : (call, reply) ∈ returnedCalls earlier →
        ∃ thread, Entry.noted thread note ∈ entry :: earlier := fun hmem =>
      (ih hmem).imp fun _ => List.mem_cons_of_mem _
    cases entry with
    | called | noted => exact hold h
    | returned t reply' =>
      rcases List.mem_append.1 h with hnew | hmem
      · obtain ⟨call', hopen, hcall⟩ := Option.map_eq_some_iff.1 (Option.mem_toList.1 hnew)
        cases hcall
        exact ⟨t, List.mem_cons_of_mem _ (mem_of_openCall hopen hnote)⟩
      · exact hold hmem

namespace System

variable {s s' : System M} {event : Event M}

/-- A change is a step of some thread, or leaves the state and the notes alone. -/
theorem Change.moves (h : Change s event s') :
    (s'.state = s.state ∧ s'.view.notes = s.view.notes) ∨
      ∃ thread input wakee position move, event = .step thread input wakee ∧
        placeIn s.threads thread = some position ∧
        M.step s.state s.now position input = some move ∧
        s'.layout = s.layout.after thread move := by
  cases h with
  | elapse | arrive | call | rouse => exact .inl ⟨rfl, rfl⟩
  | @step thread wakee input phase position move threads here awake moves wakes =>
    refine .inr ⟨thread, input, wakee, position, move, rfl, ?_, moves, layout_step here wakes⟩
    exact placeIn_of_awake here awake

/-- A change is a step of some thread, or a call that begins, or shows in no layout. -/
theorem Change.cases_layout (h : Change s event s') :
    (s'.returns = s.returns ∧ s'.layout = s.layout) ∨
      (∃ thread request, event = .call thread request ∧ s.layout.place thread = none ∧
        s'.returns = s.returns ∧ s'.layout = { s.layout with
          place := Function.update s.layout.place thread (some (M.start request s.now)) }) ∨
      ∃ thread input wakee position move, event = .step thread input wakee ∧
        s.layout.place thread = some position ∧
        M.step s.state s.now position input = some move ∧
        s'.layout = s.layout.after thread move := by
  have hlayout : ∀ {a b : System M}, a.state = b.state → placeIn a.threads = placeIn b.threads →
      a.journal = b.journal → a.layout = b.layout := by
    intro a b hstate hplace hjournal
    simp only [System.layout, System.view, View.layout, placeIn_map_still, hstate, hplace,
      hjournal]
  cases h with
  | elapse => exact .inl ⟨rfl, hlayout rfl rfl rfl⟩
  | arrive => exact .inl ⟨rfl, hlayout rfl placeIn_append_idle rfl⟩
  | rouse here => exact .inl ⟨rfl, hlayout rfl (placeIn_rouse here) rfl⟩
  | @call thread request phase here free =>
    refine .inr (.inl ⟨thread, request, rfl, ?_, rfl, ?_⟩)
    · rw [place_layout, placeIn, here, Option.bind_some]
      cases phase <;> first | rfl | contradiction
    · simp only [System.layout, System.view, View.layout, placeIn_map_still,
        placeIn_set (List.getElem?_eq_some_iff.1 here).1, Phase.place?_ready,
        List.filterMap_cons, Entry.note?_called]
  | @step thread wakee input phase position move threads here awake moves wakes =>
    refine .inr (.inr ⟨thread, input, wakee, position, move, rfl, ?_, moves,
      layout_step here wakes⟩)
    rw [place_layout]
    exact placeIn_of_awake here awake

/-- A step of a thread is its move. -/
theorem moves_of_next {thread wakee : Nat} {input : M.Input}
    (h : s.next (.step thread input wakee) = some s') :
    ∃ position move, placeIn s.threads thread = some position ∧
      M.step s.state s.now position input = some move ∧
      s'.layout = s.layout.after thread move := by
  cases next_eq_some_iff.1 h with
  | @step _ _ _ phase position move threads here awake moves wakes =>
    refine ⟨position, move, ?_, moves, layout_step here wakes⟩
    exact placeIn_of_awake here awake

/-- A thread that has moved is where its move has led it. -/
theorem placeIn_of_layout {thread : Nat}
    {move : Move M.State M.Position M.Reply M.Condition M.Note}
    (h : s'.layout = s.layout.after thread move) :
    placeIn s'.threads thread = (Phase.ofOutcome move.outcome).place? := by
  rw [← place_layout, h]
  exact Function.update_self _ _ _

/-- A move leaves every other thread where it is. -/
theorem placeIn_of_layout_of_ne {thread t : Nat}
    {move : Move M.State M.Position M.Reply M.Condition M.Note}
    (h : s'.layout = s.layout.after thread move) (ht : t ≠ thread) :
    placeIn s'.threads t = placeIn s.threads t := by
  rw [← place_layout, h, ← place_layout]
  exact Function.update_of_ne ht _ _

/-- Once a thread has moved, a thread that is somewhere is that one, where its move has led it, or
another one that has stayed where it was. -/
theorem cases_of_layout {thread t : Nat} {position : M.Position}
    {move : Move M.State M.Position M.Reply M.Condition M.Note}
    (h : s'.layout = s.layout.after thread move) (hplace : placeIn s'.threads t = some position) :
    t = thread ∧ (Phase.ofOutcome move.outcome).place? = some position ∨
      t ≠ thread ∧ placeIn s.threads t = some position := by
  rw [← place_layout, h] at hplace
  rw [← place_layout]
  exact cases_of_update hplace

/-- No event takes time back. -/
theorem Change.now_le {event : Event M} (h : Change s event s') : s.now ≤ s'.now := by
  cases h with
  | elapse later =>
    rw [Instant.le_def, Instant.add?_eq_some_iff.1 later]
    exact Nat.le_add_right _ _
  | arrive | call | rouse | step => exact Nat.le_refl _

theorem Reachable.now_le (h : s.Reachable s') : s.now ≤ s'.now := by
  induction h with
  | start => exact Nat.le_refl _
  | next _ hnext ih => exact Nat.le_trans ih (next_eq_some_iff.1 hnext).now_le

/-- A thread that takes no step stays where it is in its call. -/
theorem ReachableBy.placeIn_eq {thread : Nat} {position : M.Position}
    (h : s.ReachableBy (fun event => ∀ input wakee, event ≠ .step thread input wakee) s')
    (hplace : placeIn s.threads thread = some position) :
    placeIn s'.threads thread = some position := by
  refine h.invariant (P := fun s => placeIn s.threads thread = some position) hplace ?_
  intro s s' event hplace haside hchange
  rw [← place_layout] at hplace ⊢
  rcases hchange.cases_layout with ⟨_, hlayout⟩ | ⟨t, _, _, hfree, _, hlayout⟩ |
    ⟨t, _, _, _, _, rfl, _, _, hlayout⟩
  · rw [hlayout]
    exact hplace
  · have ht : thread ≠ t := by
      rintro rfl
      rw [hfree] at hplace
      contradiction
    rw [hlayout]
    exact (Function.update_of_ne ht _ _).trans hplace
  · have ht : thread ≠ t := by
      rintro rfl
      exact haside _ _ rfl
    rw [hlayout]
    exact (Function.update_of_ne ht _ _).trans hplace

/-- A thread in a call is awake, or can be roused. -/
theorem exists_awake {thread : Nat} {position : M.Position}
    (hplace : placeIn s.threads thread = some position) :
    ∃ awake phase, (awake = s ∨ s.next (.rouse thread) = some awake) ∧ awake.now = s.now ∧
      awake.state = s.state ∧ awake.threads[thread]? = some phase ∧
      phase.position? = some position := by
  obtain ⟨phase, here, hphase⟩ := Option.bind_eq_some_iff.1 hplace
  cases phase with
  | idle | returned | ended => contradiction
  | ready | woken => exact ⟨s, _, .inl rfl, rfl, rfl, here, hphase⟩
  | asleep condition wakeAt p =>
    cases hphase
    refine ⟨_, .woken condition position, .inr (next_eq_some_iff.2 (.rouse here)), rfl, rfl, ?_,
      rfl⟩
    exact List.getElem?_set_self (List.getElem?_eq_some_iff.1 here).1

/-- Notes are added and never taken away. -/
theorem Change.notes_isSuffix (h : Change s event s') : s.view.notes <:+ s'.view.notes := by
  rcases h.moves with ⟨_, hnotes⟩ | ⟨thread, _, _, _, move, _, _, _, hlayout⟩
  · exact hnotes ▸ List.suffix_rfl
  · have hnotes : s'.view.notes = move.record thread ++ s.view.notes :=
      congrArg Layout.notes hlayout
    rw [hnotes]
    exact List.suffix_append _ _

theorem Reachable.notes_isSuffix (h : s.Reachable s') : s.view.notes <:+ s'.view.notes := by
  induction h with
  | start => exact List.suffix_rfl
  | next _ hnext ih => exact ih.trans (next_eq_some_iff.1 hnext).notes_isSuffix

/-- What a change adds to the calls of a thread that have returned. -/
theorem returnsOf_entries {thread t : Nat} {state : M.State} {now : Instant}
    {threads : List (Phase M)} {move : Move M.State M.Position M.Reply M.Condition M.Note} :
    (System.mk now state threads ((entries t move).reverse ++ s.journal)).returnsOf thread =
      s.returnsOf thread ++
        if t = thread then (endedBy thread move s.journal).toList else [] := by
  have hbefore : s.returns = (returnedCalls s.journal).reverse := rfl
  rw [returnsOf, returns_entries, List.filter_append, ← hbefore, ← returnsOf]
  congr 1
  have hthread : ∀ returned ∈ (endedBy t move s.journal).toList, returned.1.thread = t := by
    intro returned hmem
    rw [Option.mem_toList, endedBy] at hmem
    split at hmem
    · obtain ⟨call, hopen, rfl⟩ := Option.map_eq_some_iff.1 hmem
      have hcall : (call.record move.notes).thread = call.thread := rfl
      exact hcall.trans (thread_of_openCall hopen)
    · contradiction
  split
  · rename_i hsame
    subst hsame
    rw [List.filter_eq_self]
    intro returned hmem
    simpa using hthread returned hmem
  · rename_i hother
    rw [List.filter_eq_nil_iff]
    intro returned hmem
    simpa [hthread returned hmem] using hother

/-- A call that begins is the one that its thread is in. -/
theorem begun_of_next {thread : Nat} {request : M.Request}
    (h : s.next (.call thread request) = some s') :
    placeIn s'.threads thread = some (M.start request s.now) ∧
      openCall thread s'.journal = some { thread, request, notes := [] } ∧
      s'.returns = s.returns ∧ s'.view.notes = s.view.notes := by
  cases next_eq_some_iff.1 h with
  | @call _ _ phase here free =>
    refine ⟨?_, if_pos rfl, rfl, rfl⟩
    rw [placeIn_set (List.getElem?_eq_some_iff.1 here).1, Function.update_self]
    rfl

/-- A step of a thread is its move, once the signals of the move have been delivered. -/
theorem eq_of_next {thread wakee : Nat} {input : M.Input} {position : M.Position}
    {move : Move M.State M.Position M.Reply M.Condition M.Note}
    (h : s.next (.step thread input wakee) = some s')
    (hplace : placeIn s.threads thread = some position)
    (moves : M.step s.state s.now position input = some move) :
    ∃ threads : List (Phase M), thread < threads.length ∧
      s' = { now := s.now, state := move.state,
             threads := threads.set thread (.ofOutcome move.outcome),
             journal := (entries thread move).reverse ++ s.journal } := by
  cases next_eq_some_iff.1 h with
  | @step _ _ _ phase place move' threads here awake moves' wakes =>
    cases (placeIn_of_awake here awake).symm.trans hplace
    cases moves.symm.trans moves'
    exact ⟨threads, lt_of_deliverAll here wakes, rfl⟩

/-- A step of a thread adds the call that it brings to its end to those that have returned. -/
theorem returns_of_next {thread wakee : Nat} {input : M.Input} {position : M.Position}
    {move : Move M.State M.Position M.Reply M.Condition M.Note}
    (h : s.next (.step thread input wakee) = some s')
    (hplace : placeIn s.threads thread = some position)
    (moves : M.step s.state s.now position input = some move) :
    s'.returns = s.returns ++ (endedBy thread move s.journal).toList := by
  obtain ⟨threads, _, rfl⟩ := eq_of_next h hplace moves
  exact returns_entries

/-- A call that has returned did so by a step of its thread. -/
theorem Reachable.exists_reply {state : M.State} {now : Instant} {background : List M.Position}
    (h : (initial state now background).Reachable s) {call : Call M} {reply : M.Reply}
    (hreturned : (call, reply) ∈ s.returns) :
    ∃ before after input wakee position move, (initial state now background).Reachable before ∧
      before.next (.step call.thread input wakee) = some after ∧ after.Reachable s ∧
      after.returns = before.returns ++ [(call, reply)] ∧
      placeIn before.threads call.thread = some position ∧
      M.step before.state before.now position input = some move ∧ move.outcome = .reply reply := by
  induction h with
  | start => contradiction
  | @next s s' event hreachable hnext ih =>
    by_cases hold : (call, reply) ∈ s.returns
    · obtain ⟨before, after, input, wakee, position, move, hbefore, hstep, hafter, hrest⟩ := ih hold
      exact ⟨before, after, input, wakee, position, move, hbefore, hstep, .next hafter hnext, hrest⟩
    · cases next_eq_some_iff.1 hnext with
      | elapse | arrive | call | rouse => exact absurd hreturned hold
      | @step thread wakee input phase position move threads here awake moves wakes =>
        rw [returns_entries] at hreturned
        have hended := Option.mem_toList.1 ((List.mem_append.1 hreturned).resolve_left hold)
        have hgrown : (System.mk s.now move.state (threads.set thread (.ofOutcome move.outcome))
            ((entries thread move).reverse ++ s.journal)).returns =
            s.returns ++ [(call, reply)] := by
          rw [returns_entries, hended]
          rfl
        obtain ⟨houtcome, opened, hopen, rfl⟩ := of_endedBy hended
        cases thread_of_openCall hopen
        refine ⟨s, _, input, wakee, position, move, hreachable, hnext, .start, hgrown, ?_, moves,
          houtcome⟩
        change placeIn s.threads opened.thread = some position
        exact placeIn_of_awake here awake

/-- What the next step of a thread adds to its calls that have returned. -/
theorem returnsOf_of_next {thread wakee : Nat} {input : M.Input} {position : M.Position}
    {move : Move M.State M.Position M.Reply M.Condition M.Note}
    (h : s.next (.step thread input wakee) = some s')
    (hplace : placeIn s.threads thread = some position)
    (moves : M.step s.state s.now position input = some move) :
    s'.returnsOf thread = s.returnsOf thread ++ (endedBy thread move s.journal).toList := by
  obtain ⟨threads, _, rfl⟩ := eq_of_next h hplace moves
  rw [returnsOf_entries, if_pos rfl]

/-- A step of its own makes a call return, or leaves its thread in it. -/
theorem returns_or_goes_on {thread wakee : Nat} {input : M.Input} {position : M.Position}
    {move : Move M.State M.Position M.Reply M.Condition M.Note} {call : Call M}
    (h : s.next (.step thread input wakee) = some s')
    (hplace : placeIn s.threads thread = some position)
    (moves : M.step s.state s.now position input = some move)
    (hopen : openCall thread s.journal = some call) :
    (∃ reply, move.outcome = .reply reply ∧
      s'.returnsOf thread = s.returnsOf thread ++ [(call.record move.notes, reply)]) ∨
      (s'.returnsOf thread = s.returnsOf thread ∧
        openCall thread s'.journal = some (call.record move.notes)) := by
  obtain ⟨threads, _, rfl⟩ := eq_of_next h hplace moves
  rw [returnsOf_entries, if_pos rfl, openCall_entries, endedBy]
  cases houtcome : move.outcome with
  | reply reply =>
    left
    exact ⟨reply, rfl, by rw [hopen]; rfl⟩
  | _ =>
    right
    exact ⟨List.append_nil _, by rw [hopen]; rfl⟩

/-- A call that has returned stays so. -/
theorem Change.returnsOf_isPrefix (h : Change s event s') (thread : Nat) :
    s.returnsOf thread <+: s'.returnsOf thread := by
  cases h with
  | elapse | arrive | call | rouse => exact List.prefix_rfl
  | step =>
    rw [returnsOf_entries]
    exact List.prefix_append _ _

theorem Reachable.returnsOf_isPrefix (h : s.Reachable s') (thread : Nat) :
    s.returnsOf thread <+: s'.returnsOf thread := by
  induction h with
  | start => exact List.prefix_rfl
  | next _ hnext ih => exact ih.trans ((next_eq_some_iff.1 hnext).returnsOf_isPrefix thread)

/-- What the last call of a thread came to, where it has returned and the thread has not called
since. -/
def replyOf (s : System M) (thread : Nat) : Option M.Reply :=
  match s.threads[thread]? with
  | some (.returned reply) => some reply
  | _ => none

/-- A thread has a reply after a step that returns it, and after no other step. -/
theorem replyOf_of_next {thread wakee : Nat} {input : M.Input} {position : M.Position}
    {move : Move M.State M.Position M.Reply M.Condition M.Note}
    (h : s.next (.step thread input wakee) = some s')
    (hplace : placeIn s.threads thread = some position)
    (moves : M.step s.state s.now position input = some move) (reply : M.Reply) :
    s'.replyOf thread = some reply ↔ move.outcome = .reply reply := by
  obtain ⟨threads, hlt, rfl⟩ := eq_of_next h hplace moves
  have hphase : (threads.set thread (.ofOutcome move.outcome))[thread]? =
      some (.ofOutcome move.outcome) := List.getElem?_set_self hlt
  simp only [replyOf, hphase]
  cases move.outcome <;> simp [Phase.ofOutcome]

/-- A call that has returned since some moment did so by a step of its thread. -/
theorem Reachable.exists_return {start : System M} (h : start.Reachable s) {thread : Nat}
    {call : Call M} {reply : M.Reply}
    (hreturned : start.returnsOf thread ++ [(call, reply)] <+: s.returnsOf thread) :
    ∃ look looked input wakee, start.Reachable look ∧
      look.returnsOf thread = start.returnsOf thread ∧
      look.next (.step thread input wakee) = some looked ∧ looked.Reachable s ∧
      looked.returnsOf thread = start.returnsOf thread ++ [(call, reply)] ∧
      looked.replyOf thread = some reply := by
  induction h with
  | start => exact absurd hreturned.length_le (by simp)
  | @next s s' event hreachable hnext ih =>
    by_cases hold : start.returnsOf thread ++ [(call, reply)] <+: s.returnsOf thread
    · obtain ⟨look, looked, input, wakee, hlook, hsame, hstep, hlater, hrest⟩ := ih hold
      exact ⟨look, looked, input, wakee, hlook, hsame, hstep, .next hlater hnext, hrest⟩
    · cases next_eq_some_iff.1 hnext with
      | elapse | arrive | call | rouse => exact absurd hreturned hold
      | @step t wakee input phase position move threads here awake moves wakes =>
        have hplace : placeIn s.threads t = some position := placeIn_of_awake here awake
        rw [returnsOf_entries] at hreturned
        by_cases ht : t = thread
        · subst ht
          rw [if_pos rfl] at hreturned
          cases hended : endedBy t move s.journal with
          | none =>
            rw [hended, Option.toList_none, List.append_nil] at hreturned
            exact absurd hreturned hold
          | some returned =>
            rw [hended, Option.toList_some, List.prefix_concat_iff] at hreturned
            obtain ⟨hsame, hlast⟩ := List.append_inj' (hreturned.resolve_right hold) rfl
            cases hlast
            refine ⟨s, _, input, wakee, hreachable, hsame.symm, hnext, .start, ?_, ?_⟩
            · rw [returnsOf_entries, if_pos rfl, hended, hsame]
              rfl
            · rw [replyOf_of_next hnext hplace moves]
              exact (of_endedBy hended).1
        · rw [if_neg ht, List.append_nil] at hreturned
          exact absurd hreturned hold

/-- A thread for which more calls have returned than before has returned from one since. -/
theorem Reachable.exists_returned (h : s.Reachable s') {thread : Nat}
    (hmore : (s.returnsOf thread).length < (s'.returnsOf thread).length) :
    ∃ call reply, s.returnsOf thread ++ [(call, reply)] <+: s'.returnsOf thread := by
  obtain ⟨later, hlater⟩ := h.returnsOf_isPrefix thread
  cases later with
  | nil =>
    rw [List.append_nil] at hlater
    rw [hlater] at hmore
    exact absurd hmore (Nat.lt_irrefl _)
  | cons returned rest =>
    refine ⟨returned.1, returned.2, rest, ?_⟩
    rw [← hlater, List.append_assoc]
    rfl

/-- A thread whose first call to return has come to something. -/
theorem exists_first {β : Type} {f : Call M × M.Reply → β} {x : β} {thread : Nat}
    (hnone : s.returnsOf thread = []) (hfirst : (s'.returnsOf thread).map f = [x]) :
    ∃ call reply, s.returnsOf thread ++ [(call, reply)] <+: s'.returnsOf thread ∧
      f (call, reply) = x := by
  obtain ⟨⟨call, reply⟩, hreturned, hreply⟩ := List.map_eq_singleton_iff.1 hfirst
  refine ⟨call, reply, ?_, hreply⟩
  rw [hnone, hreturned]
  exact List.prefix_rfl

end System

/-! ### Courses -/

/-- A way to follow a call that a thread is in, from a system on. -/
structure Course (start : System M) (thread : Nat) where
  /-- What holds while the call is at a place. -/
  during : System M → M.Position → Prop
  /-- What holds as the call returns. -/
  after : System M → M.Reply → Prop
  /-- It holds at the beginning. -/
  begins : ∀ {position}, placeIn start.threads thread = some position → during start position
  /-- Other threads, and time, do not spoil it. -/
  stays : ∀ {s s' : System M} {event : Event M} {position}, start.Reachable s →
    System.Change s event s' → (∀ input wakee, event ≠ .step thread input wakee) →
    during s position → during s' position
  /-- A step of the call leads on, or to its return. -/
  goes : ∀ {s s' : System M} {input wakee position move}, start.Reachable s →
    s.returnsOf thread = start.returnsOf thread →
    s.next (.step thread input wakee) = some s' → placeIn s.threads thread = some position →
    M.step s.state s.now position input = some move →
    s'.layout = s.layout.after thread move → during s position →
    (∀ place, (Phase.ofOutcome move.outcome).place? = some place → during s' place) ∧
      ∀ reply, move.outcome = .reply reply → after s' reply

namespace Course

variable {start s s' : System M} {thread : Nat} (course : Course start thread)

/-- How a call stands that is followed: it has not returned, or it has at some moment. -/
inductive Stage (call : Call M) (s : System M) : Prop
  | lasts {notes : List M.Note} (returns : s.returnsOf thread = start.returnsOf thread)
      (opened : openCall thread s.journal = some (call.record notes))
      (during : ∀ position, placeIn s.threads thread = some position → course.during s position)
  | ended {moment : System M} {notes : List M.Note} {reply : M.Reply}
      (since : start.Reachable moment) (later : moment.Reachable s)
      (returned : start.returnsOf thread ++ [(call.record notes, reply)] <+: s.returnsOf thread)
      (after : course.after moment reply)

variable {course} {call : Call M}

/-- A step of its own takes a call further on its course. -/
theorem Stage.own {wakee : Nat} {input : M.Input} {notes : List M.Note}
    (hreachable : start.Reachable s) (hnext : s.next (.step thread input wakee) = some s')
    (returns : s.returnsOf thread = start.returnsOf thread)
    (opened : openCall thread s.journal = some (call.record notes))
    (during : ∀ position, placeIn s.threads thread = some position → course.during s position) :
    course.Stage call s' := by
  obtain ⟨position, move, hplace, moves, hlayout⟩ := System.moves_of_next hnext
  obtain ⟨hon, hreplies⟩ := course.goes hreachable returns hnext hplace moves hlayout
    (during position hplace)
  obtain ⟨reply, houtcome, hreturned⟩ | ⟨hreturns, hopened⟩ :=
    System.returns_or_goes_on hnext hplace moves opened
  · rw [returns, Call.record_record] at hreturned
    have hprefix : start.returnsOf thread ++ [(call.record (notes ++ move.notes), reply)] <+:
        s'.returnsOf thread := hreturned ▸ List.prefix_rfl
    exact .ended (.next hreachable hnext) .start hprefix (hreplies reply houtcome)
  · rw [Call.record_record] at hopened
    refine .lasts (hreturns.trans returns) hopened ?_
    intro place hmoved
    rw [System.placeIn_of_layout hlayout] at hmoved
    exact hon place hmoved

/-- A change takes a call further on its course. -/
theorem Stage.change {event : Event M} (h : course.Stage call s) (hreachable : start.Reachable s)
    (hone : OneByOne s) (hchange : System.Change s event s') : course.Stage call s' := by
  have hnext := System.next_eq_some_iff.2 hchange
  cases h with
  | ended since later returned after =>
    exact .ended since (.next later hnext) (returned.trans (hchange.returnsOf_isPrefix thread))
      after
  | @lasts notes returns opened during =>
    -- whatever is not a step of the call's own leaves it where it is
    have hstays : (∀ input wakee, event ≠ .step thread input wakee) →
        ∀ position, placeIn s.threads thread = some position → course.during s' position :=
      fun hother position hplace => course.stays hreachable hchange hother (during position hplace)
    cases hchange with
    | elapse => exact .lasts returns opened (hstays (by simp))
    | arrive =>
      refine .lasts returns opened ?_
      intro position hplace
      rw [placeIn_append_idle] at hplace
      exact hstays (by simp) position hplace
    | @call t request phase here free =>
      have ht : t ≠ thread := by
        rintro rfl
        rw [hone.free (by simp [here, free])] at opened
        contradiction
      refine .lasts returns (by simpa [openCall, ht] using opened) ?_
      intro position hplace
      rw [placeIn_set (List.getElem?_eq_some_iff.1 here).1,
        Function.update_of_ne (Ne.symm ht)] at hplace
      exact hstays (by simp) position hplace
    | @rouse t condition wakeAt p here =>
      refine .lasts returns opened ?_
      intro position hplace
      rw [placeIn_rouse here] at hplace
      exact hstays (by simp) position hplace
    | @step t wakee input phase p move threads here awake moves wakes =>
      by_cases ht : t = thread
      · subst ht
        exact .own hreachable hnext returns opened during
      · have hopened : openCall thread ((System.entries t move).reverse ++ s.journal) =
            some (call.record notes) := by
          rw [openCall_entries_of_ne ht]
          exact opened
        refine .lasts ?_ hopened ?_
        · rw [System.returnsOf_entries, if_neg ht, List.append_nil, returns]
        · intro position hposition
          rw [placeIn_deliverAll_set here wakes, Function.update_of_ne (Ne.symm ht)] at hposition
          exact hstays (by simp [ht]) position hposition

/-- Every schedule takes a call along its course. -/
theorem stage (course : Course start thread) (hone : OneByOne start)
    (hopen : openCall thread start.journal = some call) (h : start.Reachable s) :
    course.Stage call s ∧ OneByOne s := by
  induction h with
  | start =>
    have hopened : openCall thread start.journal = some (call.record []) := by simpa using hopen
    exact ⟨.lasts rfl hopened fun _ => course.begins, hone⟩
  | next hreachable hnext ih =>
    have hchange := System.next_eq_some_iff.1 hnext
    exact ⟨ih.1.change hreachable ih.2 hchange, ih.2.change hchange⟩

/-- A call that has returned has come to the end of its course at some moment. -/
theorem after_of_returned (course : Course start thread) (hone : OneByOne start)
    (hopen : openCall thread start.journal = some call) (h : start.Reachable s) {call' : Call M}
    {reply : M.Reply}
    (hreturned : start.returnsOf thread ++ [(call', reply)] <+: s.returnsOf thread) :
    call'.request = call.request ∧
      ∃ moment, start.Reachable moment ∧ moment.Reachable s ∧ course.after moment reply := by
  cases (course.stage hone hopen h).1 with
  | lasts returns =>
    rw [returns] at hreturned
    exact absurd hreturned.length_le (by simp)
  | @ended moment notes reply' since later returned after =>
    have hsame := List.prefix_of_prefix_length_le hreturned returned (by simp)
    rw [List.prefix_append_right_inj] at hsame
    cases hsame.eq_of_length rfl
    exact ⟨rfl, moment, since, later, after⟩

/-- A call whose next step is known either returns with it, or goes on and comes to the end of its
course from there. -/
theorem after_of_next {look looked : System M} {wakee : Nat} {input : M.Input}
    (course : Course looked thread) (hone : OneByOne look)
    (hopen : openCall thread look.journal = some call)
    (hlook : look.next (.step thread input wakee) = some looked)
    (hfirst : ∀ {position move reply}, placeIn look.threads thread = some position →
      M.step look.state look.now position input = some move →
      looked.layout = look.layout.after thread move → move.outcome = .reply reply →
      course.after looked reply)
    (h : looked.Reachable s) {call' : Call M} {reply : M.Reply}
    (hreturned : look.returnsOf thread ++ [(call', reply)] <+: s.returnsOf thread) :
    call'.request = call.request ∧
      ∃ moment, looked.Reachable moment ∧ moment.Reachable s ∧ course.after moment reply := by
  obtain ⟨position, move, hplace, moves, hlayout⟩ := System.moves_of_next hlook
  obtain ⟨reply', houtcome, hat⟩ | ⟨hreturns, hopened⟩ :=
    System.returns_or_goes_on hlook hplace moves hopen
  · have hsame := List.prefix_of_prefix_length_le hreturned
      (hat ▸ h.returnsOf_isPrefix thread) (by simp)
    rw [List.prefix_append_right_inj] at hsame
    cases hsame.eq_of_length rfl
    exact ⟨rfl, looked, .start, h, hfirst hplace moves hlayout houtcome⟩
  · rw [← hreturns] at hreturned
    exact course.after_of_returned (hone.change (System.next_eq_some_iff.1 hlook)) hopened h
      hreturned

end Course

end Backpressure
