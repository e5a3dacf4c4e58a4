import Backpressure.Proofs.Writer.Roles

/-!
# What calls on a writer come to

A call on a writer keeps to what it was made for: who offers an item to the channel was asked to
write it, and who closes the writer was asked to close it. So the channel accepts the items of the
writes that succeed, in the order in which they return, and a close returns as it gives the lock on
the pump back.
-/

namespace Backpressure.Writer

variable {α : Type}

/-- The item that a call wants to write. -/
def Request.offered? : Request α → Option α
  | .write item | .writeTimeout item _ => some item
  | .channel request => request.offered?
  | _ => none

/-- Does a call want to close the writer? -/
def Request.isClose : Request α → Bool
  | .close => true
  | _ => false

/-- Did a write succeed? -/
def Reply.isWritten : Reply α → Bool
  | .channel reply => reply.isPushed
  | _ => false

/-- The item that a thread at this place wants to write. -/
def Position.offered? : Position α → Option α
  | .channel .own position => position.offered?
  | _ => none

/-- Is a thread at this place closing the writer? -/
def Position.isClosing : Position α → Bool
  | .channel .close _ | .lock | .join | .buffer .close _ | .release _ => true
  | _ => false

theorem offered?_start (request : Request α) (now : Instant) :
    (start request now).offered? = request.offered? := by
  cases request with
  | channel request => exact Channel.offered?_start request now
  | _ => rfl

theorem isClosing_start (request : Request α) (now : Instant) :
    (start request now).isClosing = request.isClose := by
  cases request <;> rfl

section Effect

variable {purposes : Buffer.Purpose → Prop} {w : Writer α} {now : Instant}
  {position place : Position α} {move : Step α}

/-- A call that goes on keeps to what it was made for. -/
theorem keeps_of_effect (h : Effect w now position move)
    (hplace : (Phase.ofOutcome (M := monitor α) move.outcome).place? = some place) :
    place.offered? = position.offered? ∧ place.isClosing = position.isClosing := by
  cases h with
  | @channel task p channelMove moves =>
    rcases cases_of_embed (W := monitor α) (M := Channel.monitor α) hplace
      with ⟨p', rfl, hstays⟩ | ⟨reply, _, hafter⟩
    · obtain ⟨rfl, _⟩ := (Channel.effect_of_moves moves).stay hstays
      exact ⟨rfl, rfl⟩
    · unfold afterChannel at hafter
      split at hafter <;> cases hafter <;> exact ⟨rfl, rfl⟩
  | @buffer task p input bufferMove moves =>
    rcases cases_of_embed (W := monitor α) (M := Buffer.monitor α) hplace
      with ⟨p', rfl, _⟩ | ⟨reply, _, hafter⟩
    · cases task <;> exact ⟨rfl, rfl⟩
    · unfold afterBuffer at hafter
      split at hafter <;> cases hafter <;> exact ⟨rfl, rfl⟩
  | lock free =>
    simp only [Move.proceed] at hplace
    split at hplace <;> cases hplace <;> exact ⟨rfl, rfl⟩
  | join ended =>
    cases hplace
    exact ⟨rfl, rfl⟩
  | release | drained | inspect => contradiction

/-- A close returns as it gives the lock back, with the outcome of the last flush. -/
theorem release_of_reply {reply : Reply α} (h : Effect w now position move)
    (hclosing : position.isClosing = true) (hreply : move.outcome = .reply reply) :
    ∃ flush, position = .release flush ∧ reply = .closed flush ∧
      move = .reply { w with locked := false } (.closed flush) := by
  cases h with
  | @release flush =>
    cases hreply
    exact ⟨flush, rfl, rfl, rfl⟩
  | @channel task p channelMove moves =>
    cases task with
    | close =>
      simp only [Move.embed] at hreply
      cases houtcome : channelMove.outcome <;> simp_all [afterChannel]
    | own | pump => contradiction
  | @buffer task p input bufferMove moves =>
    cases task with
    | close =>
      simp only [Move.embed] at hreply
      cases houtcome : bufferMove.outcome with
      | reply bufferReply =>
        simp only [houtcome, afterBuffer] at hreply
        split at hreply <;> contradiction
      | _ => simp [houtcome] at hreply
    | own | pump => contradiction
  | lock | join => contradiction
  | drained | inspect => contradiction

end Effect

/-- A call keeps to what it was made for, and a close comes to the outcome of a flush. -/
def rule (α : Type) : CallRule (monitor α) where
  stands call? position :=
    call?.bind (·.request.offered?) = position.offered? ∧
      call?.any (·.request.isClose) = position.isClosing
  comes call reply := call.request.isClose = true → ∃ flush, reply = .closed flush
  start thread request now :=
    ⟨(offered?_start request now).symm, (isClosing_start request now).symm⟩
  step := by
    intro call? position state now input move hstands moves
    have heffect := effect_of_moves moves
    constructor
    · intro place hplace
      obtain ⟨hoffered, hclosing⟩ := keeps_of_effect heffect hplace
      rw [hoffered, hclosing, ← hstands.1, ← hstands.2]
      cases call? <;> exact ⟨rfl, rfl⟩
    · rintro call reply rfl hreply hclose
      have hclosing : position.isClosing = true := hstands.2.symm.trans hclose
      obtain ⟨flush, _, hclosed, _⟩ := release_of_reply heffect hclosing hreply
      exact ⟨flush, hclosed⟩

/-- Every call on a writer keeps its rule. -/
theorem rule_holds {w : Writer α} {now : Instant} {s : System (monitor α)}
    (h : (system w now).Reachable s) : (rule α).Holds s := by
  refine CallRule.holds h ?_
  intro position hposition
  simp only [List.mem_cons, List.not_mem_nil, or_false] at hposition
  rcases hposition with rfl | rfl <;> exact ⟨rfl, rfl⟩

/-! ### Writes -/

/-- The item that a note says the channel accepted. -/
def accepted? (noted : Nat × Note α) : Option α := noted.2.ofChannel?.bind Channel.Note.accepted?

/-- The items that the channel has accepted, in the order in which it did. -/
def accepted (s : System (monitor α)) : List α := told accepted? s.view.notes

/-- The item that a call wrote, if it is a write that succeeded. -/
def writeOf? (returned : Call (monitor α) × Reply α) : Option α :=
  if returned.2.isWritten then returned.1.request.offered? else none

/-- The items of the writes that have succeeded, in the order in which they returned. -/
def written (s : System (monitor α)) : List α := s.returns.filterMap writeOf?

section Writes

variable {purposes : Buffer.Purpose → Prop} {w : Writer α} {now : Instant}
  {position : Position α} {move : Step α}

theorem filterMap_accepted? (thread : Nat) (notes : List (Note α)) :
    notes.filterMap (fun note => accepted? (thread, note)) =
      (notes.filterMap Note.ofChannel?).filterMap Channel.Note.accepted? := by
  rw [List.filterMap_filterMap]
  rfl

/-- The channel accepts an item by the last step of the write that offers it. -/
theorem accepts_of_effect (h : Effect w now position move) (hsuits : position.Suits purposes) :
    (move.notes.filterMap Note.ofChannel?).filterMap Channel.Note.accepted? =
      match move.outcome with
      | .reply reply => (if reply.isWritten then position.offered? else none).toList
      | _ => [] := by
  cases h with
  | @channel task p channelMove moves =>
    have heffect := Channel.effect_of_moves moves
    simp only [Move.embed, filterMap_ofChannel?_channel]
    cases task with
    | own =>
      cases houtcome : channelMove.outcome with
      | reply reply => exact (heffect.tells houtcome).1
      | _ =>
        rw [heffect.notes_eq_nil (by simp [houtcome])]
        rfl
    | close =>
      obtain rfl : p = .close := hsuits
      rw [heffect.adds_nothing rfl]
      cases channelMove.outcome <;> rfl
    | pump =>
      obtain rfl : p = .poll none := hsuits
      rw [heffect.adds_nothing rfl]
      split <;> simp [Position.offered?]
  | @buffer task p input bufferMove moves =>
    simp only [Move.embed, filterMap_ofChannel?_buffer, List.filterMap_nil]
    split <;> simp [Position.offered?]
  | lock | join | release | drained | inspect => rfl

/-- A closed channel stays closed, and accepts nothing more. -/
theorem closed_of_effect (h : Effect w now position move) (hclosed : w.channel.closed = true) :
    move.state.channel.closed = true ∧
      (move.notes.filterMap Note.ofChannel?).filterMap Channel.Note.accepted? = [] := by
  cases h with
  | channel moves =>
    simp only [Move.embed, filterMap_ofChannel?_channel]
    exact (Channel.effect_of_moves moves).closed hclosed
  | buffer =>
    simp only [Move.embed, filterMap_ofChannel?_buffer]
    exact ⟨hclosed, rfl⟩
  | lock | join | release | drained | inspect => exact ⟨hclosed, rfl⟩

/-- A write that returns is the one whose item the channel has accepted. -/
theorem endedBy_writeOf? {s : System (monitor α)} {thread : Nat} {input : Buffer.Input}
    (hrule : (rule α).Holds s) (hposts : Posts purposes s.layout)
    (hplace : placeIn s.threads thread = some position)
    (moves : (monitor α).step s.state now position input = some move) :
    (endedBy thread move s.journal).toList.filterMap writeOf? =
      move.notes.filterMap fun note => accepted? (thread, note) := by
  have hoffers := (hrule.stands hplace).1
  rw [← System.place_layout] at hplace
  rw [filterMap_accepted?, accepts_of_effect (effect_of_moves moves) (hposts.suits hplace), endedBy]
  cases move.outcome with
  | reply reply =>
    rw [← hoffers]
    cases openCall thread s.journal with
    | none => simp
    | some call =>
      simp only [Option.map_some, Option.toList_some, Option.bind_some]
      cases hone : writeOf? (call.record move.notes, reply) <;> simp_all [writeOf?, Call.record]
  | _ => rfl

end Writes

/-- The channel has accepted the items of the writes that have succeeded, in order. -/
theorem accepted_eq_written {purposes : Buffer.Purpose → Prop} {w : Writer α} {now : Instant}
    {s : System (monitor α)} (h : (system w now).ReachableBy (Client purposes) s) :
    accepted s = written s := by
  induction h with
  | start => rfl
  | @next s s' event hreachable _ hnext ih =>
    have hbefore : told accepted? s.view.notes = s.returns.filterMap writeOf? := ih
    have hrule := rule_holds hreachable.reachable
    have hposts := Posts.of_reachable hreachable.layout
    exact told_change hbefore (endedBy_writeOf? hrule hposts) (System.next_eq_some_iff.1 hnext)

/-! ### Closes -/

/-- The closes that have returned, in the order in which they did, each with its outcome. -/
def closes (s : System (monitor α)) : List (Call (monitor α) × Reply α) :=
  s.returns.filter (·.1.request.isClose)

/-- The step that gives the lock on the pump back is the one by which a close returns. -/
theorem closes_of_step {s s' : System (monitor α)} {thread wakee : Nat} {input : Buffer.Input}
    {position : Position α} (hrule : (rule α).Holds s)
    (hnext : s.next (.step thread input wakee) = some s')
    (hplace : s.layout.place thread = some position) :
    (∃ flush call, position = .release flush ∧
        closes s' = closes s ++ [(call, .closed flush)]) ∨
      (∀ flush, position ≠ .release flush) ∧ closes s' = closes s := by
  rw [System.place_layout] at hplace
  cases System.next_eq_some_iff.1 hnext with
  | @step _ _ _ phase place move threads here awake moves wakes =>
    obtain rfl : place = position := by
      have hhere : placeIn s.threads thread = some place := placeIn_of_awake here awake
      exact Option.some.inj (hhere.symm.trans hplace)
    have hcloses := (hrule.stands hplace).2
    have hbefore : closes s = (returnedCalls s.journal).reverse.filter (·.1.request.isClose) := rfl
    rw [closes, returns_entries, List.filter_append, ← hbefore, endedBy]
    have heffect := effect_of_moves moves
    cases houtcome : move.outcome with
    | reply reply =>
      by_cases hclosing : place.isClosing = true
      · obtain ⟨flush, rfl, rfl, rfl⟩ := release_of_reply heffect hclosing houtcome
        cases hopen : openCall thread s.journal with
        | none =>
          rw [hopen, hclosing] at hcloses
          contradiction
        | some call =>
          rw [hopen, Option.any_some] at hcloses
          exact .inl ⟨flush, call, rfl, by simp [Call.record, hcloses, hclosing, Move.reply]⟩
      · refine .inr ⟨?_, ?_⟩
        · rintro flush rfl
          exact hclosing rfl
        · cases hopen : openCall thread s.journal with
          | none => simp
          | some call =>
            rw [hopen, Option.any_some] at hcloses
            simp [Call.record, hcloses, hclosing]
    | _ =>
      refine .inr ⟨?_, by simp⟩
      rintro flush rfl
      cases heffect
      contradiction

/-- A close returns as it gives the lock on the pump back, and by no other change. -/
theorem closes_change {s s' : System (monitor α)} {event : Event (monitor α)}
    (hrule : (rule α).Holds s) (hchange : System.Change s event s') :
    closes s' = closes s ∨
      ∃ thread flush call, s.layout.place thread = some (.release flush) ∧
        s'.layout =
          s.layout.after thread (.reply { s.state with locked := false } (.closed flush)) ∧
        closes s' = closes s ++ [(call, .closed flush)] := by
  have hnext := System.next_eq_some_iff.2 hchange
  cases hchange with
  | elapse | arrive | call | rouse => exact .inl rfl
  | @step thread wakee input phase position move threads here awake moves wakes =>
    have hplace : s.layout.place thread = some position := by
      rw [System.place_layout]
      exact placeIn_of_awake here awake
    rcases closes_of_step hrule hnext hplace with ⟨flush, call, rfl, hcloses⟩ | ⟨_, hsame⟩
    · cases effect_of_moves moves with
      | release =>
        exact .inr ⟨thread, flush, call, hplace, System.layout_step here wakes, hcloses⟩
    · exact .inl hsame

end Backpressure.Writer
