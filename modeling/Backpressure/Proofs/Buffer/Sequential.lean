import Backpressure.Proofs.Buffer.Dropping
import Backpressure.Proofs.Buffer.Segments

/-!
# One call after the other

A thread that alone calls, while the periodic trigger does not go off, has a buffer to itself. So
the batches are those that a list cut into chunks gives, and no call waits for another delivery.
-/

namespace Backpressure.Buffer

variable {α : Type}

/-! ### A system with one caller -/

/-- Only this thread calls, and no tick fires. -/
def Alone (client : Nat) : Event (monitor α) → Prop
  | .call thread _ => thread = client
  | .step _ input _ => input ≠ .tick
  | _ => True

/-- What the calls of a thread that have returned asked for. -/
def answered (s : System (monitor α)) (client : Nat) : List (Request α) :=
  (s.returnsOf client).map (·.1.request)

/-- Nobody but the caller is at work. -/
structure Unaccompanied (client : Nat) (s : System (monitor α)) : Prop where
  /-- Nobody else is in a call. -/
  alone : ∀ thread, thread ≠ client → openCall thread s.journal = none
  /-- Whoever is there without a call waits for the end of the periodic trigger. -/
  idle : ∀ {thread position}, placeIn s.threads thread = some position →
    openCall thread s.journal = none → position = .launch ∨ position = .select

/-- A buffer that one thread has to itself. -/
structure Serial (client limit : Nat) (s : System (monitor α)) : Prop where
  company : Unaccompanied client s
  /-- The calls that have returned have come to what they should. -/
  answers : ∀ {before call reply}, before ++ [(call, reply)] <+: s.returnsOf client →
    Answered limit (sinceFlush (before.map (·.1.request))) call reply
  /-- The sink has been called with the expected batches, and by the call that is under way. -/
  sink : sinkCalls s = (expectedBatches limit (answered s client) ++
    ((openCall client s.journal).map handed).getD []).map (client, ·)
  /-- Between its calls nothing is under way. -/
  rests : openCall client s.journal = none →
    Rests limit (sinceFlush (answered s client)) s.state
  /-- A call stands where it should. -/
  stands : ∀ {call}, openCall client s.journal = some call →
    ∃ position, placeIn s.threads client = some position ∧
      Stands limit (sinceFlush (answered s client)) s.state call position

/-- The periodic trigger without ticks can only begin and end. -/
theorem idle_of_moves {b : Buffer α} {now : Instant} {position : Position α} {input : Input}
    {move : Step α} (hidle : position = .launch ∨ position = .select) (htick : input ≠ .tick)
    (moves : (monitor α).step b now position input = some move) :
    move.state.pending = b.pending ∧ move.state.flushing = b.flushing ∧
      (∀ reply, move.outcome ≠ .reply reply) ∧ move.notes.filterMap Note.batch? = [] ∧
      ∀ place, (Phase.ofOutcome (M := monitor α) move.outcome).place? = some place →
        place = .select := by
  rcases hidle with rfl | rfl
  · cases moves
    refine ⟨rfl, rfl, by rintro _ ⟨⟩, rfl, ?_⟩
    rintro _ ⟨⟩
    rfl
  · cases input with
    | tick => exact absurd rfl htick
    | nothing | outcome => contradiction
    | stop =>
      simp only [step, stepSelect] at moves
      split at moves
      · cases moves
        exact ⟨rfl, rfl, by rintro _ ⟨⟩, rfl, by rintro _ ⟨⟩⟩
      · contradiction

theorem called?_eq (thread : Nat) (notes : List (Note α)) :
    (notes.filterMap fun note => called? (thread, note)) =
      (notes.filterMap Note.batch?).map (thread, ·) := by
  rw [List.map_filterMap]
  congr 1
  funext note
  cases note <;> rfl

theorem handed_record (call : Call (monitor α)) (notes : List (Note α)) :
    handed (call.record notes) = handed call ++ notes.filterMap Note.batch? :=
  List.filterMap_append

/-- What the caller does leaves it unaccompanied. -/
theorem Unaccompanied.of_others {client : Nat} {s s' : System (monitor α)}
    (h : Unaccompanied client s)
    (hothers : ∀ t, t ≠ client → openCall t s'.journal = openCall t s.journal ∧
      placeIn s'.threads t = placeIn s.threads t)
    (hclient : openCall client s'.journal = none → placeIn s'.threads client = none) :
    Unaccompanied client s' := by
  constructor
  · intro t ht
    rw [(hothers t ht).1]
    exact h.alone t ht
  · intro t position hthere hfree
    have ht : t ≠ client := by
      rintro rfl
      rw [hclient hfree] at hthere
      contradiction
    rw [(hothers t ht).2] at hthere
    rw [(hothers t ht).1] at hfree
    exact h.idle hthere hfree

namespace Serial

variable {client limit : Nat} {s s' : System (monitor α)}

/-- What a step adds to the calls of the sink. -/
theorem sinkCalls_of_layout {thread : Nat} {move : Step α}
    (h : s'.layout = s.layout.after thread move) :
    sinkCalls s' = sinkCalls s ++ (move.notes.filterMap Note.batch?).map (thread, ·) := by
  have hnotes : s'.view.notes = move.record thread ++ s.view.notes := congrArg Layout.notes h
  rw [sinkCalls, hnotes, told_record, called?_eq]
  rfl

/-- A step of the caller takes its call further. -/
theorem proceeds (h : Serial client limit s) {call call' : Call (monitor α)} {place : Position α}
    {notes : List (Note α)} (hopen : openCall client s.journal = some call)
    (hcall : call' = call.record notes) (hopen' : openCall client s'.journal = some call')
    (hothers : ∀ t, t ≠ client → openCall t s'.journal = openCall t s.journal ∧
      placeIn s'.threads t = placeIn s.threads t)
    (hreturns : s'.returnsOf client = s.returnsOf client)
    (hsink : sinkCalls s' = sinkCalls s ++ (notes.filterMap Note.batch?).map (client, ·))
    (hplace : placeIn s'.threads client = some place)
    (hstands : Stands limit (sinceFlush (answered s client)) s'.state call' place) :
    Serial client limit s' := by
  have hanswered : answered s' client = answered s client := congrArg (List.map _) hreturns
  constructor
  · refine h.company.of_others hothers ?_
    intro hfree
    rw [hopen'] at hfree
    contradiction
  · rw [hreturns]
    exact h.answers
  · rw [hsink, h.sink, hanswered, hopen, hopen', hcall]
    simp only [Option.map_some, Option.getD_some, handed_record, List.map_append,
      List.append_assoc]
  · intro hfree
    rw [hopen'] at hfree
    contradiction
  · intro call'' hopen''
    cases hopen'.symm.trans hopen''
    rw [hanswered]
    exact ⟨place, hplace, hstands⟩

/-- A step of the caller brings its call to its end. -/
theorem replies (h : Serial client limit s) (hlimit : 0 < limit) {call call' : Call (monitor α)}
    {reply : Reply α} {notes : List (Note α)} (hopen : openCall client s.journal = some call)
    (hcall : call' = call.record notes) (hopen' : openCall client s'.journal = none)
    (hothers : ∀ t, t ≠ client → openCall t s'.journal = openCall t s.journal ∧
      placeIn s'.threads t = placeIn s.threads t)
    (hreturns : s'.returnsOf client = s.returnsOf client ++ [(call', reply)])
    (hsink : sinkCalls s' = sinkCalls s ++ (notes.filterMap Note.batch?).map (client, ·))
    (hplace : placeIn s'.threads client = none)
    (hanswer : Answered limit (sinceFlush (answered s client)) call' reply)
    (hrests : Rests limit (sinceAfter (sinceFlush (answered s client)) call'.request) s'.state) :
    Serial client limit s' := by
  have hanswered : answered s' client = answered s client ++ [call'.request] := by
    rw [answered, hreturns, List.map_append]
    rfl
  constructor
  · exact h.company.of_others hothers fun _ => hplace
  · intro before call'' reply' hprefix
    rw [hreturns, List.prefix_concat_iff] at hprefix
    rcases hprefix with hlast | hearlier
    · obtain ⟨rfl, hsame⟩ := List.append_inj' hlast rfl
      cases hsame
      exact hanswer
    · exact h.answers hearlier
  · rw [hsink, h.sink, hanswered, hanswer.expected hlimit, hopen, hopen', hcall]
    simp only [Option.map_some, Option.getD_some, Option.map_none, Option.getD_none, handed_record,
      List.map_append, List.append_assoc, List.append_nil]
  · intro _
    rw [hanswered, sinceFlush_concat]
    exact hrests
  · intro call'' hopen''
    rw [hopen'] at hopen''
    contradiction

/-- A step of the caller takes its call further, or brings it to its end. -/
theorem own (h : Serial client limit s) (hlimit : 0 < limit) (hsame : s.state.limit = limit)
    {input : Input} {wakee : Nat} {call : Call (monitor α)}
    (hopen : openCall client s.journal = some call)
    (hnext : s.next (.step client input wakee) = some s') : Serial client limit s' := by
  obtain ⟨position, move, hplace, moves, hlayout⟩ := System.moves_of_next hnext
  obtain ⟨place, hthere, hstands⟩ := h.stands hopen
  cases hplace.symm.trans hthere
  have hgoes := hstands.step hlimit hsame moves
  have hstate : s'.state = move.state := congrArg Layout.state hlayout
  have hmoved := System.placeIn_of_layout hlayout
  obtain ⟨threads, _, heq⟩ := System.eq_of_next hnext hplace moves
  have hjournal : s'.journal = (System.entries client move).reverse ++ s.journal :=
    congrArg System.journal heq
  have hothers : ∀ t, t ≠ client → openCall t s'.journal = openCall t s.journal ∧
      placeIn s'.threads t = placeIn s.threads t := by
    intro t ht
    refine ⟨?_, System.placeIn_of_layout_of_ne hlayout ht⟩
    rw [hjournal]
    exact openCall_entries_of_ne ht.symm
  have hreturns := System.returnsOf_of_next hnext hplace moves
  have hsink := sinkCalls_of_layout hlayout
  cases houtcome : move.outcome with
  | proceed next =>
    rw [houtcome] at hgoes hmoved
    rw [endedBy, houtcome] at hreturns
    refine h.proceeds hopen rfl ?_ hothers (hreturns.trans (List.append_nil _)) hsink hmoved
      (hstate ▸ hgoes)
    rw [hjournal, openCall_entries, houtcome, hopen]
    rfl
  | reply reply =>
    rw [houtcome] at hgoes hmoved
    rw [endedBy, houtcome, hopen] at hreturns
    refine h.replies hlimit hopen rfl ?_ hothers hreturns hsink hmoved hgoes.1 (hstate ▸ hgoes.2)
    rw [hjournal, openCall_entries, houtcome]
  | sleep | exit =>
    rw [houtcome] at hgoes
    exact absurd hgoes id

/-- Whatever leaves the caller, the items and the batches alone keeps the buffer the caller's. -/
theorem kept (h : Serial client limit s) (hcompany : Unaccompanied client s')
    (hcall : openCall client s'.journal = openCall client s.journal)
    (hreturns : s'.returnsOf client = s.returnsOf client) (hsink : sinkCalls s' = sinkCalls s)
    (hplace : ∀ {position}, openCall client s.journal ≠ none →
      placeIn s.threads client = some position → placeIn s'.threads client = some position)
    (hpending : s'.state.pending = s.state.pending)
    (hflushing : s'.state.flushing = s.state.flushing) : Serial client limit s' := by
  have hanswered : answered s' client = answered s client := congrArg (List.map _) hreturns
  constructor
  · exact hcompany
  · rw [hreturns]
    exact h.answers
  · rw [hsink, hanswered, hcall]
    exact h.sink
  · intro hnone
    rw [hcall] at hnone
    have hrests := h.rests hnone
    rw [hanswered]
    exact ⟨hflushing.trans hrests.flushing, hpending.trans hrests.pending⟩
  · intro call hopen
    rw [hcall] at hopen
    obtain ⟨position, hthere, hstands⟩ := h.stands hopen
    rw [hanswered]
    have hsome : openCall client s.journal ≠ none := by
      rw [hopen]
      rintro ⟨⟩
    exact ⟨position, hplace hsome hthere, hstands.of_same hpending hflushing⟩

/-- Whoever is there without a call leaves the caller alone. -/
theorem other (h : Serial client limit s) {thread : Nat} {input : Input} {wakee : Nat}
    (htick : input ≠ .tick) (hfree : openCall thread s.journal = none)
    (hnext : s.next (.step thread input wakee) = some s') : Serial client limit s' := by
  obtain ⟨position, move, hplace, moves, hlayout⟩ := System.moves_of_next hnext
  obtain ⟨hpending, hflushing, hreplies, hnotes, hselect⟩ :=
    idle_of_moves (h.company.idle hplace hfree) htick moves
  have hstate : s'.state = move.state := congrArg Layout.state hlayout
  obtain ⟨threads, _, heq⟩ := System.eq_of_next hnext hplace moves
  have hjournal : s'.journal = (System.entries thread move).reverse ++ s.journal :=
    congrArg System.journal heq
  have hcalls : ∀ t, openCall t s'.journal = openCall t s.journal := by
    intro t
    rw [hjournal]
    by_cases ht : t = thread
    · subst ht
      rw [openCall_entries, hfree]
      cases move.outcome <;> rfl
    · exact openCall_entries_of_ne (Ne.symm ht)
  have hreturns : s'.returnsOf client = s.returnsOf client := by
    have hended : endedBy thread move s.journal = none := by
      rw [endedBy, hfree]
      cases move.outcome <;> rfl
    rw [heq, System.returnsOf_entries]
    split
    · rename_i hclient
      rw [← hclient, hended]
      exact List.append_nil _
    · exact List.append_nil _
  have hsink : sinkCalls s' = sinkCalls s := by
    rw [sinkCalls_of_layout hlayout, hnotes]
    exact List.append_nil _
  refine h.kept ⟨?_, ?_⟩ (hcalls client) hreturns hsink ?_ (hstate ▸ hpending)
    (hstate ▸ hflushing)
  · intro t ht
    rw [hcalls]
    exact h.company.alone t ht
  · intro t place hthere hnone
    rw [hcalls] at hnone
    rcases System.cases_of_layout hlayout hthere with ⟨_, hnew⟩ | ⟨_, hold⟩
    · exact .inr (hselect place hnew)
    · exact h.company.idle hold hnone
  · intro place hsome hthere
    have hne : client ≠ thread := by
      rintro rfl
      exact hsome hfree
    exact (System.placeIn_of_layout_of_ne hlayout hne).trans hthere

/-- A call of the caller begins. -/
theorem begins (h : Serial client limit s) {request : Request α}
    (hfree : openCall client s.journal = none)
    (hnext : s.next (.call client request) = some s') : Serial client limit s' := by
  obtain ⟨hplace, hopen, hreturned, hnotes⟩ := System.begun_of_next hnext
  have hreturns : s'.returnsOf client = s.returnsOf client :=
    by simp only [System.returnsOf, hreturned]
  have hanswered : answered s' client = answered s client := congrArg (List.map _) hreturns
  have hsink : sinkCalls s' = sinkCalls s := congrArg (told called?) hnotes
  have hrests := h.rests hfree
  have hothers : ∀ t, t ≠ client → openCall t s'.journal = openCall t s.journal ∧
      placeIn s'.threads t = placeIn s.threads t := by
    intro t ht
    cases System.next_eq_some_iff.1 hnext with
    | call here =>
      refine ⟨by simp [openCall, Ne.symm ht], ?_⟩
      rw [placeIn_set (List.getElem?_eq_some_iff.1 here).1, Function.update_of_ne ht]
  have hstate : s'.state = s.state := by
    cases System.next_eq_some_iff.1 hnext
    rfl
  constructor
  · refine h.company.of_others hothers ?_
    intro hnone
    rw [hopen] at hnone
    contradiction
  · rw [hreturns]
    exact h.answers
  · rw [hsink, h.sink, hanswered, hopen, hfree]
    rfl
  · intro hnone
    rw [hopen] at hnone
    contradiction
  · intro call hcall
    cases hopen.symm.trans hcall
    rw [hanswered, hstate]
    exact ⟨_, hplace, Stands.start hrests client request s.now⟩

/-- Only places, calls and the buffer count. -/
theorem of_same (h : Serial client limit s) (hstate : s'.state = s.state)
    (hplaces : placeIn s'.threads = placeIn s.threads) (hjournal : s'.journal = s.journal) :
    Serial client limit s' := by
  refine h.kept ⟨?_, ?_⟩ (congrArg _ hjournal) ?_ ?_ ?_ (congrArg _ hstate) (congrArg _ hstate)
  · rw [hjournal]
    exact h.company.alone
  · rw [hjournal, hplaces]
    exact h.company.idle
  · simp only [System.returnsOf, System.returns, hjournal]
  · simp only [sinkCalls, System.view, hjournal]
  · rw [hplaces]
    exact fun _ hthere => hthere

/-- Whatever happens, a thread keeps the buffer to itself if nobody else calls and no tick fires. -/
theorem next (h : Serial client limit s) (hlimit : 0 < limit) (hsame : s.state.limit = limit)
    (hone : OneByOne s) {event : Event (monitor α)} (hallowed : Alone client event)
    (hnext : s.next event = some s') : Serial client limit s' := by
  cases System.next_eq_some_iff.1 hnext with
  | elapse => exact h.of_same rfl rfl rfl
  | arrive => exact h.of_same rfl placeIn_append_idle rfl
  | rouse here => exact h.of_same rfl (placeIn_rouse here) rfl
  | @call thread request phase here free =>
    cases (hallowed : thread = client)
    exact h.begins (hone.free (by simp [here, free])) hnext
  | @step thread wakee input =>
    cases hopen : openCall thread s.journal with
    | none => exact h.other hallowed hopen hnext
    | some call =>
      have hthread : thread = client := by
        by_contra hne
        rw [h.company.alone thread hne] at hopen
        contradiction
      subst hthread
      exact h.own hlimit hsame hopen hnext

end Serial

section New

variable {limit : Nat} {interval : Duration} {limit_pos : 0 < limit}
  {interval_pos : 0 < interval.nanos} {now : Instant} {client : Nat} {s : System (monitor α)}

/-- A thread that alone calls, while no tick fires, has a new buffer to itself. -/
theorem serial
    (h : (system (.empty limit interval limit_pos interval_pos) now).ReachableBy (Alone client) s) :
    Serial client limit s := by
  induction h with
  | start =>
    constructor
    · refine ⟨fun _ _ => rfl, ?_⟩
      intro t position hplace _
      exact .inl (List.mem_singleton.1 (placeIn_initial hplace))
    · intro before call reply hprefix
      have hnone : (system (α := α) (.empty limit interval limit_pos interval_pos) now).returnsOf
          client = [] := rfl
      rw [hnone] at hprefix
      exact absurd hprefix.length_le (by simp)
    · rfl
    · intro _
      exact ⟨rfl, rfl⟩
    · intro call hopen
      contradiction
  | next hbefore hallowed hnext ih =>
    exact ih.next limit_pos (limit_eq hbefore.reachable) (OneByOne.of_reachable hbefore.reachable)
      hallowed hnext

end New

/-! ### Calls come to their end -/

/-- No call begins, no tick fires, and the sink ends its calls like this. -/
def Answering (outcome : SinkOutcome) : Event (monitor α) → Prop
  | .call _ _ => False
  | .step _ input _ => input ≠ .tick ∧ ∀ given, input = .outcome given → given = outcome
  | _ => True

/-- How many steps a thread at this place has at most to take until a call is answered. -/
def Position.stepsToAnswer : Position α → Nat
  | .stop => 7
  | .append _ | .await => 6
  | .enter _ => 5
  | .call _ _ => 4
  | .deliver _ _ => 3
  | .record _ _ _ | .launch => 2
  | .select | .inspect | .recheck | .join _ _ => 1

section Movers

variable {limit : Nat} {since : List α} {b : Buffer α} {call : Call (monitor α)}
  {position : Position α}

/-- A call that has the buffer to itself waits for no delivery. -/
theorem Stands.not_waits (h : Stands limit since b call position) :
    position.waits = false ∨ b.flushing = false := by
  cases h with
  | append rests | stop rests | await rests | inspect rests => exact .inr rests.flushing
  | enter owes flushing pending => exact .inr flushing
  | carry owes some pending underway =>
    left
    cases underway <;> rfl

/-- A flush of one's own is the end of the call. -/
theorem Owes.answers {request : Request α} {errand : Errand} {lead : List (Note α)}
    {batch : List α} (h : Owes limit since request errand lead batch) {flush : Flush}
    (hown : flush ≠ .joined) :
    (Phase.ofOutcome (M := monitor α) (finish errand flush)).weigh Position.stepsToAnswer = 0 := by
  cases h with
  | add full =>
    have hadded : finish (α := α) .add flush = .reply .added := if_neg hown
    rw [hadded]
    rfl
  | cut cuts same =>
    rw [finish_of_cuts cuts same]
    rfl

/-- A call that need not wait for the periodic trigger has a step to take, and then fewer are
left. -/
theorem Stands.exists_shorter (h : Stands limit since b call position) (moment : Instant)
    (outcome : SinkOutcome) (hstop : position = .stop → b.ticker = .running ∨ b.ticker = .stopped)
    (hawait : position = .await → b.ticker = .ended) :
    ∃ input move, (monitor α).step b moment position input = some move ∧
      (∀ thread wakee, Answering outcome (.step thread input wakee : Event (monitor α))) ∧
      (Phase.ofOutcome (M := monitor α) move.outcome).weigh Position.stepsToAnswer <
        position.stepsToAnswer := by
  have hnothing : ∀ thread wakee,
      Answering outcome (.step thread .nothing wakee : Event (monitor α)) :=
    fun _ _ => ⟨by rintro ⟨⟩, by rintro _ ⟨⟩⟩
  cases h with
  | @append thread item rests =>
    refine ⟨.nothing, _, rfl, hnothing, ?_⟩
    simp only [stepAppend]
    split
    · exact Nat.lt_succ_self 5
    · exact Nat.succ_pos 5
  | stop rests =>
    rcases hstop rfl with hrunning | hstopped
    · refine ⟨.nothing, .proceed { b with ticker := .stopping } .await, ?_, hnothing,
        Nat.lt_succ_self 6⟩
      simp only [Buffer.step, stepStop, hrunning]
    · refine ⟨.nothing, .proceed b (.enter .shutdown), ?_, hnothing, ?_⟩
      · simp only [Buffer.step, stepStop, hstopped]
      · exact Nat.lt_trans (Nat.lt_succ_self 5) (Nat.lt_succ_self 6)
  | await rests =>
    refine ⟨.nothing, .proceed { b with ticker := .stopped } (.enter .shutdown), ?_, hnothing,
      Nat.lt_succ_self 5⟩
    simp only [Buffer.step, stepAwait, hawait rfl]
  | inspect rests => exact ⟨.nothing, _, rfl, hnothing, Nat.lt_succ_self 0⟩
  | enter owes flushing pending =>
    refine ⟨.nothing, _, rfl, hnothing, ?_⟩
    simp only [stepEnter, flushing, Bool.false_eq_true, if_false]
    split
    · have hown : Flush.empty ≠ .joined := by rintro ⟨⟩
      exact Nat.lt_of_le_of_lt (Nat.le_of_eq (owes.answers hown)) (Nat.succ_pos 4)
    · exact Nat.lt_succ_self 4
  | @carry thread request errand lead batch notes position owes some pending underway =>
    cases underway with
    | call => exact ⟨.nothing, _, rfl, hnothing, Nat.lt_succ_self 3⟩
    | deliver =>
      refine ⟨.outcome outcome, _, rfl, ?_, Nat.lt_succ_self 2⟩
      intro thread wakee
      refine ⟨by rintro ⟨⟩, ?_⟩
      rintro _ ⟨⟩
      rfl
    | record given =>
      refine ⟨.nothing, _, rfl, hnothing, ?_⟩
      have hown : Flush.ofDelivery batch.length given.isAccepted ≠ .joined := by
        cases given <;> rintro ⟨⟩
      exact Nat.lt_of_le_of_lt (Nat.le_of_eq (owes.answers hown)) (Nat.succ_pos 1)

end Movers

section New

variable {limit : Nat} {interval : Duration} {limit_pos : 0 < limit}
  {interval_pos : 0 < interval.nanos} {now : Instant} {client : Nat} {s : System (monitor α)}

/-- As long as a call has not been answered, it can go on, or the periodic trigger can end. -/
theorem exists_step
    (h : (system (.empty limit interval limit_pos interval_pos) now).Reachable s)
    (hserial : Serial client limit s) {call : Call (monitor α)}
    (hopen : openCall client s.journal = some call) (outcome : SinkOutcome) :
    ∃ (mover : Nat) (input : Input) (s' : System (monitor α)),
      s.next (.step mover input 0) = some s' ∧
        Answering outcome (.step mover input 0 : Event (monitor α)) ∧
        (mover ≠ client → openCall mover s.journal = none) ∧
        weightOf Position.stepsToAnswer s'.threads < weightOf Position.stepsToAnswer s.threads := by
  obtain ⟨position, hplace, hstands⟩ := hserial.stands hopen
  have hmoves : ∀ {mover place input move}, placeIn s.threads mover = some place →
      place.waits = false ∨ s.state.flushing = false →
      (monitor α).step s.state s.now place input = some move →
      (Phase.ofOutcome (M := monitor α) move.outcome).weigh Position.stepsToAnswer <
        place.stepsToAnswer →
      ∃ s', s.next (.step mover input 0) = some s' ∧
        weightOf Position.stepsToAnswer s'.threads <
          weightOf Position.stepsToAnswer s.threads := by
    intro mover place input move hthere hgoes moves hshorter
    obtain ⟨phase, here, awake⟩ := awake_of_place h hthere hgoes
    obtain ⟨s', hnext⟩ := exists_next here awake moves 0
    exact ⟨s', hnext, weightOf_next _ here awake moves hshorter hnext⟩
  have halone : ∀ t, t ≠ client → placeIn s.threads t ≠ some .await := by
    intro t ht hawaits
    have hfree := hserial.company.alone t ht
    rcases hserial.company.idle hawaits hfree with hlaunch | hselect <;> contradiction
  by_cases hwaits : position = .await ∧ s.state.ticker = .stopping
  · obtain ⟨place, hthere, htick⟩ := (ticking h).lives (.inr hwaits.2)
    rw [System.place_layout] at hthere
    have hne : 0 ≠ client := by
      rintro rfl
      rw [hplace, hwaits.1] at hthere
      cases hthere
      contradiction
    have hfree := hserial.company.alone 0 hne
    rcases hserial.company.idle hthere hfree with rfl | rfl
    · have hlaunches : (monitor α).step s.state s.now .launch .nothing =
          some ⟨s.state, .proceed .select, [], [.started s.state.interval]⟩ := rfl
      obtain ⟨s', hnext, hless⟩ := hmoves hthere (.inl rfl) hlaunches (Nat.lt_succ_self 1)
      exact ⟨0, .nothing, s', hnext, ⟨by rintro ⟨⟩, by rintro _ ⟨⟩⟩, fun _ => hfree, hless⟩
    · have hends : (monitor α).step s.state s.now .select .stop =
          some ⟨{ s.state with ticker := .ended }, .exit, [], [.stopped]⟩ := by
        simp only [step, stepSelect, hwaits.2, if_true]
      obtain ⟨s', hnext, hless⟩ := hmoves hthere (.inl rfl) hends (Nat.succ_pos 0)
      exact ⟨0, .stop, s', hnext, ⟨by rintro ⟨⟩, by rintro _ ⟨⟩⟩, fun _ => hfree, hless⟩
  · obtain ⟨hstop, hawait⟩ := ticker_of_alone h hplace halone hwaits
    obtain ⟨input, move, moves, hallowed, hshorter⟩ :=
      hstands.exists_shorter s.now outcome hstop hawait
    obtain ⟨s', hnext, hless⟩ := hmoves hplace hstands.not_waits moves hshorter
    exact ⟨client, input, s', hnext, hallowed client 0, fun hne => absurd rfl hne, hless⟩

theorem alone_of_answering {outcome : SinkOutcome} {event : Event (monitor α)}
    (h : Answering outcome event) : Alone client event := by
  cases event with
  | call => exact absurd h id
  | step => exact h.1
  | elapse | arrive | rouse => trivial

/-- However the sink ends its calls, a call can come to its end. -/
theorem exists_answered
    (h : (system (.empty limit interval limit_pos interval_pos) now).ReachableBy (Alone client) s)
    {call : Call (monitor α)} (hopen : openCall client s.journal = some call)
    (outcome : SinkOutcome) :
    ∃ s' notes reply, s.ReachableBy (Answering outcome) s' ∧
      s'.returnsOf client = s.returnsOf client ++ [(call.record notes, reply)] := by
  induction hweight : weightOf Position.stepsToAnswer s.threads using Nat.strongRecOn
    generalizing s call with
  | _ weight ih =>
    obtain ⟨mover, input, after, hnext, hallowed, hother, hless⟩ :=
      exists_step h.reachable (serial h) hopen outcome
    have hafter := h.next (alone_of_answering hallowed) hnext
    have hfirst : s.ReachableBy (Answering outcome) after := .next .start hallowed hnext
    obtain ⟨position, move, hplace, moves, _⟩ := System.moves_of_next hnext
    by_cases hmover : mover = client
    · subst hmover
      obtain ⟨reply, _, hreturned⟩ | ⟨hreturns, hgoes⟩ :=
        System.returns_or_goes_on hnext hplace moves hopen
      · exact ⟨after, move.notes, reply, hfirst, hreturned⟩
      · obtain ⟨s', notes, reply, hlater, hreturned⟩ := ih _ (hweight ▸ hless) hafter hgoes rfl
        rw [hreturns, Call.record_record] at hreturned
        exact ⟨s', move.notes ++ notes, reply, hfirst.trans hlater, hreturned⟩
    · obtain ⟨threads, _, rfl⟩ := System.eq_of_next hnext hplace moves
      have hgoes : openCall client ((System.entries mover move).reverse ++ s.journal) =
          some call := (openCall_entries_of_ne hmover).trans hopen
      obtain ⟨s', notes, reply, hlater, hreturned⟩ := ih _ (hweight ▸ hless) hafter hgoes rfl
      rw [System.returnsOf_entries, if_neg hmover, List.append_nil] at hreturned
      exact ⟨s', notes, reply, hfirst.trans hlater, hreturned⟩

end New

/-- A thread that alone calls, while no tick fires, gets the batches of a list cut into chunks. At
every moment of every such course:

* If no call is under way, the sink has been called, by that thread, with the chunks of every
  segment between two flushes, but that the short rest of the last segment is pending.
* Every call that has returned has come to what it should, given the calls before it: an add hands a
  chunk to the sink if it completes it, and no other batch; a flush or a shutdown hands over the
  short rest of its segment and tells its size and what the sink made of it, or that it has found
  nothing pending.
* However the sink ends its calls, the call under way can come to its end. -/
theorem sequential_batches_are_chunks {limit : Nat} {interval : Duration} {limit_pos : 0 < limit}
    {interval_pos : 0 < interval.nanos} {now : Instant} {client : Nat} {s : System (monitor α)}
    (h : (system (.empty limit interval limit_pos interval_pos) now).ReachableBy (Alone client) s) :
    (openCall client s.journal = none →
        sinkCalls s = (expectedBatches limit (s.requests client)).map (client, ·) ∧
          s.state.pending = shortRest limit (sinceFlush (s.requests client))) ∧
      (∀ before call reply, before ++ [(call, reply)] <+: s.returnsOf client →
        Answered limit (sinceFlush (before.map (·.1.request))) call reply) ∧
      ∀ call, openCall client s.journal = some call → ∀ outcome, ∃ s' notes reply,
        s.ReachableBy (Answering outcome) s' ∧
          s'.returnsOf client = s.returnsOf client ++ [(call.record notes, reply)] := by
  have hserial := serial h
  refine ⟨?_, fun _ _ _ => hserial.answers, fun _ hopen outcome => exists_answered h hopen outcome⟩
  intro hfree
  have hrequests : s.requests client = answered s client := by
    rw [(OneByOne.of_reachable h.reachable).order client, hfree]
    exact List.append_nil _
  have hsink := hserial.sink
  rw [hfree, Option.map_none, Option.getD_none, List.append_nil] at hsink
  rw [hrequests]
  exact ⟨hsink, (hserial.rests hfree).pending⟩

/-- A full buffer is refused by the sink, a flush has one item left to deliver, a shutdown has none,
and an item is added after it. -/
def oneCaller : List (Event (monitor Nat)) :=
  [.arrive, .call 1 (.add 1), .step 1 .nothing 0, .call 1 (.add 2), .step 1 .nothing 0,
    .step 1 .nothing 0, .step 1 .nothing 0, .step 1 (.outcome (.refused "full")) 0,
    .step 1 .nothing 0, .call 1 (.add 3), .step 1 .nothing 0, .call 1 (.flushTimeout (.ofNanos 0)),
    .step 1 .nothing 0, .step 1 .nothing 0, .step 1 (.outcome .accepted) 0, .step 1 .nothing 0,
    .call 1 .shutdown, .step 1 .nothing 0, .step 0 .nothing 0, .step 0 .stop 0, .step 1 .nothing 0,
    .step 1 .nothing 0, .call 1 (.add 4), .step 1 .nothing 0]

theorem sequential_batches_are_chunks_oneCaller :
    ∃ s, (system (.empty 2 ⟨1, by decide⟩ (by decide) (by decide)) .midrange).run oneCaller =
        some s ∧
      (s.returnsOf 1).map (·.2.flush?) =
        [none, none, none, some (.delivered 1), some .empty, none] ∧
      expectedBatches 2 (s.requests 1) = [[1, 2], [3]] ∧
      sinkCalls s = (expectedBatches 2 (s.requests 1)).map (1, ·) ∧ s.state.pending = [4] := by
  have hruns : ((system (.empty 2 ⟨1, by decide⟩ (by decide) (by decide)) .midrange).run
      oneCaller).map (fun s : System (monitor Nat) =>
        decide ((openCall 1 s.journal).isNone = true ∧
          (s.returnsOf 1).map (·.2.flush?) =
            [none, none, none, some (.delivered 1), some .empty, none] ∧
          expectedBatches 2 (s.requests 1) = [[1, 2], [3]] ∧ s.state.pending = [4])) =
        some true := by
    decide +kernel
  simp only [Option.map_eq_some_iff, decide_eq_true_eq, Option.isNone_iff_eq_none] at hruns
  obtain ⟨s, hrun, hfree, hreplies, hexpected, hpending⟩ := hruns
  have hallowed : ∀ event ∈ oneCaller, Alone 1 event := by
    simp [oneCaller, Alone]
  have hchunks := sequential_batches_are_chunks (System.ReachableBy.run .start hallowed hrun)
  exact ⟨s, hrun, hreplies, hexpected, (hchunks.1 hfree).1, hpending⟩

end Backpressure.Buffer
