import Backpressure.Proofs.Channel.Closing
import Backpressure.Proofs.Twins

/-!
# Calls on a channel with a deadline

A call with a deadline looks at the channel before it looks at the time. Whenever it looks, it
returns at once if the channel is closed or has what it wants, and gives up only where it has not
and the deadline has come. So with its deadline in the past it is a call that does not wait, and
without a deadline that can come it is one that waits for ever. A call that fails leaves the channel
as it was.
-/

namespace Backpressure.Channel

variable {α : Type}

/-- How long a call is willing to wait, if it says so. -/
def Request.timeout? : Request α → Option Duration
  | .pushTimeout _ timeout | .pollTimeout timeout => some timeout
  | _ => none

/-- The moment at which a call that begins now gives up. -/
def Request.deadline (request : Request α) (now : Instant) : Deadline :=
  match request with
  | .pushTimeout _ timeout | .pollTimeout timeout => .after now timeout
  | .pushDeadline _ deadline | .pollDeadline deadline => some deadline
  | _ => none

/-- The same call without a deadline. -/
def Request.untimed : Request α → Request α
  | .pushTimeout item _ | .pushDeadline item _ => .push item
  | .pollTimeout _ | .pollDeadline _ => .poll
  | request => request

/-- The same call without any waiting. -/
def Request.atOnce : Request α → Request α
  | .push item | .pushTimeout item _ | .pushDeadline item _ => .tryPush item
  | .poll | .pollTimeout _ | .pollDeadline _ => .tryPoll
  | request => request

/-- What a call with a deadline returns where one that does not wait returns this. -/
def Reply.timed : Reply α → Reply α
  | .triedPush (.ok ()) => .pushed (.ok ())
  | .triedPush (.error (.full item)) => .pushed (.error (.timeout item))
  | .triedPush (.error (.closed item)) => .pushed (.error (.closed item))
  | .triedPoll (.ok item) => .polled (.ok item)
  | .triedPoll (.error .empty) => .polled (.error .timeout)
  | .triedPoll (.error .closed) => .polled (.error .closed)
  | reply => reply

/-- Does a push or a poll fail with this reply? -/
def Reply.isError : Reply α → Bool
  | .pushed (.error _) | .triedPush (.error _) | .polled (.error _) | .triedPoll (.error _) => true
  | _ => false

/-- Does a call give up with this reply because its deadline has come? -/
def Reply.isTimeout : Reply α → Bool
  | .pushed (.error (.timeout _)) | .polled (.error .timeout) => true
  | _ => false

/-- What a push with a deadline comes to by one look at a channel, if it comes to anything, and the
channel afterwards. -/
inductive PushTurn (c : Channel α) (now : Instant) (item : α) (deadline : Deadline) :
    Option (Except (PushTimeoutError α) Unit) → Channel α → Prop
  | closed (isClosed : c.closed = true) :
    PushTurn c now item deadline (some (.error (.closed item))) c
  | pushed (isOpen : c.closed = false) (room : c.queue.length < c.capacity) :
    PushTurn c now item deadline (some (.ok ())) { c with queue := c.queue ++ [item] }
  | timeout (isOpen : c.closed = false) (full : c.capacity ≤ c.queue.length)
      (late : deadline.reached now = true) :
    PushTurn c now item deadline (some (.error (.timeout item))) c
  | waits (isOpen : c.closed = false) (full : c.capacity ≤ c.queue.length)
      (early : deadline.reached now = false) : PushTurn c now item deadline none c

/-- What a poll with a deadline comes to by one look at a channel, if it comes to anything, and the
channel afterwards. -/
inductive PollTurn (c : Channel α) (now : Instant) (deadline : Deadline) :
    Option (Except PollTimeoutError α) → Channel α → Prop
  | polled {item : α} {rest : List α} (front : c.queue = item :: rest) :
    PollTurn c now deadline (some (.ok item)) { c with queue := rest }
  | closed (isClosed : c.closed = true) (nothing : c.queue = []) :
    PollTurn c now deadline (some (.error .closed)) c
  | timeout (isOpen : c.closed = false) (nothing : c.queue = [])
      (late : deadline.reached now = true) : PollTurn c now deadline (some (.error .timeout)) c
  | waits (isOpen : c.closed = false) (nothing : c.queue = [])
      (early : deadline.reached now = false) : PollTurn c now deadline none c

/-! ### One look -/

section Looks

variable {c : Channel α} {now : Instant} {request : Request α} {item : α} {deadline : Deadline}

/-- A push without a deadline starts where one with a deadline does that cannot come. -/
theorem start_of_untimed_push (huntimed : request.untimed = .push item) (now : Instant) :
    start request now = .push item (request.deadline now) := by
  cases request <;> cases huntimed <;> rfl

theorem start_of_untimed_poll (huntimed : request.untimed = .poll) (now : Instant) :
    start request now = .poll (request.deadline now) := by
  cases request <;> cases huntimed <;> rfl

/-- A deadline that cannot come makes no difference. -/
theorem start_untimed (hnever : request.deadline now = none) :
    start request.untimed now = start request now := by
  cases request with
  | pushTimeout item timeout => exact congrArg (Position.push item) hnever.symm
  | pollTimeout timeout => exact congrArg Position.poll hnever.symm
  | pushDeadline | pollDeadline => contradiction
  | _ => rfl

/-- Every look of a push is one of its turns. -/
theorem exists_pushTurn (c : Channel α) (now : Instant) (item : α) (deadline : Deadline) :
    ∃ result?, PushTurn c now item deadline result? (step c now (.push item deadline)).state ∧
      ∀ reply, (step c now (.push item deadline)).outcome = .reply reply ↔
        result?.map .pushed = some reply := by
  simp only [step, stepPush]
  split
  · rename_i c' hpush
    obtain ⟨hopen, hroom, rfl⟩ := tryPush_eq_ok_iff.1 hpush
    exact ⟨_, .pushed hopen hroom, by simp [pushed]⟩
  · rename_i handed hpush
    obtain ⟨hclosed, rfl⟩ := tryPush_eq_closed_iff.1 hpush
    exact ⟨_, .closed hclosed, by simp [Move.reply]⟩
  · rename_i handed hpush
    obtain ⟨hopen, hfull, rfl⟩ := tryPush_eq_full_iff.1 hpush
    split
    · rename_i hlate
      exact ⟨_, .timeout hopen hfull hlate, by simp [Move.reply]⟩
    · rename_i hearly
      exact ⟨_, .waits hopen hfull (eq_false_of_ne_true hearly), by simp⟩

/-- Every look of a poll is one of its turns. -/
theorem exists_pollTurn (c : Channel α) (now : Instant) (deadline : Deadline) :
    ∃ result?, PollTurn c now deadline result? (step c now (.poll deadline)).state ∧
      ∀ reply, (step c now (.poll deadline)).outcome = .reply reply ↔
        result?.map .polled = some reply := by
  simp only [step, stepPoll]
  split
  · rename_i item c' hpoll
    obtain ⟨hfront, hsame⟩ := tryPoll_eq_ok_iff.1 hpoll
    refine ⟨some (.ok item), ?_, by simp [polled]⟩
    rw [hsame]
    exact .polled hfront
  · rename_i hpoll
    obtain ⟨hnothing, hstatus⟩ := tryPoll_eq_error_iff.1 hpoll
    refine ⟨some (.error .closed), .closed ?_ hnothing, by simp [Move.reply]⟩
    by_contra hopen
    rw [if_neg hopen] at hstatus
    contradiction
  · rename_i hpoll
    obtain ⟨hnothing, hstatus⟩ := tryPoll_eq_error_iff.1 hpoll
    have hopen : c.closed = false := by
      cases hclosed : c.closed with
      | false => rfl
      | true => simp [hclosed] at hstatus
    split
    · rename_i hlate
      exact ⟨some (.error .timeout), .timeout hopen hnothing hlate, by simp [Move.reply]⟩
    · rename_i hearly
      exact ⟨none, .waits hopen hnothing (eq_false_of_ne_true hearly), by simp⟩

/-- A push whose deadline has come does what one does that does not wait. -/
theorem stepPush_of_reached (hlate : deadline.reached now = true) :
    ∃ reply, (stepTryPush c item).outcome = .reply reply ∧
      stepPush c now item deadline = { stepTryPush c item with outcome := .reply reply.timed } := by
  unfold stepTryPush stepPush
  cases c.tryPush item with
  | ok c' => exact ⟨_, rfl, rfl⟩
  | error failure =>
    cases failure with
    | closed handed => exact ⟨_, rfl, rfl⟩
    | full handed => exact ⟨_, rfl, if_pos hlate⟩

/-- A poll whose deadline has come does what one does that does not wait. -/
theorem stepPoll_of_reached (hlate : deadline.reached now = true) :
    ∃ reply, (stepTryPoll c).outcome = .reply reply ∧
      stepPoll c now deadline = { stepTryPoll c with outcome := .reply reply.timed } := by
  unfold stepTryPoll stepPoll
  cases c.tryPoll with
  | ok taken => exact ⟨_, rfl, rfl⟩
  | error failure =>
    cases failure with
    | closed => exact ⟨_, rfl, rfl⟩
    | empty => exact ⟨_, rfl, if_pos hlate⟩

/-- A call whose deadline has come does, now and later, what the same call does that does not
wait. -/
theorem step_of_reached (hlate : (request.deadline now).reached now = true) {later : Instant}
    (hlater : now ≤ later) :
    ∃ reply, (step c later (start request.atOnce now)).outcome = .reply reply ∧
      step c later (start request now) =
        { step c later (start request.atOnce now) with outcome := .reply reply.timed } := by
  have hreached := Deadline.reached_of_le hlater hlate
  cases request with
  | pushTimeout | pushDeadline => exact stepPush_of_reached hreached
  | pollTimeout | pollDeadline => exact stepPoll_of_reached hreached
  | _ => contradiction

/-- A step that fails leaves the channel as it was, and hands back what it was given. -/
theorem unchanged_of_isError {position : Position α} {reply : Reply α}
    (hreply : (step c now position).outcome = .reply reply) (herror : reply.isError = true) :
    (step c now position).state = c ∧ reply.refused? = position.offered? := by
  cases position with
  | push item deadline =>
    obtain ⟨result?, hturn, hresult⟩ := exists_pushTurn c now item deadline
    obtain ⟨result, rfl, rfl⟩ := Option.map_eq_some_iff.1 ((hresult reply).1 hreply)
    generalize (step c now (.push item deadline)).state = c' at hturn ⊢
    cases hturn with
    | closed | timeout => exact ⟨rfl, rfl⟩
    | pushed => contradiction
  | tryPush item =>
    simp only [step, stepTryPush] at hreply ⊢
    split at hreply
    · cases hreply
      contradiction
    · rename_i failure hpush
      cases hreply
      exact ⟨rfl, congrArg some (item_of_tryPush_eq_error hpush).1⟩
  | poll deadline =>
    obtain ⟨result?, hturn, hresult⟩ := exists_pollTurn c now deadline
    obtain ⟨result, rfl, rfl⟩ := Option.map_eq_some_iff.1 ((hresult reply).1 hreply)
    generalize (step c now (.poll deadline)).state = c' at hturn ⊢
    cases hturn with
    | closed | timeout => exact ⟨rfl, rfl⟩
    | polled => contradiction
  | tryPoll =>
    simp only [step, stepTryPoll] at hreply ⊢
    split at hreply
    · cases hreply
      contradiction
    · cases hreply
      exact ⟨rfl, rfl⟩
  | close =>
    simp only [step, stepClose] at hreply
    split at hreply <;> cases hreply <;> contradiction
  | reportError | pollError | errorCount | droppedErrors | inspect =>
    cases hreply
    contradiction

/-- A step gives up only where the deadline of its call has come. -/
theorem reached_of_isTimeout {began : Instant} {reply : Reply α}
    (hreply : (step c now (start request began)).outcome = .reply reply)
    (htimeout : reply.isTimeout = true) : (request.deadline began).reached now = true := by
  have hpush : ∀ item deadline, (step c now (.push item deadline)).outcome = .reply reply →
      deadline.reached now = true := by
    intro item deadline houtcome
    obtain ⟨result?, hturn, hresult⟩ := exists_pushTurn c now item deadline
    obtain ⟨result, rfl, rfl⟩ := Option.map_eq_some_iff.1 ((hresult reply).1 houtcome)
    generalize (step c now (.push item deadline)).state = c' at hturn
    cases hturn with
    | timeout isOpen full late => exact late
    | closed | pushed => contradiction
  have hpoll : ∀ deadline, (step c now (.poll deadline)).outcome = .reply reply →
      deadline.reached now = true := by
    intro deadline houtcome
    obtain ⟨result?, hturn, hresult⟩ := exists_pollTurn c now deadline
    obtain ⟨result, rfl, rfl⟩ := Option.map_eq_some_iff.1 ((hresult reply).1 houtcome)
    generalize (step c now (.poll deadline)).state = c' at hturn
    cases hturn with
    | timeout isOpen nothing late => exact late
    | closed | polled => contradiction
  cases request with
  | push | pushTimeout | pushDeadline => exact hpush _ _ hreply
  | poll | pollTimeout | pollDeadline => exact hpoll _ hreply
  | tryPush item =>
    simp only [start, step, stepTryPush] at hreply
    split at hreply <;> cases hreply <;> contradiction
  | tryPoll =>
    simp only [start, step, stepTryPoll] at hreply
    split at hreply <;> cases hreply <;> contradiction
  | close =>
    simp only [start, step, stepClose] at hreply
    split at hreply <;> cases hreply <;> contradiction
  | reportError | pollError | errorCount | droppedErrors | inspect =>
    cases hreply
    contradiction

/-- A step that does not return leaves the channel as it was. -/
theorem Effect.unchanged {position : Position α} {move : Step α} (h : Effect c now position move)
    (hwaits : ∀ reply, move.outcome ≠ .reply reply) : move.state = c := by
  cases h with
  | awaitRoom | awaitItem => rfl
  | add | take | refuse | lack | close | aside => exact absurd rfl (hwaits _)

end Looks

/-! ### The call from its beginning on -/

/-- A call waits at the place where it has started. -/
def waitingCourse {begun : System (monitor α)} {thread : Nat} {position : Position α}
    (hplace : placeIn begun.threads thread = some position) : Course begun thread where
  during _ place := place = position
  after _ _ := True
  begins := by
    intro place hthere
    rw [hplace] at hthere
    cases hthere
    rfl
  stays _ _ _ hsame := hsame
  goes := by
    rintro s s' input wakee place move _ _ _ _ moves _ rfl
    exact ⟨fun _ hmoved => ((effect_of_moves moves).stay hmoved).1, fun _ _ => trivial⟩

section Calls

variable {c : Channel α} {now : Instant} {began begun s s' : System (monitor α)} {thread : Nat}
  {request : Request α}

/-- Until it returns, a call stays where it has started. -/
theorem place_of_begun (h : (system c now).Reachable began)
    (hbegin : began.next (.call thread request) = some begun) (hlater : begun.Reachable s)
    (hlasts : s.returnsOf thread = begun.returnsOf thread) :
    placeIn s.threads thread = some (start request began.now) := by
  obtain ⟨hplace, hopen, _, _⟩ := System.begun_of_next hbegin
  have hbegun := h.trans (.single hbegin)
  cases ((waitingCourse hplace).stage (OneByOne.of_reachable hbegun) hopen hlater).1 with
  | @lasts notes returns opened during =>
    obtain ⟨_, _, hthere⟩ := place_of_openCall (hbegun.trans hlater) opened
    rw [hthere, during _ hthere]
  | ended since later returned after =>
    rw [hlasts] at returned
    exact absurd returned.length_le (by simp)

/-- A call that waits can look again, if need be after it has woken. -/
theorem enabled_of_begun (h : (system c now).Reachable began)
    (hbegin : began.next (.call thread request) = some begun) (hlater : begun.Reachable s)
    (hlasts : s.returnsOf thread = begun.returnsOf thread) :
    s.Enabled thread ∨ ∃ roused, s.next (.rouse thread) = some roused ∧ roused.Enabled thread := by
  obtain ⟨phase, here, hphase⟩ :=
    Option.bind_eq_some_iff.1 (place_of_begun h hbegin hlater hlasts)
  cases phase with
  | ready place => exact .inl (enabled_of_awake here rfl)
  | woken condition place => exact .inl (enabled_of_awake here rfl)
  | asleep condition wakeAt place =>
    refine .inr ⟨_, System.next_eq_some_iff.2 (.rouse here), ?_⟩
    exact enabled_of_awake (List.getElem?_set_self (List.getElem?_eq_some_iff.1 here).1) rfl
  | idle | returned | ended => contradiction

/-- What a thread is told by its step is what the step returns. -/
theorem replyOf_eq {position : Position α} {wakee : Nat} {result? : Option (Reply α)}
    (hplace : placeIn s.threads thread = some position)
    (hnext : s.next (.step thread () wakee) = some s')
    (hresult : ∀ reply, (step s.state s.now position).outcome = .reply reply ↔
      result? = some reply) : s'.replyOf thread = result? := by
  apply Option.ext
  intro reply
  rw [System.replyOf_of_next hnext hplace rfl]
  exact hresult reply

/-- A step leaves the channel as the move has it. -/
theorem state_of_next {position : Position α} {wakee : Nat}
    (hplace : placeIn s.threads thread = some position)
    (hnext : s.next (.step thread () wakee) = some s') :
    s'.state = (step s.state s.now position).state := by
  obtain ⟨place, move, hthere, moves, hlayout⟩ := System.moves_of_next hnext
  cases hplace.symm.trans hthere
  cases moves
  exact congrArg Layout.state hlayout

/-- A call that gives up does so by a look at which its deadline has come. -/
theorem exists_late (h : (system c now).Reachable began)
    (hbegin : began.next (.call thread request) = some begun) (hlater : begun.Reachable s)
    {call : Call (monitor α)} {reply : Reply α}
    (hreturned : begun.returnsOf thread ++ [(call, reply)] <+: s.returnsOf thread)
    (htimeout : reply.isTimeout = true) :
    ∃ moment, (request.deadline began.now).reached moment = true := by
  obtain ⟨look, looked, input, wakee, hlook, hlasts, hnext, _, _, hreply⟩ :=
    hlater.exists_return hreturned
  have hplace := place_of_begun h hbegin hlook hlasts
  exact ⟨look.now, reached_of_isTimeout ((System.replyOf_of_next hnext hplace rfl reply).1 hreply)
    htimeout⟩

end Calls

/-- Whatever other threads do: whenever a call that may wait looks at the channel, which it can do
again and again until it returns, a push is told of the close where the channel is closed, and
otherwise is done where there is room, gives up where there is none and its deadline has come, and
waits only where it has not; a poll takes the oldest item where there is one, and otherwise is told
of the close, gives up or waits in the same way. A call that returns has done so by such a look. A
look that waits and one that fails leave the channel as it was, and a push that fails hands its item
back. A call whose deadline has come when it begins does, at its first step, what the same call does
that does not wait, whatever has happened in between. A timeout that leaves the range of moments
makes a call one that waits for ever, and it does not give up. -/
theorem deadlines_agree {capacity errorCapacity : Nat} {capacity_pos : 0 < capacity}
    {errorCapacity_pos : 0 < errorCapacity} {now : Instant} {began begun : System (monitor α)}
    {thread : Nat} {request : Request α}
    (h : (system (.empty capacity errorCapacity capacity_pos errorCapacity_pos) now).Reachable
      began)
    (hbegin : began.next (.call thread request) = some begun) :
    (∀ s, begun.Reachable s → s.returnsOf thread = begun.returnsOf thread →
      (s.Enabled thread ∨
        ∃ roused, s.next (.rouse thread) = some roused ∧ roused.Enabled thread) ∧
      ∀ wakee s', s.next (.step thread () wakee) = some s' →
        (∀ item, request.untimed = .push item → ∃ result?,
          PushTurn s.state s.now item (request.deadline began.now) result? s'.state ∧
          s'.replyOf thread = result?.map .pushed) ∧
        (request.untimed = .poll → ∃ result?,
          PollTurn s.state s.now (request.deadline began.now) result? s'.state ∧
          s'.replyOf thread = result?.map .polled) ∧
        (∀ reply, s'.replyOf thread = some reply → reply.isError = true →
          s'.state = s.state ∧ reply.refused? = request.offered?) ∧
        (s'.replyOf thread = none → s'.state = s.state)) ∧
      (∀ s call reply, begun.Reachable s →
        begun.returnsOf thread ++ [(call, reply)] <+: s.returnsOf thread →
        ∃ look looked wakee, begun.Reachable look ∧
          look.returnsOf thread = begun.returnsOf thread ∧
          look.next (.step thread () wakee) = some looked ∧ looked.Reachable s ∧
          looked.returnsOf thread = begun.returnsOf thread ++ [(call, reply)] ∧
          looked.replyOf thread = some reply) ∧
      ((request.deadline began.now).reached began.now = true →
        ∃ begun', began.next (.call thread request.atOnce) = some begun' ∧
          ∀ events wakee, System.Spares thread events →
            (begun.run (events ++ [.step thread () wakee])).map (fun s =>
                (s.now, s.state, s.others thread, s.replyOf thread)) =
              (begun'.run (events ++ [.step thread () wakee])).map (fun s =>
                (s.now, s.state, s.others thread, (s.replyOf thread).map Reply.timed)) ∧
            ∀ s, begun'.run (events ++ [.step thread () wakee]) = some s →
              ∃ reply, s.replyOf thread = some reply) ∧
      ∀ timeout, request.timeout? = some timeout → began.now.add? timeout = none →
        ∃ begun', began.next (.call thread request.untimed) = some begun' ∧
          (∀ events,
            (begun.run events).map (fun s => (s.now, s.state, s.threads, s.since begun)) =
              (begun'.run events).map (fun s => (s.now, s.state, s.threads, s.since begun'))) ∧
          ∀ s call reply, begun.Reachable s →
            begun.returnsOf thread ++ [(call, reply)] <+: s.returnsOf thread →
            reply.isTimeout = false := by
  refine ⟨?_, ?_, ?_, ?_⟩
  · intro s hlater hlasts
    refine ⟨enabled_of_begun h hbegin hlater hlasts, ?_⟩
    intro wakee s' hnext
    have hplace := place_of_begun h hbegin hlater hlasts
    have hstate := state_of_next hplace hnext
    refine ⟨?_, ?_, ?_, ?_⟩
    · intro item huntimed
      rw [start_of_untimed_push huntimed] at hplace hstate
      obtain ⟨result?, hturn, hresult⟩ := exists_pushTurn s.state s.now item _
      rw [← hstate] at hturn
      exact ⟨result?, hturn, replyOf_eq hplace hnext hresult⟩
    · intro huntimed
      rw [start_of_untimed_poll huntimed] at hplace hstate
      obtain ⟨result?, hturn, hresult⟩ := exists_pollTurn s.state s.now _
      rw [← hstate] at hturn
      exact ⟨result?, hturn, replyOf_eq hplace hnext hresult⟩
    · intro reply hreply herror
      rw [System.replyOf_of_next hnext hplace rfl] at hreply
      rw [hstate, ← offered?_start request began.now]
      exact unchanged_of_isError hreply herror
    · intro hnone
      rw [hstate]
      refine (effect_step (start request began.now)).unchanged ?_
      intro reply hreply
      rw [(System.replyOf_of_next hnext hplace rfl reply).2 hreply] at hnone
      contradiction
  · intro s call reply hlater hreturned
    obtain ⟨look, looked, input, wakee, hlook, hlasts, hnext, hrest⟩ :=
      hlater.exists_return hreturned
    exact ⟨look, looked, wakee, hlook, hlasts, hnext, hrest⟩
  · intro hlate
    obtain ⟨begun', hbegin', htwins⟩ := System.Twins.of_call request.atOnce hbegin
    refine ⟨begun', hbegin', ?_⟩
    intro events wakee hspares
    have hsame : ∀ state later (input : Unit), begun'.now ≤ later →
        ∃ move reply, (monitor α).step state later (start request.atOnce began.now) input =
            some move ∧ move.outcome = .reply reply ∧
          (monitor α).step state later (start request began.now) input =
            some { move with outcome := .reply reply.timed } := by
      intro state later input hlater
      have hle := Nat.le_trans (System.Reachable.single hbegin').now_le hlater
      obtain ⟨reply, houtcome, hstep⟩ := step_of_reached (c := state) hlate hle
      exact ⟨_, reply, rfl, houtcome, congrArg some hstep⟩
    refine ⟨(htwins.symm.map_run hsame hspares () wakee).symm, ?_⟩
    intro s hrun
    refine htwins.symm.exists_reply ?_ hspares hrun
    intro state later input hlater
    obtain ⟨move, reply, moves, houtcome, _⟩ := hsame state later input hlater
    exact ⟨move, reply, moves, houtcome⟩
  · intro timeout htimeout hrange
    have hnever : request.deadline began.now = none := by
      cases request <;> cases htimeout <;> exact hrange
    obtain ⟨begun', hbegin', halike⟩ :=
      System.Alike.of_call (start_untimed hnever) hbegin
    refine ⟨begun', hbegin', halike.map_run, ?_⟩
    intro s call reply hlater hreturned
    by_contra htimes
    obtain ⟨moment, hreached⟩ :=
      exists_late h hbegin hlater hreturned (eq_true_of_ne_false htimes)
    rw [hnever] at hreached
    contradiction

/-- One producer fills a channel and another one waits for room with a deadline. The deadline passes
before a consumer makes room, and the producer wakes late. -/
def lateRoom : List (Event (monitor Nat)) :=
  [.step 1 () 0, .elapse ⟨20, by decide⟩, .call 0 .poll, .step 0 () 1]

theorem deadlines_agree_lateRoom :
    ∃ began begun s s', (system (.empty 1 1 (by decide) (by decide)) .midrange).run
        [.arrive, .arrive, .call 0 (.push 7), .step 0 () 0] = some began ∧
      began.next (.call 1 (.pushTimeout 8 ⟨10, by decide⟩)) = some begun ∧
      begun.run lateRoom = some s ∧ s.next (.step 1 () 0) = some s' ∧
      (Deadline.after began.now ⟨10, by decide⟩).reached s.now = true ∧
      (s'.replyOf 1).map Reply.isPushed = some true ∧
      ∃ result?, PushTurn s.state s.now 8 (.after began.now ⟨10, by decide⟩) result? s'.state ∧
        s'.replyOf 1 = result?.map .pushed := by
  have hruns : (((system (.empty 1 1 (by decide) (by decide)) .midrange).run
      [.arrive, .arrive, .call 0 (.push 7), .step 0 () 0]).bind fun began =>
      (began.next (.call 1 (.pushTimeout 8 ⟨10, by decide⟩))).bind fun begun =>
      (begun.run lateRoom).bind fun s => (s.next (.step 1 () 0)).map fun s' =>
        decide ((Deadline.after began.now ⟨10, by decide⟩).reached s.now = true ∧
          (s'.replyOf 1).map Reply.isPushed = some true ∧ (begun.returnsOf 1).length = 0 ∧
          (s.returnsOf 1).length = 0)) = some true := by
    decide +kernel
  obtain ⟨began, hbegan, hruns⟩ := Option.bind_eq_some_iff.1 hruns
  obtain ⟨begun, hbegin, hruns⟩ := Option.bind_eq_some_iff.1 hruns
  obtain ⟨s, hwaits, hruns⟩ := Option.bind_eq_some_iff.1 hruns
  obtain ⟨s', hnext, hshown⟩ := Option.map_eq_some_iff.1 hruns
  obtain ⟨hlate, hpushed, hbefore, hsince⟩ := of_decide_eq_true hshown
  have hlasts : s.returnsOf 1 = begun.returnsOf 1 := by
    rw [List.length_eq_zero_iff.1 hbefore, List.length_eq_zero_iff.1 hsince]
  obtain ⟨hlooks, _⟩ := deadlines_agree (.run .start hbegan) hbegin
  exact ⟨began, begun, s, s', hbegan, hbegin, hwaits, hnext, hlate, hpushed,
    ((hlooks s (.run .start hwaits) hlasts).2 0 s' hnext).1 8 rfl⟩

end Backpressure.Channel
