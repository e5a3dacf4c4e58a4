import Backpressure.Channel.Script

/-!
# What one step does to a channel

Pushes and polls come in several kinds that wait differently, but one step of any of them does one
of a few things to the queue. They are told apart here once.
-/

namespace Backpressure.Channel

variable {α : Type}

/-- The item that a call wants to add. -/
def Request.offered? : Request α → Option α
  | .push item | .pushTimeout item _ | .pushDeadline item _ | .tryPush item => some item
  | _ => none

/-- Does a call want to take an item? -/
def Request.isPoll : Request α → Bool
  | .poll | .pollTimeout _ | .pollDeadline _ | .tryPoll => true
  | _ => false

/-- The item that a thread at this place wants to add. -/
def Position.offered? : Position α → Option α
  | .push item _ | .tryPush item => some item
  | _ => none

/-- Does a thread at this place want to take an item? -/
def Position.isPoll : Position α → Bool
  | .poll _ | .tryPoll => true
  | _ => false

/-- Did a push succeed? -/
def Reply.isPushed : Reply α → Bool
  | .pushed (.ok _) | .triedPush (.ok _) => true
  | _ => false

/-- The item that a push handed back. -/
def Reply.refused? : Reply α → Option α
  | .pushed (.error failure) => some failure.item
  | .triedPush (.error failure) => some failure.item
  | _ => none

/-- The item that a note says was added. -/
def Note.accepted? : Note α → Option α
  | .accepted item => some item
  | _ => none

/-- The item that a note says was taken. -/
def Note.removed? : Note α → Option α
  | .removed item => some item
  | _ => none

@[simp]
theorem offered?_start (request : Request α) (now : Instant) :
    (start request now).offered? = request.offered? := by
  cases request <;> rfl

@[simp]
theorem isPoll_start (request : Request α) (now : Instant) :
    (start request now).isPoll = request.isPoll := by
  cases request <;> rfl

/-- Who takes an item offers none. -/
theorem offered?_of_isPoll {position : Position α} (h : position.isPoll = true) :
    position.offered? = none := by
  cases position <;> simp_all [Position.isPoll, Position.offered?]

/-- Who gets an item has not pushed one. -/
theorem isPushed_of_item? {reply : Reply α} {item : α} (h : reply.item? = some item) :
    reply.isPushed = false := by
  cases reply <;> simp_all [Reply.item?, Reply.isPushed]

/-- A push that hands its item back has not succeeded. -/
theorem isPushed_of_refused? {reply : Reply α} {item : α} (h : reply.refused? = some item) :
    reply.isPushed = false := by
  cases reply with
  | pushed result => cases result <;> simp_all [Reply.refused?, Reply.isPushed]
  | triedPush result => cases result <;> simp_all [Reply.refused?, Reply.isPushed]
  | _ => rfl

/-- Who has pushed an item has got none. -/
theorem item?_of_isPushed {reply : Reply α} (h : reply.isPushed = true) : reply.item? = none := by
  cases reply <;> simp_all [Reply.isPushed, Reply.item?]

/-- Who gets his own item back has got no other. -/
theorem item?_of_refused? {reply : Reply α} {item : α} (h : reply.refused? = some item) :
    reply.item? = none := by
  cases reply <;> simp_all [Reply.refused?, Reply.item?]

/-- What a step at a place does to a channel. -/
inductive Effect (c : Channel α) (now : Instant) : Position α → Step α → Prop
  /-- An item is added where there is room. -/
  | add {position item reply} (offers : position.offered? = some item) (isOpen : c.closed = false)
      (room : c.queue.length < c.capacity) (isPushed : reply.isPushed = true) :
      Effect c now position (pushed { c with queue := c.queue ++ [item] } item reply)
  /-- The oldest item is taken. -/
  | take {position item rest reply} (polls : position.isPoll = true)
      (front : c.queue = item :: rest) (got : reply.item? = some item) :
      Effect c now position (polled { c with queue := rest } item reply)
  /-- An item is handed back. -/
  | refuse {position item reply} (offers : position.offered? = some item)
      (noRoom : c.closed = false → c.capacity ≤ c.queue.length)
      (handed : reply.refused? = some item) : Effect c now position (.reply c reply)
  /-- No item is there to be taken. -/
  | lack {position reply} (polls : position.isPoll = true) (nothing : c.queue = [])
      (notPushed : reply.isPushed = false) (noItem : reply.item? = none) :
      Effect c now position (.reply c reply)
  /-- A push waits for room. -/
  | awaitRoom {item deadline} (isOpen : c.closed = false) (full : c.capacity ≤ c.queue.length)
      (early : deadline.reached now = false) :
      Effect c now (.push item deadline)
        { state := c, outcome := .sleep .notFull deadline (.push item deadline)
          signals := [], notes := [] }
  /-- A poll waits for an item. -/
  | awaitItem {deadline} (isOpen : c.closed = false) (nothing : c.queue = [])
      (early : deadline.reached now = false) :
      Effect c now (.poll deadline)
        { state := c, outcome := .sleep .notEmpty deadline (.poll deadline)
          signals := [], notes := [] }
  /-- The channel is closed. -/
  | close (isOpen : c.closed = false) :
      Effect c now .close
        { state := c.close, outcome := .reply .done
          signals := [.all .notEmpty, .all .notFull], notes := [.closed c.length] }
  /-- Nothing that concerns the queue happens. -/
  | aside {position : Position α} {state : Channel α} {reply : Reply α} {notes : List (Note α)}
      (noOffer : position.offered? = none) (noPoll : position.isPoll = false)
      (sameQueue : state.queue = c.queue) (sameClosed : state.closed = c.closed)
      (sameCapacity : state.capacity = c.capacity)
      (notPushed : reply.isPushed = false) (noItem : reply.item? = none)
      (noneAdded : notes.filterMap Note.accepted? = [])
      (noneTaken : notes.filterMap Note.removed? = []) :
      Effect c now position { state, outcome := .reply reply, signals := [], notes }

variable {c : Channel α} {now : Instant}

/-- A push that fails hands its item back, and an open channel fails it only without room. -/
theorem item_of_tryPush_eq_error {item : α} {failure : TryPushError α}
    (h : c.tryPush item = .error failure) :
    failure.item = item ∧ (c.closed = false → c.capacity ≤ c.queue.length) := by
  unfold tryPush at h
  split at h
  · cases h
    simp_all [TryPushError.item]
  · split at h
    · cases h
      simp_all [TryPushError.item, isFull]
    · contradiction

/-- A push fails for want of room where the channel is open and full. -/
theorem tryPush_eq_full_iff {item handed : α} :
    c.tryPush item = .error (.full handed) ↔
      c.closed = false ∧ c.capacity ≤ c.queue.length ∧ handed = item := by
  unfold tryPush
  by_cases hclosed : c.closed = true
  · simp [hclosed]
  · by_cases hfull : c.capacity ≤ c.queue.length
    · simp [hclosed, isFull, hfull, eq_comm]
    · simp [hclosed, isFull, hfull]

/-- A push is refused for good where the channel is closed, with or without room. -/
theorem tryPush_eq_closed_iff {item handed : α} :
    c.tryPush item = .error (.closed handed) ↔ c.closed = true ∧ handed = item := by
  unfold tryPush
  by_cases hclosed : c.closed = true
  · simp [hclosed, eq_comm]
  · by_cases hfull : c.isFull = true <;> simp [hclosed, hfull]

/-- A poll fails where nothing is queued, and its failure tells whether the channel is closed. -/
theorem tryPoll_eq_error_iff {failure : TryPollError} :
    c.tryPoll = .error failure ↔
      c.queue = [] ∧ failure = if c.closed then .closed else .empty := by
  unfold tryPoll
  split
  · simp_all
  · simp_all only [Except.error.injEq, true_and]
    exact eq_comm

theorem effect_stepPush (item : α) (deadline : Deadline) :
    Effect c now (.push item deadline) (stepPush c now item deadline) := by
  unfold stepPush
  split
  · rename_i c' hpush
    obtain ⟨hopen, hroom, rfl⟩ := tryPush_eq_ok_iff.1 hpush
    exact .add rfl hopen hroom rfl
  · rename_i handed hpush
    obtain ⟨hitem, hroom⟩ := item_of_tryPush_eq_error hpush
    cases hitem
    exact .refuse rfl hroom rfl
  · rename_i handed hpush
    obtain ⟨hopen, hfull, rfl⟩ := tryPush_eq_full_iff.1 hpush
    split
    · exact .refuse rfl (fun _ => hfull) rfl
    · rename_i hearly
      exact .awaitRoom hopen hfull (eq_false_of_ne_true hearly)

theorem effect_stepTryPush (item : α) :
    Effect c now (.tryPush item) (stepTryPush c item) := by
  unfold stepTryPush
  split
  · rename_i c' hpush
    obtain ⟨hopen, hroom, rfl⟩ := tryPush_eq_ok_iff.1 hpush
    exact .add rfl hopen hroom rfl
  · rename_i failure hpush
    obtain ⟨hitem, hroom⟩ := item_of_tryPush_eq_error hpush
    exact .refuse rfl hroom (congrArg some hitem)

theorem effect_stepPoll (deadline : Deadline) :
    Effect c now (.poll deadline) (stepPoll c now deadline) := by
  unfold stepPoll
  split
  · rename_i item c' hpoll
    obtain ⟨hfront, hsame⟩ := tryPoll_eq_ok_iff.1 hpoll
    rw [hsame]
    exact .take rfl hfront rfl
  · rename_i hpoll
    exact .lack rfl (tryPoll_eq_error_iff.1 hpoll).1 rfl rfl
  · rename_i hpoll
    obtain ⟨hnothing, hstatus⟩ := tryPoll_eq_error_iff.1 hpoll
    split
    · exact .lack rfl hnothing rfl rfl
    · rename_i hearly
      have hopen : c.closed = false := by
        cases hclosed : c.closed with
        | false => rfl
        | true => simp [hclosed] at hstatus
      exact .awaitItem hopen hnothing (eq_false_of_ne_true hearly)

theorem effect_stepTryPoll : Effect c now .tryPoll (stepTryPoll c) := by
  unfold stepTryPoll
  split
  · rename_i item c' hpoll
    obtain ⟨hfront, hsame⟩ := tryPoll_eq_ok_iff.1 hpoll
    rw [hsame]
    exact .take rfl hfront rfl
  · rename_i hpoll
    exact .lack rfl (tryPoll_eq_error_iff.1 hpoll).1 rfl rfl

theorem effect_stepClose : Effect c now .close (stepClose c) := by
  unfold stepClose
  split
  · exact .aside rfl rfl rfl rfl rfl rfl rfl rfl rfl
  · rename_i hopen
    exact .close (eq_false_of_ne_true hopen)

/-- Every step of a channel has one of the effects. -/
theorem effect_step (position : Position α) : Effect c now position (step c now position) := by
  cases position with
  | push item deadline => exact effect_stepPush item deadline
  | tryPush item => exact effect_stepTryPush item
  | poll deadline => exact effect_stepPoll deadline
  | tryPoll => exact effect_stepTryPoll
  | close => exact effect_stepClose
  | reportError error =>
    refine .aside rfl rfl rfl rfl rfl rfl rfl ?_ ?_ <;>
      cases c.errors.discarded? <;> simp [Note.accepted?, Note.removed?]
  | pollError =>
    refine .aside rfl rfl rfl rfl rfl rfl rfl ?_ ?_ <;>
      cases c.errors.oldest? <;> simp [Note.accepted?, Note.removed?]
  | errorCount | droppedErrors | inspect => exact .aside rfl rfl rfl rfl rfl rfl rfl rfl rfl

/-- Every move of a thread on a shared channel has one of the effects. -/
theorem effect_of_moves {position : Position α} {move : Step α}
    (h : (monitor α).step c now position () = some move) : Effect c now position move := by
  cases h
  exact effect_step position

/-- A closed channel without items stays one. -/
theorem Effect.spent {position : Position α} {move : Step α} (h : Effect c now position move)
    (hclosed : c.closed = true) (hqueue : c.queue = []) :
    move.state.closed = true ∧ move.state.queue = [] := by
  cases h with
  | add offers isOpen room isPushed =>
    rw [hclosed] at isOpen
    contradiction
  | take polls front got =>
    rw [hqueue] at front
    contradiction
  | close isOpen => exact ⟨rfl, hqueue⟩
  | aside noOffer noPoll sameQueue sameClosed =>
    exact ⟨sameClosed.trans hclosed, sameQueue.trans hqueue⟩
  | refuse | lack | awaitRoom | awaitItem => exact ⟨hclosed, hqueue⟩

/-- A thread that does not poll takes nothing. -/
theorem Effect.removes_nothing {position : Position α} {move : Step α}
    (h : Effect c now position move) (hpoll : position.isPoll = false) :
    move.notes.filterMap Note.removed? = [] := by
  cases h with
  | take polls front got =>
    rw [hpoll] at polls
    contradiction
  | aside noOffer noPoll sameQueue sameClosed sameCapacity notPushed noItem noneAdded noneTaken =>
    exact noneTaken
  | _ => rfl

/-- A thread that offers nothing adds nothing. -/
theorem Effect.adds_nothing {position : Position α} {move : Step α}
    (h : Effect c now position move) (hoffer : position.offered? = none) :
    move.notes.filterMap Note.accepted? = [] := by
  cases h with
  | add offers =>
    rw [hoffer] at offers
    contradiction
  | aside noOffer noPoll sameQueue sameClosed sameCapacity notPushed noItem noneAdded noneTaken =>
    exact noneAdded
  | _ => rfl

/-- A closed channel stays closed, and nothing is added to it. -/
theorem Effect.closed {position : Position α} {move : Step α} (h : Effect c now position move)
    (hclosed : c.closed = true) :
    move.state.closed = true ∧ move.notes.filterMap Note.accepted? = [] := by
  cases h with
  | add offers isOpen room isPushed =>
    rw [hclosed] at isOpen
    contradiction
  | close isOpen => exact ⟨rfl, rfl⟩
  | aside noOffer noPoll sameQueue sameClosed sameCapacity notPushed noItem noneAdded noneTaken =>
    exact ⟨sameClosed.trans hclosed, noneAdded⟩
  | take | refuse | lack | awaitRoom | awaitItem => exact ⟨hclosed, rfl⟩

/-- A poll without a deadline takes an item, finds the channel closed and empty, or sleeps. -/
theorem cases_of_poll {move : Step α}
    (h : (monitor α).step c now (.poll none) () = some move) :
    (∃ item rest, c.queue = item :: rest ∧
        move = polled { c with queue := rest } item (.polled (.ok item))) ∨
      (c.queue = [] ∧ c.closed = true ∧ move = .reply c (.polled (.error .closed))) ∨
      move = { state := c, outcome := .sleep .notEmpty none (.poll none), signals := [],
               notes := [] } := by
  cases h
  simp only [step, stepPoll]
  split
  · rename_i item c' hpoll
    obtain ⟨hfront, hsame⟩ := tryPoll_eq_ok_iff.1 hpoll
    exact .inl ⟨item, c'.queue, hfront, by rw [← hsame]⟩
  · rename_i hpoll
    obtain ⟨hnothing, hstatus⟩ := tryPoll_eq_error_iff.1 hpoll
    have hclosed : c.closed = true := by
      cases hc : c.closed with
      | true => rfl
      | false => simp [hc] at hstatus
    exact .inr (.inl ⟨hnothing, hclosed, rfl⟩)
  · exact .inr (.inr rfl)

end Backpressure.Channel
