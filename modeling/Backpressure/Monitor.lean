import Backpressure.Time

/-!
# Monitors and their systems of threads

A monitor is shared state that threads use through calls. A call runs as a sequence of atomic
steps: one step is everything a thread does while it holds the lock on the state, or one thing it
does without the lock. A step may wake threads that sleep on a condition, and it may be impossible
for now, as when a thread waits for another one to end.

A system is the shared state together with every thread's place in its call. Its events are the
passing of time, a new thread, the start of a call, a wake-up without cause, and one step of one
thread; all schedules of any number of threads are lists of events. The journal keeps what has
happened, in order.
-/

namespace Backpressure

/-- A wake-up for threads that sleep on a condition: for one of them or for all. -/
inductive Signal (Condition : Type) where
  | one (condition : Condition)
  | all (condition : Condition)
  deriving DecidableEq, Repr

/-- The same wake-up on a renamed condition. -/
def Signal.map {Condition Condition' : Type} (f : Condition → Condition') :
    Signal Condition → Signal Condition'
  | .one condition => .one (f condition)
  | .all condition => .all (f condition)

/-- How a thread goes on after an atomic step. -/
inductive Outcome (Position Reply Condition : Type) where
  /-- It stands at another place of the same call. -/
  | proceed (position : Position)
  /-- It sleeps on a condition, no longer than the deadline, and then stands at the position. -/
  | sleep (condition : Condition) (wakeAt : Deadline) (position : Position)
  /-- Its call returns. -/
  | reply (reply : Reply)
  /-- The thread ends. -/
  | exit
  deriving DecidableEq, Repr

/-- The effect of one atomic step. -/
structure Move (State Position Reply Condition Note : Type) where
  /-- The shared state afterwards. -/
  state : State
  /-- What becomes of the thread that took the step. -/
  outcome : Outcome Position Reply Condition
  /-- The wake-ups that the step sends, in order. -/
  signals : List (Signal Condition)
  /-- What the step adds to the journal, in order. -/
  notes : List Note

namespace Move

variable {State Position Reply Condition Note : Type}
variable {State' Position' Reply' Condition' Note' : Type}

/-- A step that goes on to another place of its call, and does nothing else. -/
def proceed (state : State) (position : Position) : Move State Position Reply Condition Note :=
  { state, outcome := .proceed position, signals := [], notes := [] }

/-- A step that returns, and does nothing else. -/
def reply (state : State) (reply : Reply) : Move State Position Reply Condition Note :=
  { state, outcome := .reply reply, signals := [], notes := [] }

/-- A step of one part of a larger state, as a step of the whole. The call on the part is itself
part of a larger call, which goes on in its own way once the smaller one returns. -/
def embed (move : Move State Position Reply Condition Note) (state : State → State')
    (position : Position → Position') (condition : Condition → Condition')
    (note : Note → Note') (finish : Reply → Outcome Position' Reply' Condition') :
    Move State' Position' Reply' Condition' Note' :=
  { state := state move.state
    outcome :=
      match move.outcome with
      | .proceed p => .proceed (position p)
      | .sleep c wakeAt p => .sleep (condition c) wakeAt (position p)
      | .reply r => finish r
      | .exit => .exit
    signals := move.signals.map (·.map condition)
    notes := move.notes.map note }

end Move

/-- Shared state with the calls that threads make on it. -/
structure Monitor where
  /-- The state under the lock. -/
  State : Type
  /-- What a caller can ask for. -/
  Request : Type
  /-- Where a thread stands in its call. -/
  Position : Type
  /-- What a call returns. -/
  Reply : Type
  /-- What threads sleep on. -/
  Condition : Type
  /-- What the surroundings supply to one step: a clock reading, the outcome of a delivery. -/
  Input : Type
  /-- What a step can record. -/
  Note : Type
  /-- Conditions can be told apart. -/
  decEqCondition : DecidableEq Condition
  /-- The place at which a call that begins at a moment starts. -/
  start : Request → Instant → Position
  /-- One atomic step of a thread, taken at a moment with an input; none where it cannot go on. -/
  step : State → Instant → Position → Input → Option (Move State Position Reply Condition Note)

instance (M : Monitor) : DecidableEq M.Condition := M.decEqCondition

/-- What a thread is doing. -/
inductive Phase (M : Monitor) where
  /-- It has made no call yet. -/
  | idle
  /-- Its last call has returned. -/
  | returned (reply : M.Reply)
  /-- It is about to take a step. -/
  | ready (position : M.Position)
  /-- It sleeps and nothing has woken it. -/
  | asleep (condition : M.Condition) (wakeAt : Deadline) (position : M.Position)
  /-- It has been woken and has not looked at the state since. -/
  | woken (condition : M.Condition) (position : M.Position)
  /-- It has ended. -/
  | ended

namespace Phase

variable {M : Monitor}

/-- May the thread begin a call? -/
def isFree : Phase M → Bool
  | .idle | .returned _ => true
  | _ => false

/-- The place of a thread that is awake within a call. -/
def position? : Phase M → Option M.Position
  | .ready position | .woken _ position => some position
  | _ => none

/-- Does the thread sleep on this condition? -/
def sleepsOn (condition : M.Condition) : Phase M → Bool
  | .asleep c _ _ => c = condition
  | _ => false

/-- A sleeping thread is woken; any other is left alone. -/
def wake : Phase M → Phase M
  | .asleep condition _ position => .woken condition position
  | phase => phase

/-- What a thread is doing after a step with this outcome. -/
def ofOutcome : Outcome M.Position M.Reply M.Condition → Phase M
  | .proceed position => .ready position
  | .sleep condition wakeAt position => .asleep condition wakeAt position
  | .reply reply => .returned reply
  | .exit => .ended

end Phase

/-- Something that has happened in a system. Threads are numbered from zero. -/
inductive Entry (M : Monitor) where
  /-- A thread began a call. -/
  | called (thread : Nat) (request : M.Request)
  /-- A thread's step recorded something. -/
  | noted (thread : Nat) (note : M.Note)
  /-- A thread's call returned. -/
  | returned (thread : Nat) (reply : M.Reply)

/-- A monitor's state, its threads, the present moment, and what has happened so far. -/
structure System (M : Monitor) where
  /-- The present moment of real time. -/
  now : Instant
  /-- The state under the lock. -/
  state : M.State
  /-- What each thread is doing. -/
  threads : List (Phase M)
  /-- What has happened, latest first. -/
  journal : List (Entry M)

/-- One event of a system. -/
inductive Event (M : Monitor) where
  /-- Time passes. -/
  | elapse (duration : Duration)
  /-- A new thread appears. -/
  | arrive
  /-- A free thread begins a call. -/
  | call (thread : Nat) (request : M.Request)
  /-- A sleeping thread wakes without a signal, for its deadline or for no reason. -/
  | rouse (thread : Nat)
  /-- A thread takes one step; if it wakes one thread of several, it is this one. -/
  | step (thread : Nat) (input : M.Input) (wakee : Nat)

namespace System

variable {M : Monitor}

/-- The system in which only the given threads are at work, each at its place. -/
def initial (state : M.State) (now : Instant) (background : List M.Position) : System M :=
  { now, state, threads := background.map .ready, journal := [] }

/-- Wakes the threads that a signal reaches. A signal for one thread wakes the chosen sleeper and
is lost where nobody sleeps on its condition. -/
def deliver (threads : List (Phase M)) (wakee : Nat) :
    Signal M.Condition → Option (List (Phase M))
  | .all condition =>
    some (threads.map fun phase => if phase.sleepsOn condition then phase.wake else phase)
  | .one condition =>
    if threads.any (·.sleepsOn condition) then
      match threads[wakee]? with
      | some phase =>
        if phase.sleepsOn condition then some (threads.set wakee phase.wake) else none
      | none => none
    else some threads

/-- Delivers signals one after the other. -/
def deliverAll (wakee : Nat) :
    List (Signal M.Condition) → List (Phase M) → Option (List (Phase M))
  | [], threads => some threads
  | signal :: rest, threads => (deliver threads wakee signal).bind (deliverAll wakee rest)

/-- The journal entries of a move by a thread, oldest first: its notes, and its reply if its call
returns. -/
def entries (thread : Nat)
    (move : Move M.State M.Position M.Reply M.Condition M.Note) : List (Entry M) :=
  move.notes.map (.noted thread) ++
    match move.outcome with
    | .reply reply => [.returned thread reply]
    | _ => []

/-- The system after a thread's move. -/
def perform (s : System M) (thread wakee : Nat)
    (move : Move M.State M.Position M.Reply M.Condition M.Note) : Option (System M) :=
  (deliverAll wakee move.signals s.threads).map fun threads =>
    { now := s.now
      state := move.state
      threads := threads.set thread (.ofOutcome move.outcome)
      journal := (entries thread move).reverse ++ s.journal }

/-- The system after an event, where the event can happen. -/
def next (s : System M) : Event M → Option (System M)
  | .elapse duration => (s.now.add? duration).map fun now => { s with now }
  | .arrive => some { s with threads := s.threads ++ [.idle] }
  | .call thread request =>
    match s.threads[thread]? with
    | some phase =>
      if phase.isFree then
        some { s with
          threads := s.threads.set thread (.ready (M.start request s.now))
          journal := .called thread request :: s.journal }
      else none
    | none => none
  | .rouse thread =>
    match s.threads[thread]? with
    | some (.asleep condition _ position) =>
      some { s with threads := s.threads.set thread (.woken condition position) }
    | _ => none
  | .step thread input wakee => do
    let phase ← s.threads[thread]?
    let position ← phase.position?
    let move ← M.step s.state s.now position input
    s.perform thread wakee move

/-- The system after a list of events, where each can happen in its turn. -/
def run (s : System M) : List (Event M) → Option (System M)
  | [] => some s
  | event :: rest => (s.next event).bind (run · rest)

/-- The systems that some schedule leads to. -/
inductive Reachable (start : System M) : System M → Prop
  | start : Reachable start start
  | next {s s' : System M} {event : Event M} :
      Reachable start s → s.next event = some s' → Reachable start s'

namespace Reachable

variable {a b c : System M}

/-- What a reachable system reaches is reachable. -/
theorem trans (first : Reachable a b) (second : Reachable b c) : Reachable a c := by
  induction second with
  | start => exact first
  | next _ event ih => exact .next ih event

/-- One event leads to a reachable system. -/
theorem single {event : Event M} (h : a.next event = some b) : Reachable a b := .next .start h

end Reachable

/-- Can a thread take a step with some input? -/
def Enabled (s : System M) (thread : Nat) : Prop :=
  ∃ input wakee, (s.next (.step thread input wakee)).isSome

/-- What the threads have recorded, oldest first. -/
def notes (s : System M) : List M.Note :=
  s.journal.reverse.filterMap fun
    | .noted _ note => some note
    | _ => none

end System

end Backpressure
