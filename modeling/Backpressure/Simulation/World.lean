import Backpressure.Monitor

/-!
# Systems in simulated surroundings

A simulation runs a system on one of its schedules. The surroundings answer for everything a step
takes from outside: a clock reading, a tick, the outcome of a delivery. Time is virtual. Each step
takes a nanosecond, a sleeper wakes a little after its time, and when no thread can go on, time
moves to the next moment at which one can.
-/

namespace Backpressure

/-- What answers for the outside of a monitor. -/
structure Surroundings (M : Monitor) where
  /-- The state of the outside. -/
  Env : Type
  /-- What a thread's next step is given, and the outside afterwards; none while the outside holds
  the thread back. -/
  offer : Env → Instant → M.Position → Option (M.Input × Env)
  /-- The moment at which the outside will have something new for a thread at this place. -/
  due : Env → M.Position → Deadline

/-- A system and its surroundings. -/
structure World (M : Monitor) (S : Surroundings M) where
  /-- The system. -/
  system : System M
  /-- The outside. -/
  env : S.Env

namespace World

variable {M : Monitor} {S : Surroundings M}

/-- Timers go off late by this much. -/
def lateness : Duration := Duration.ofNanos 50000

/-- The moment at which a sleeper that is to wake at some moment does wake. -/
def wakesAt (wakeAt : Deadline) : Deadline := wakeAt.bind (·.add? lateness)

/-- The first thread that sleeps on the condition of a signal for one thread, and otherwise the
first thread of all. -/
def chooseWakee (threads : List (Phase M)) (signals : List (Signal M.Condition)) : Nat :=
  let sleeper : Signal M.Condition → Option Nat
    | .one condition => threads.findIdx? (·.sleepsOn condition)
    | .all _ => none
  (signals.findSome? sleeper).getD 0

/-- The world after an event of its system. -/
def react (w : World M S) (event : Event M) : Option (World M S) :=
  (w.system.next event).map fun system => { w with system }

/-- The system one nanosecond later. -/
def lapse (s : System M) : System M := (s.next (.elapse (Duration.ofNanos 1))).getD s

/-- The world after the next step of a thread, where it can take one now: a sleeper whose time has
come wakes, and a thread that is awake takes a step with what the outside offers. -/
def stepThread (w : World M S) (thread : Nat) : Option (World M S) :=
  match w.system.threads[thread]? with
  | some (.asleep _ wakeAt _) =>
    if (wakesAt wakeAt).reached w.system.now then w.react (.rouse thread) else none
  | some phase => do
    let position ← phase.position?
    let (input, env) ← S.offer w.env w.system.now position
    let move ← M.step w.system.state w.system.now position input
    let wakee := chooseWakee w.system.threads move.signals
    let system ← w.system.next (.step thread input wakee)
    some { system := lapse system, env }
  | none => none

/-- The world after a step of the first thread below a bound that can take one. -/
def stepBackground (w : World M S) (bound : Nat) : Option (World M S) :=
  (List.range bound).findSome? w.stepThread

/-- The moment at which time alone lets this thread go on. -/
def dueOf (w : World M S) : Phase M → Deadline
  | .asleep _ wakeAt _ => wakesAt wakeAt
  | phase => phase.position?.bind (S.due w.env)

/-- The first moment at which time alone lets some thread go on. -/
def nextDue (w : World M S) : Deadline :=
  w.system.threads.foldl (fun earliest phase => earliest.earlier (w.dueOf phase)) none

/-- The world at a later moment. -/
def moveTo (w : World M S) (moment : Instant) : Option (World M S) :=
  w.react (.elapse (moment.since w.system.now))

/-- Time moves to the next moment at which a thread can go on, or to the limit if that comes
first; nothing happens if the limit has come, or if there is no such moment. -/
def passTime (w : World M S) (limit : Deadline) : Option (World M S) :=
  if limit.reached w.system.now then none
  else do
    let target ← Deadline.earlier w.nextDue limit
    w.moveTo target

end World

end Backpressure
