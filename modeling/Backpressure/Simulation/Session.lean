import Backpressure.Simulation.World

/-!
# Sessions of scripted threads

A session is a world in which a main thread and any number of named workers carry out scripts.
A script is a list of operations. An operation makes calls, one or several or none, and may act on
the outside or wait for something to happen. The main thread comes first: workers go on only while
it is held up or waits for them.
-/

namespace Backpressure

/-- How an operation goes on. -/
inductive Turn (Request Env Answer : Type) where
  /-- It makes one more call, and leaves the outside like this. -/
  | call (request : Request) (env : Env)
  /-- It waits for something to happen, no longer than a deadline. -/
  | wait (deadline : Deadline)
  /-- It is finished, and leaves the outside like this. -/
  | finish (answer : Answer) (env : Env)

namespace Turn

variable {Request Request' Env Answer Answer' : Type}

/-- An operation that only makes calls leaves the outside as it is. -/
def ofCalls (env : Env) : Request ⊕ Answer → Turn Request Env Answer
  | .inl request => .call request env
  | .inr answer => .finish answer env

/-- The same turn in other words. -/
def map (request : Request → Request') (answer : Answer → Answer') :
    Turn Request Env Answer → Turn Request' Env Answer'
  | .call r env => .call (request r) env
  | .wait deadline => .wait deadline
  | .finish a env => .finish (answer a) env

/-- An operation that waits for its answer to be ready, and gives up at a deadline. -/
def await (ready : Bool) (deadline : Deadline) (now : Instant) (answer : Answer) (env : Env) :
    Turn Request Env Answer :=
  if ready || deadline.reached now then .finish answer env else .wait deadline

end Turn

/-- What scripts on a monitor are made of. -/
structure Stage where
  /-- What the threads share. -/
  monitor : Monitor
  /-- What answers for the outside. -/
  surroundings : Surroundings monitor
  /-- One operation of a script. -/
  Operation : Type
  /-- What an operation comes to. -/
  Answer : Type
  /-- How an operation that began at a moment goes on in a world, after the replies to its calls
  so far, latest first. -/
  plan : Operation → Instant → World monitor surroundings → List monitor.Reply →
    Turn monitor.Request surroundings.Env Answer

/-- A thread that carries out a script. -/
structure Client (S : Stage) where
  /-- Its name. -/
  name : String
  /-- Its number in the system. -/
  thread : Nat
  /-- The operations that are not finished, in order. -/
  script : List S.Operation
  /-- When the first of them began, if it has. -/
  begun : Option Instant
  /-- The replies to calls of the first of them, latest first. -/
  replies : List S.monitor.Reply
  /-- Is a call in progress? -/
  calling : Bool
  /-- The answers of the finished operations, latest first. -/
  answers : List S.Answer

namespace Client

variable {S : Stage}

/-- Has the client finished its script? -/
def isDone (c : Client S) : Bool := c.script.isEmpty

/-- A client with a script before it. -/
def begin (name : String) (thread : Nat) (script : List S.Operation) : Client S :=
  { name, thread, script, begun := none, replies := [], calling := false, answers := [] }

/-- How the client's first operation goes on, provided that no call of it is in progress. -/
def turn? (c : Client S) (w : World S.monitor S.surroundings) :
    Option (Turn S.monitor.Request S.surroundings.Env S.Answer) :=
  c.script.head?.map fun operation => S.plan operation (c.begun.getD w.system.now) w c.replies

/-- The client and its world after a turn of the client's first operation, where it can be taken
now. A wait is taken once, when it begins the operation. -/
def take (c : Client S) (w : World S.monitor S.surroundings) :
    Turn S.monitor.Request S.surroundings.Env S.Answer →
      Option (Client S × World S.monitor S.surroundings)
  | .call request env =>
    let begun := c.begun.getD w.system.now
    ({ w with env : World S.monitor S.surroundings }.react (.call c.thread request)).map fun w =>
      ({ c with begun := some begun, calling := true }, w)
  | .wait _ => if c.begun.isSome then none else some ({ c with begun := some w.system.now }, w)
  | .finish answer env =>
    some ({ c with
      script := c.script.drop 1, begun := none, replies := [], answers := answer :: c.answers },
      { w with env })

/-- The client and its world after the client's next step, where it can take one now. -/
def step (c : Client S) (w : World S.monitor S.surroundings) :
    Option (Client S × World S.monitor S.surroundings) :=
  if c.calling then
    match w.system.threads[c.thread]? with
    | some (.returned reply) =>
      some ({ c with replies := reply :: c.replies, calling := false }, w)
    | _ => (w.stepThread c.thread).map fun w => (c, w)
  else (c.turn? w).bind (c.take w)

/-- The moment at which the client gives up a wait of its own. -/
def due (c : Client S) (w : World S.monitor S.surroundings) : Deadline :=
  match if c.calling then none else c.turn? w with
  | some (.wait deadline) => deadline
  | _ => none

end Client

/-- A world with a main thread and workers. -/
structure Session (S : Stage) where
  /-- The system and its surroundings. -/
  world : World S.monitor S.surroundings
  /-- How many threads belong to the system itself. -/
  background : Nat
  /-- The main thread. -/
  main : Client S
  /-- The workers, in the order in which they came. -/
  workers : List (Client S)

namespace Session

variable {S : Stage}

/-- A session over a system whose threads so far are its own; it begins with a main thread. -/
def start (system : System S.monitor) (env : S.surroundings.Env) : Session S :=
  let world : World S.monitor S.surroundings := { system, env }
  { world := (world.react .arrive).getD world
    background := system.threads.length
    main := .begin "main" system.threads.length []
    workers := [] }

/-- The present moment. -/
def now (s : Session S) : Instant := s.world.system.now

/-- The state that the threads share. -/
def state (s : Session S) : S.monitor.State := s.world.system.state

/-- The first worker that can take a step takes it. -/
def stepWorkers (w : World S.monitor S.surroundings) :
    List (Client S) → Option (List (Client S) × World S.monitor S.surroundings)
  | [] => none
  | c :: rest =>
    match c.step w with
    | some (c, w) => some (c :: rest, w)
    | none => (stepWorkers w rest).map fun (rest, w) => (c :: rest, w)

/-- The main thread takes a step, or else a thread of the system, or else a worker. -/
def step (s : Session S) : Option (Session S) :=
  match s.main.step s.world with
  | some (main, world) => some { s with main, world }
  | none =>
    match s.world.stepBackground s.background with
    | some world => some { s with world }
    | none => (stepWorkers s.world s.workers).map fun (workers, world) => { s with workers, world }

/-- The first moment at which somebody gives up a wait. -/
def due (s : Session S) : Deadline :=
  s.workers.foldl (fun earliest c => earliest.earlier (c.due s.world)) (s.main.due s.world)

/-- Steps are taken, and time passes where none can be, until the session is as wanted, or the
limit has come and nobody can go on, or nobody ever can. -/
def drive (wanted : Session S → Bool) (limit : Deadline) : Nat → Session S → Session S
  | 0, s => s
  | fuel + 1, s =>
    if wanted s then s
    else
      match s.step with
      | some s => drive wanted limit fuel s
      | none =>
        match s.world.passTime (limit.earlier s.due) with
        | some world => drive wanted limit fuel { s with world }
        | none => s

/-- The most steps that one operation of a session may take. -/
def patience : Nat := 10000000

/-- How long a session is watched before it counts as settled. -/
def watch : Duration := .ofMillis 3

/-- Everybody goes on for as long as the session is watched, so that waits shorter than that come to
their end, and then until all are held up or finished. -/
def settle (s : Session S) : Session S :=
  drive (fun _ => false) (some ((s.now.add? watch).getD s.now)) patience s

/-- The main thread carries out an operation; none if it is held up forever. -/
def perform (s : Session S) (operation : S.Operation) : Option S.Answer × Session S :=
  let begun := { s with main := .begin "main" s.main.thread [operation] }
  let s := drive (·.main.isDone) none patience begun
  (s.main.answers.head?, s)

/-- A new worker with a script appears. -/
def enlist (s : Session S) (name : String) (script : List S.Operation) : Session S :=
  let worker := Client.begin name s.world.system.threads.length script
  { s with
    world := (s.world.react .arrive).getD s.world
    workers := s.workers ++ [worker] }

/-- A new worker with a script appears, and the session settles. -/
def spawn (s : Session S) (name : String) (script : List S.Operation) : Session S :=
  settle (s.enlist name script)

/-- The names of the workers that are held up, and of those that have finished. -/
def standing (s : Session S) : List String × List String :=
  ((s.workers.filter (!·.isDone)).map (·.name), (s.workers.filter (·.isDone)).map (·.name))

/-- The main thread waits for some time to pass. -/
def sleep (s : Session S) (duration : Duration) : Session S :=
  match s.now.add? duration with
  | none => s
  | some limit => drive (fun s => limit ≤ s.now) (some limit) patience s

/-- The main thread waits for workers to finish, and takes their answers with it; none for a
worker that is held up forever. -/
def join (s : Session S) (names : List String) : List (Option (List S.Answer)) × Session S :=
  let among (c : Client S) : Bool := names.contains c.name
  let s := drive (fun s => s.workers.all fun c => !among c || c.isDone) none patience s
  let answersOf (name : String) : Option (List S.Answer) :=
    (s.workers.find? fun c => c.name == name && c.isDone).map (·.answers.reverse)
  (names.map answersOf, { s with workers := s.workers.filter (!among ·) })

end Session

end Backpressure
