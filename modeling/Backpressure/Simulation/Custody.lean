import Backpressure.Simulation.Session

/-!
# Objects that threads share

Threads that share an object find it in one place. Once it is taken from there, no operation can
begin on it any more, and it is let go as soon as none is under way: by the thread that takes it
away, or else by the one whose operation ends last. Letting go of an object is a call of its own,
the farewell.
-/

namespace Backpressure

/-- Where a shared object stands. -/
structure Custody where
  /-- Is it in its place? -/
  kept : Bool := true
  /-- How many operations are under way on it? -/
  users : Nat := 0
  deriving DecidableEq, Repr

namespace Custody

/-- One more operation is under way. -/
def enter (c : Custody) : Custody := { c with users := c.users + 1 }

/-- One operation has ended. -/
def leave (c : Custody) : Custody := { c with users := c.users - 1 }

/-- The object is taken away. -/
def remove (c : Custody) : Custody := { c with kept := false }

/-- Is an operation under way that is the last one on the object? -/
def isLast (c : Custody) : Bool := !c.kept && c.users == 1

variable {Request Reply Env Answer : Type}

/-- How an operation on the object goes on, where it has calls to make and an answer to give after
some replies, latest first: the operation that ends last makes the farewell before it answers. -/
def use (c : Custody) (put : Custody → Env) (farewell : Request)
    (calls : List Reply → Request ⊕ Answer) (replies : List Reply) : Turn Request Env Answer :=
  match replies with
  | [] =>
    match calls [] with
    | .inl request => .call request (put c.enter)
    | .inr answer => .finish answer (put c)
  | _ :: earlier =>
    match calls earlier with
    | .inr answer => .finish answer (put c.leave)
    | .inl _ =>
      match calls replies with
      | .inl request => .call request (put c)
      | .inr answer => if c.isLast then .call farewell (put c) else .finish answer (put c.leave)

/-- How taking the object away goes on after some replies: the farewell is made at once if no
operation is under way. To take it away again changes nothing. -/
def drop (c : Custody) (put : Custody → Env) (farewell : Request) (answer : Answer)
    (replies : List Reply) : Turn Request Env Answer :=
  if c.kept && c.users == 0 && replies.isEmpty then .call farewell (put c.remove)
  else .finish answer (put c.remove)

end Custody

end Backpressure
