import Backpressure.Value.Decimal

/-!
# Dynamic values

The values that settings are read from, and that can travel through a channel as items: the
usual scalars, lists, and objects. An integer and a decimal are different even where they are
equal as numbers.
-/

namespace Backpressure

/-- A dynamic value. The fields of an object have different names and stand in byte order. -/
inductive Value where
  | null
  | flag (value : Bool)
  | int (value : Int)
  | decimal (value : Decimal)
  | text (value : String)
  | list (elements : List Value)
  | object (fields : List (String × Value))
  deriving Repr

namespace Value

mutual

/-- Are two values the same? -/
def same : Value → Value → Bool
  | .null, .null => true
  | .flag a, .flag b => a == b
  | .int a, .int b => a == b
  | .decimal a, .decimal b => a == b
  | .text a, .text b => a == b
  | .list a, .list b => sameElements a b
  | .object a, .object b => sameFields a b
  | _, _ => false

/-- Are two lists of values the same? -/
def sameElements : List Value → List Value → Bool
  | [], [] => true
  | a :: as, b :: bs => same a b && sameElements as bs
  | _, _ => false

/-- Are two lists of fields the same? -/
def sameFields : List (String × Value) → List (String × Value) → Bool
  | [], [] => true
  | (name, a) :: as, (name', b) :: bs => name == name' && same a b && sameFields as bs
  | _, _ => false

end

instance : BEq Value := ⟨same⟩

/-- An integer that a value holds. -/
def int? : Value → Option Int
  | .int value => some value
  | _ => none

end Value

end Backpressure
