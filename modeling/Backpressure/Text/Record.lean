/-!
# The text of a named record

A record is shown on one line, `Name { field: value, .. }`, or spread out with one field per
line, four spaces deeper at each level and a comma after every field.
-/

namespace Backpressure.Text

/-- What can be shown: a plain text, or a named record of shown values. -/
inductive Shown where
  | plain (text : String)
  | record (name : String) (fields : List (String × Shown))

namespace Shown

/-- A number as a plain text. -/
def number (n : Nat) : Shown := .plain (toString n)

/-- A truth value as a plain text. -/
def flag (b : Bool) : Shown := .plain (if b then "true" else "false")

mutual

/-- The text on one line. -/
def line : Shown → String
  | .plain text => text
  | .record name fields => name ++ " \x7b " ++ ", ".intercalate (lineFields fields) ++ " \x7d"

/-- Each field on one line, with its name. -/
def lineFields : List (String × Shown) → List String
  | [] => []
  | (name, value) :: rest => (name ++ ": " ++ line value) :: lineFields rest

end

mutual

/-- The text with one field per line, where the record itself stands at an indentation. -/
def spread (indent : String) : Shown → String
  | .plain text => text
  | .record name fields => name ++ " \x7b\n" ++ spreadFields (indent ++ "    ") fields ++ indent ++ "\x7d"

/-- Each field on lines of its own at an indentation. -/
def spreadFields (indent : String) : List (String × Shown) → String
  | [] => ""
  | (name, value) :: rest =>
    indent ++ name ++ ": " ++ spread indent value ++ ",\n" ++ spreadFields indent rest

end

/-- The spread out text of a record at the left margin. -/
def pretty (shown : Shown) : String := spread "" shown

end Shown

end Backpressure.Text
