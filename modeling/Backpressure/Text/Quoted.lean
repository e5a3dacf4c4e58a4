import Backpressure.Text.Unprintable
import Backpressure.Text.Combining

/-!
# Quoted text

A text is quoted so that every character of it can be seen by itself: quotation marks, backslashes
and the usual control characters get a backslash, and other characters that are not printed, or
would join the character before them, are written by their number.
-/

namespace Backpressure.Text

/-- A character as it stands within quotation marks. -/
def quotedChar (c : Char) : String :=
  if c = '"' then "\\\""
  else if c = '\\' then "\\\\"
  else if c = '\n' then "\\n"
  else if c = '\r' then "\\r"
  else if c = '\t' then "\\t"
  else if c = '\x00' then "\\0"
  else if isUnprintable c || isCombining c then
    "\\u\x7b" ++ String.ofList (Nat.toDigits 16 c.toNat) ++ "\x7d"
  else String.singleton c

/-- A text in quotation marks. -/
def quoted (text : String) : String := "\"" ++ String.join (text.toList.map quotedChar) ++ "\""

end Backpressure.Text
