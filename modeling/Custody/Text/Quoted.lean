import Custody.Text.Visible

/-!
# Quoted text

A text in double quotes on one line. Quotes, backslashes and the usual control characters get a
backslash; any other character that cannot be seen is written as its number.
-/

set_option autoImplicit false

namespace Custody.Text

/-- The digits of a number to the base sixteen, in lower case. -/
def hex (n : Nat) : String := String.ofList (Nat.toDigits 16 n)

/-- A character between double quotes. -/
def quotedChar (c : Char) : String :=
  if c = '\x00' then "\\0"
  else if c = '\t' then "\\t"
  else if c = '\r' then "\\r"
  else if c = '\n' then "\\n"
  else if c = '\\' then "\\\\"
  else if c = '"' then "\\\""
  else if isVisible c then String.singleton c
  else "\\u\x7b" ++ hex c.toNat ++ "\x7d"

/-- A text in double quotes. -/
def quoted (s : String) : String := "\"" ++ String.join (s.toList.map quotedChar) ++ "\""

end Custody.Text
