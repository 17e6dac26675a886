import EventQuery.Text.Invisible

namespace EventQuery

/-!
# Quoted text

A text in double quotes, with a backslash before quotes and backslashes and with escapes in place of
invisible characters.
-/

namespace Quoted

/-- The written form of one character between double quotes. -/
def character (c : Char) : String :=
  if c = '"' then "\\\""
  else if c = '\\' then "\\\\"
  else if c = '\n' then "\\n"
  else if c = '\r' then "\\r"
  else if c = '\t' then "\\t"
  else if c.toNat = 0 then "\\0"
  else if Invisible.contains c then
    "\\u\x7b" ++ String.ofList (Nat.toDigits 16 c.toNat) ++ "\x7d"
  else c.toString

/-- A text in double quotes. -/
def text (content : String) : String :=
  "\"" ++ String.join (content.toList.map character) ++ "\""

/-- Texts in double quotes, as a list in brackets. -/
def list (contents : List String) : String :=
  "[" ++ String.intercalate ", " (contents.map text) ++ "]"

end Quoted

end EventQuery
