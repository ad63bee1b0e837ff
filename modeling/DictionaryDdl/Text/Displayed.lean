import DictionaryDdl.Text.EscapedPoints
import DictionaryDdl.Text.Hexadecimal

/-!
The quoted display of a text in messages: between double quotes, with quotes and backslashes
escaped, the common control characters by letter and every other character that cannot be seen
by its code point in braces.
-/

namespace DictionaryDdl.Text

/-- How a character stands in a quoted display. -/
def displayedChar (c : Char) : String :=
  if c = '\x00' then "\\0"
  else if c = '\t' then "\\t"
  else if c = '\n' then "\\n"
  else if c = '\r' then "\\r"
  else if c = '"' then "\\\""
  else if c = '\\' then "\\\\"
  else if 0x20 ≤ c.toNat ∧ c.toNat < 0x7F then c.toString
  else if CodePoints.contains c.toNat escapedPoints then
    "\\u\x7b" ++ hexadecimal c.toNat ++ "\x7d"
  else c.toString

/-- The quoted display of a text. -/
def displayed (s : String) : String :=
  "\"" ++ s.toList.foldl (fun shown c => shown ++ displayedChar c) "" ++ "\""

end DictionaryDdl.Text
