import DictionaryDdl.Json.Basic
import DictionaryDdl.Text.Hexadecimal
import DictionaryDdl.Text.ShortestDouble

/-!
Writing a JSON value, either without any blanks or on several lines with two more spaces for
each level. Strings escape quotes, backslashes and the control characters below U+0020 and
nothing else.
-/

namespace DictionaryDdl.Json

/-- The last two of the four digits of an escape. -/
def twoDigits (n : Nat) : String :=
  let digits := Text.hexadecimal n
  if digits.length < 2 then "0" ++ digits else digits

/-- How a character stands in a string. -/
def escapedChar (c : Char) : String :=
  if c = '"' then "\\\""
  else if c = '\\' then "\\\\"
  else if c = '\x08' then "\\b"
  else if c = '\x0C' then "\\f"
  else if c = '\n' then "\\n"
  else if c = '\r' then "\\r"
  else if c = '\t' then "\\t"
  else if c.toNat < 0x20 then "\\u00" ++ twoDigits c.toNat
  else c.toString

/-- A string with its quotes. -/
def quoted (s : String) : String :=
  "\"" ++ s.toList.foldl (fun shown c => shown ++ escapedChar c) "" ++ "\""

def Number.text : Number → String
  | .integer n => toString n
  | .double x => Text.doubleText x

mutual

/-- The text of a value without blanks. -/
def compact : Json → String
  | .null => "null"
  | .bool b => toString b
  | .number n => n.text
  | .string s => quoted s
  | .array items => "[" ++ compactItems items ++ "]"
  | .object members => "\x7b" ++ compactMembers members ++ "\x7d"

def compactItems : List Json → String
  | [] => ""
  | [item] => compact item
  | item :: more => compact item ++ "," ++ compactItems more

def compactMembers : List (String × Json) → String
  | [] => ""
  | [(name, value)] => quoted name ++ ":" ++ compact value
  | (name, value) :: more =>
      quoted name ++ ":" ++ compact value ++ "," ++ compactMembers more

end

/-- A line feed and the indentation of a level. -/
def newLine (level : Nat) : String :=
  String.ofList ('\n' :: List.replicate (2 * level) ' ')

mutual

/-- The text of a value that stands at a level, one item or member a line; an empty array or
object stays on its line. -/
def prettyAt (level : Nat) : Json → String
  | .null => "null"
  | .bool b => toString b
  | .number n => n.text
  | .string s => quoted s
  | .array [] => "[]"
  | .array items => "[" ++ prettyItems (level + 1) items ++ newLine level ++ "]"
  | .object [] => "\x7b\x7d"
  | .object members => "\x7b" ++ prettyMembers (level + 1) members ++ newLine level ++ "\x7d"

def prettyItems (level : Nat) : List Json → String
  | [] => ""
  | [item] => newLine level ++ prettyAt level item
  | item :: more => newLine level ++ prettyAt level item ++ "," ++ prettyItems level more

def prettyMembers (level : Nat) : List (String × Json) → String
  | [] => ""
  | [(name, value)] => newLine level ++ quoted name ++ ": " ++ prettyAt level value
  | (name, value) :: more =>
      newLine level ++ quoted name ++ ": " ++ prettyAt level value ++ "," ++
        prettyMembers level more

end

/-- The text of a value on several lines. -/
def pretty (value : Json) : String :=
  prettyAt 0 value

end DictionaryDdl.Json
