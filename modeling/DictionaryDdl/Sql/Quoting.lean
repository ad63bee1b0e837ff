import DictionaryDdl.Text.Split

/-!
Names and strings as MySQL reads them. A name stands between backticks, and a backtick in it is
written twice. A string stands between single quotes; quotes of both kinds and backslashes in it
follow a backslash, and the character U+0000 is written as a backslash and a zero.
-/

namespace DictionaryDdl.Sql

/-- The quotation mark of names. -/
def backtick : Char := '\x60'

/-- A name with its backticks doubled. -/
def escapeName : List Char → List Char
  | [] => []
  | c :: rest =>
      if c = backtick then backtick :: backtick :: escapeName rest else c :: escapeName rest

/-- A name between backticks. -/
def quoteName (name : List Char) : List Char :=
  backtick :: escapeName name ++ [backtick]

/-- How a character stands in a string. -/
def escapeChar (c : Char) : List Char :=
  if c = '\\' ∨ c = '\'' ∨ c = '"' then ['\\', c]
  else if c = '\x00' then ['\\', '0']
  else [c]

/-- A text with everything escaped that a string cannot hold. -/
def escapeText (text : List Char) : List Char :=
  text.flatMap escapeChar

/-- A string between single quotes. -/
def quoteText (text : List Char) : List Char :=
  '\'' :: escapeText text ++ ['\'']

/-- A name as it stands in a statement. -/
def identifier (name : String) : String :=
  String.ofList (quoteName name.toList)

/-- A string as it stands in a statement. -/
def literal (text : String) : String :=
  String.ofList (quoteText text.toList)

/-- Names in parentheses, with commas between them. -/
def nameList (names : List String) : String :=
  "(" ++ Text.joined ", " (names.map identifier) ++ ")"

end DictionaryDdl.Sql
