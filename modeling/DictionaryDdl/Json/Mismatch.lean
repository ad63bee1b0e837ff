import DictionaryDdl.Json.Basic
import DictionaryDdl.Text.Displayed
import DictionaryDdl.Text.ShortestDouble

/-!
Why a JSON text cannot be read, or why a value does not have the shape of a record, and how each
reason is worded. Texts fail in two ways: one ends inside a value that could go on, the other
cannot be the start of any document.
-/

namespace DictionaryDdl.Json

/-- What stands where something else is wanted. -/
inductive Found where
  | null
  | bool (value : Bool)
  | integer (value : Int)
  | double (value : Float)
  | string (value : String)
  | sequence
  | map

/-- What is found when a value has the wrong type. -/
def found : Json → Found
  | .null => .null
  | .bool b => .bool b
  | .number (.integer n) => .integer n
  | .number (.double x) => .double x
  | .string s => .string s
  | .array _ => .sequence
  | .object _ => .map

def Found.message : Found → String
  | .null => "null"
  | .bool b => "boolean `" ++ toString b ++ "`"
  | .integer n => "integer `" ++ toString n ++ "`"
  | .double x => "floating point `" ++ Text.doubleText x ++ "`"
  | .string s => "string " ++ Text.displayed s
  | .sequence => "sequence"
  | .map => "map"

/-- Why a value does not have the wanted shape. -/
inductive Mismatch where
  /-- A value of another type than the wanted one. -/
  | wrongType (found : Found) (wanted : String)
  /-- An integer that does not fit the wanted word. -/
  | outOfRange (value : Int) (wanted : String)
  | missingField (name : String)
  | duplicateField (name : String)
  /-- A record given as an array without the element at this position. -/
  | tooShort (position : Nat) (wanted : String)
  /-- A record given as an array with more elements than it has fields. -/
  | tooLong (length : Nat)

def Mismatch.message : Mismatch → String
  | .wrongType found wanted => "invalid type: " ++ found.message ++ ", expected " ++ wanted
  | .outOfRange value wanted =>
      "invalid value: integer `" ++ toString value ++ "`, expected " ++ wanted
  | .missingField name => "missing field `" ++ name ++ "`"
  | .duplicateField name => "duplicate field `" ++ name ++ "`"
  | .tooShort position wanted =>
      "invalid length " ++ toString position ++ ", expected " ++ wanted
  | .tooLong length =>
      "invalid length " ++ toString length ++ ", expected fewer elements in array"

/-- Why a document cannot be read. -/
inductive Error where
  /-- The text ends inside a value that could go on. -/
  | truncated
  /-- The text is no JSON, wherever it might go on. -/
  | malformed
  /-- The value has the wrong shape. -/
  | mismatch (reason : Mismatch)

end DictionaryDdl.Json
