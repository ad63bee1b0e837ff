import DictionaryDdl.Text.Blank
import DictionaryDdl.Text.Split

/-!
The lists of `key=value` elements, separated by semicolons, that the dictionary keeps options and
private data in. Blank elements are passed over, and an element without an equals sign is
malformed without affecting the others.
-/

namespace DictionaryDdl.Sdi

/-- An element of a list of keys and values. -/
inductive KeyValue where
  | pair (key value : String)
  | malformed (element : String)
  deriving DecidableEq, Repr

/-- What is said of a malformed element. -/
def KeyValue.malformedMessage (element : String) : String :=
  "Malformed key=value pair: '" ++ element ++ "'"

/-- The element that a trimmed text stands for: it is cut at the first equals sign. -/
def KeyValue.ofElement (element : List Char) : KeyValue :=
  match Text.cutAt '=' element with
  | some (key, value) =>
      .pair (String.ofList (Text.trim key)) (String.ofList (Text.trim value))
  | none => .malformed (String.ofList element)

/-- The elements of a list. -/
def keyValues (text : String) : List KeyValue :=
  (((Text.pieces ';' text.toList).map Text.trim).filter (!·.isEmpty)).map KeyValue.ofElement

end DictionaryDdl.Sdi
