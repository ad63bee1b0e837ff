import DictionaryDdl.Json.Reader
import DictionaryDdl.Sdi.OfJson

/-!
Finding the table of a dictionary document. An extract is an array of cells, of which those with
an `object` member describe something; a standalone document is one object that describes the
table itself. A description says by its type that it is a table; one without a type is a table
if it holds a dictionary object.
-/

namespace DictionaryDdl.Sdi

open Json

/-- Whether a description is one of a table. -/
def describesTable (description : Json) : Bool :=
  match description.get? "dd_object_type" with
  | some (.string kind) => kind == "Table"
  | some _ => false
  | none => (description.get? "dd_object").isSome

/-- The description of a table in a document, the first one of an extract. -/
def tableDescription? : Json → Option Json
  | .array cells => (cells.filterMap (·.get? "object")).find? describesTable
  | .object members =>
      if describesTable (.object members) then some (.object members) else none
  | _ => none

/-- The table of a document, if the document describes one. -/
def Table.ofDocument (document : Json) : Except Mismatch (Option Table) :=
  match (tableDescription? document).bind (·.get? "dd_object") with
  | none => .ok none
  | some value => (Table.ofJson value).map some

/-- The table of the text of a document. -/
def Table.read (text : String) : Except Json.Error (Option Table) := do
  let document ← Json.parse text
  (Table.ofDocument document).mapError .mismatch

end DictionaryDdl.Sdi
