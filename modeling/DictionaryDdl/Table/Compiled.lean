import DictionaryDdl.Sdi.Document
import DictionaryDdl.Sql.Table

/-!
From a dictionary document to the statements of its table.
-/

namespace DictionaryDdl

/-- The statements of a table, with the names of its schema and its own. -/
structure CompiledTable where
  schema : String
  name : String
  createTable : String
  /-- Absent for a table without foreign keys. -/
  foreignKeys : Option String
  deriving DecidableEq, Repr

namespace CompiledTable

/-- The statements of a definition. -/
def ofDefinition (t : TableDefinition) : CompiledTable where
  schema := t.schema
  name := t.name
  createTable := t.createStatement
  foreignKeys := t.foreignKeyStatement?

/-- The statements of a dictionary record. -/
def ofSdi (catalog : Collation.Catalog) (table : Sdi.Table) :
    Except DecodeError CompiledTable :=
  (TableDefinition.ofSdi catalog table).map ofDefinition

/-- The table record of the text of a document, if the document describes one. -/
def readTable (text : String) : Except DecodeError (Option Sdi.Table) :=
  (Sdi.Table.read text).mapError .document

/-- The statements of the text of a document, if the document describes a table. -/
def ofText (catalog : Collation.Catalog) (text : String) :
    Except DecodeError (Option CompiledTable) := do
  match ← readTable text with
  | none => return none
  | some table => (ofSdi catalog table).map some

/-- What is reported while a document is compiled. -/
def notices (catalog : Collation.Catalog) (text : String) : List Notice :=
  match readTable text with
  | .ok (some table) => TableDefinition.notices catalog table
  | _ => []

end CompiledTable

end DictionaryDdl
