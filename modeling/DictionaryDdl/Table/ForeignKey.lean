import DictionaryDdl.Table.Index

/-!
The foreign keys of a table. The schema of the parent table is kept only where it is not the
schema of the table itself.
-/

namespace DictionaryDdl

structure ForeignKey where
  name : String
  localColumns : List String
  /-- The schema of the parent table, if it is another one. -/
  referencedSchema : Option String
  referencedTable : String
  referencedColumns : List String
  onDelete : ReferentialAction
  onUpdate : ReferentialAction
  deriving DecidableEq, Repr

namespace ForeignKey

/-- The name of the column that an element of a foreign key constrains. -/
def localColumn (columns : List Column) (foreignKey : String)
    (element : Sdi.ForeignKeyElement) : Except DecodeError String :=
  (columnAt columns (.foreignKey foreignKey) element.columnPosition).map (·.name)

/-- The schema of the parent table, unless it is the table's own or not given. -/
def foreignSchema (schema : String) (referenced : String) : Option String :=
  if referenced.isEmpty ∨ referenced = schema then none else some referenced

/-- The foreign key of a dictionary entry. -/
def ofSdi (schema : String) (columns : List Column) (key : Sdi.ForeignKey) :
    Except DecodeError ForeignKey := do
  let localColumns ← key.elements.mapM (localColumn columns key.name)
  let onDelete ← ReferentialAction.ofCode key.deleteRule
  let onUpdate ← ReferentialAction.ofCode key.updateRule
  return {
    name := key.name
    localColumns
    referencedSchema := foreignSchema schema key.referencedSchema
    referencedTable := key.referencedTable
    referencedColumns := key.elements.map (·.referencedColumn)
    onDelete
    onUpdate }

/-- The foreign keys of a table. -/
def listOfSdi (schema : String) (columns : List Column) (keys : List Sdi.ForeignKey) :
    Except DecodeError (List ForeignKey) :=
  keys.mapM (ofSdi schema columns)

end ForeignKey

end DictionaryDdl
