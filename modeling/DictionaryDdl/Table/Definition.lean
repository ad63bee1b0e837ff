import DictionaryDdl.Table.ForeignKey
import DictionaryDdl.Table.Options
import DictionaryDdl.Table.Partitioning

/-!
The definition of a table, put together from its dictionary record: the columns first, because
indexes and foreign keys refer to them, then what refers to them, the partitions, and last what
holds for the table as a whole. The first fault in that order is the one that is reported.
-/

namespace DictionaryDdl

structure TableDefinition where
  schema : String
  name : String
  engine : String
  rowFormat : RowFormat
  collationId : UInt32
  collation : Collation
  autoIncrement : Option UInt64
  /-- In the order of their positions. -/
  columns : List Column
  /-- In the order of the dictionary. -/
  indexes : List Index
  partitioning : Partitioning
  foreignKeys : List ForeignKey
  options : TableOptions
  deriving DecidableEq, Repr

namespace TableDefinition

/-- The parts of a definition that consist of several entries. -/
structure Layout where
  columns : List Column
  indexes : List Index
  foreignKeys : List ForeignKey
  partitioning : Partitioning

/-- The layout of a table. -/
def Layout.ofSdi (catalog : Collation.Catalog) (table : Sdi.Table) :
    Except DecodeError Layout := do
  let columns ← Column.listOfSdi catalog table.columns
  let indexes ← Index.listOfSdi columns table.indexes
  let foreignKeys ← ForeignKey.listOfSdi table.schema columns table.foreignKeys
  let partitioning ← Partitioning.ofSdi table
  return { columns, indexes, foreignKeys, partitioning }

/-- The row format and the collation of a table. -/
def storageOf (catalog : Collation.Catalog) (table : Sdi.Table) :
    Except DecodeError (RowFormat × Collation) := do
  let rowFormat ← RowFormat.ofCode table.rowFormat
  let collation ← Column.findCollation catalog table.collationId
  return (rowFormat, collation)

/-- The definition of a table. -/
def ofSdi (catalog : Collation.Catalog) (table : Sdi.Table) :
    Except DecodeError TableDefinition := do
  let layout ← Layout.ofSdi catalog table
  let (rowFormat, collation) ← storageOf catalog table
  return {
    schema := table.schema
    name := table.name
    engine := table.engine
    rowFormat
    collationId := table.collationId
    collation
    autoIncrement := AutoIncrement.ofText table.privateData
    columns := layout.columns
    indexes := layout.indexes
    partitioning := layout.partitioning
    foreignKeys := layout.foreignKeys
    options := TableOptions.ofText table.options }

/-- What is reported while a table is put together, up to its first fault. -/
def notices (catalog : Collation.Catalog) (table : Sdi.Table) : List Notice :=
  match Layout.ofSdi catalog table with
  | .error _ => []
  | .ok _ =>
      TableOptions.notices table.options ++
        match storageOf catalog table with
        | .error _ => []
        | .ok _ => AutoIncrement.notices table.privateData

end TableDefinition

end DictionaryDdl
