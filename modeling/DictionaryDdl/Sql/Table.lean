import DictionaryDdl.Sql.Column
import DictionaryDdl.Sql.ForeignKey
import DictionaryDdl.Sql.Index
import DictionaryDdl.Sql.Options
import DictionaryDdl.Sql.Partitioning
import DictionaryDdl.Table.Definition

/-!
The statements of a table: the one that creates it, and the one that adds its foreign keys.
-/

namespace DictionaryDdl.TableDefinition

/-- The definitions of the columns and, after them, of the indexes. -/
def entries (t : TableDefinition) : List String :=
  t.columns.map Column.sql ++ t.indexes.map Index.sql

def autoIncrementClause (t : TableDefinition) : String :=
  match t.autoIncrement with
  | none => ""
  | some n => "AUTO_INCREMENT=" ++ Text.ofUInt64 n

/-- The attributes of the table as a whole. -/
def attributes (t : TableDefinition) : String :=
  ") ENGINE=" ++ t.engine ++ " ROW_FORMAT=" ++ t.rowFormat.keyword ++
    " DEFAULT CHARSET=" ++ t.collation.charset ++ " COLLATE=" ++ t.collation.name ++ " " ++
    t.autoIncrementClause ++ " " ++ t.options.sql

def partitionClause (t : TableDefinition) : String :=
  if t.partitioning.isPartitioned then "\n" ++ t.partitioning.sql else ""

/-- The statement that creates the table, without its foreign keys. -/
def createStatement (t : TableDefinition) : String :=
  "CREATE TABLE " ++ Sql.identifier t.name ++ "(\n\t" ++ Text.joined ",\n\t" t.entries ++
    "\n" ++ t.attributes ++ t.partitionClause ++ ";"

/-- The statement that adds the foreign keys, if there are any. -/
def foreignKeyStatement? (t : TableDefinition) : Option String :=
  if t.foreignKeys.isEmpty then none else some (ForeignKey.statement t.name t.foreignKeys)

end DictionaryDdl.TableDefinition
