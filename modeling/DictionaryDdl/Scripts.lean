import DictionaryDdl.Batch
import DictionaryDdl.Sql.Quoting

/-!
The scripts of a batch of tables. Every table has a script of its own in the folder of its
schema; every schema has one with all its tables in the order of their names, and one with their
foreign keys if there are any. What is to be written is planned first, as a list of actions that
depends on the tables alone.
-/

namespace DictionaryDdl.Scripts

/-- Something to be done with files. -/
inductive Action where
  | makeFolders (path : Path)
  | write (path : Path) (text : String)
  deriving DecidableEq, Repr

/-- Puts a name into a list in ascending order, unless it is there. -/
def insertName (name : String) : List String → List String
  | [] => [name]
  | other :: more =>
      if name < other then name :: other :: more
      else if name = other then other :: more
      else other :: insertName name more

/-- The schemas of some tables, each once and in ascending order. -/
def schemas (tables : List CompiledTable) : List String :=
  tables.foldl (fun names table => insertName table.schema names) []

/-- The tables of a schema in the order of their names. -/
def tablesOf (schema : String) (tables : List CompiledTable) : List CompiledTable :=
  (tables.filter (·.schema == schema)).mergeSort fun a b => a.name ≤ b.name

/-- The statement that a script for a schema starts with. -/
def useStatement (schema : String) : String :=
  "USE " ++ Sql.identifier schema ++ ";\n\n"

/-- The script of a table. -/
def tableScript (folder : Path) (table : CompiledTable) : Action :=
  .write (folder.join (table.name ++ ".sql")) table.createTable

/-- The script of all tables of a schema. -/
def schemaScript (root : Path) (schema : String) (tables : List CompiledTable) : Action :=
  .write (root.join (schema ++ ".sql"))
    (useStatement schema ++ Text.joined "\n" (tables.map (·.createTable)))

/-- The script of the foreign keys of a schema, if there are any. -/
def foreignKeyScripts (folder : Path) (schema : String) (tables : List CompiledTable) :
    List Action :=
  match tables.filterMap (·.foreignKeys) with
  | [] => []
  | statements =>
      [.write (folder.join foreignKeyScript)
        (useStatement schema ++ Text.joined "\n\n" statements)]

/-- What is to be done for a schema. -/
def schemaPlan (root : Path) (schema : String) (tables : List CompiledTable) : List Action :=
  let folder := root.join schema
  .makeFolders folder :: tables.map (tableScript folder) ++
    schemaScript root schema tables :: foreignKeyScripts folder schema tables

/-- What is to be done for some tables. -/
def plan (root : Path) (tables : List CompiledTable) : List Action :=
  (schemas tables).flatMap fun schema => schemaPlan root schema (tablesOf schema tables)

/-- How many schemas, tables and scripts of foreign keys are written. -/
structure Summary where
  databases : Nat
  tables : Nat
  foreignKeyScripts : Nat
  deriving DecidableEq, Repr

def summary (tables : List CompiledTable) : Summary where
  databases := (schemas tables).length
  tables := tables.length
  foreignKeyScripts :=
    (schemas tables).countP fun schema =>
      (tablesOf schema tables).any (·.foreignKeys.isSome)

/-- Does one thing. -/
def Action.run : Action → Disk IoError Unit
  | .makeFolders path => Disk.makeFolders path
  | .write path text => Disk.writeText path text

/-- Writes the scripts of some tables; the first action that fails ends it. -/
def write (root : Path) (tables : List CompiledTable) : Disk IoError Summary := do
  (plan root tables).forM Action.run
  return summary tables

end DictionaryDdl.Scripts
