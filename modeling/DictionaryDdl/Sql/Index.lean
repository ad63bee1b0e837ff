import DictionaryDdl.Sql.Quoting
import DictionaryDdl.Table.Index

/-!
The texts of index definitions. A primary key has no name.
-/

namespace DictionaryDdl

/-- An element: the column, with the length of its prefix if it is one. -/
def IndexElement.sql (e : IndexElement) : String :=
  Sql.identifier e.columnName ++
    match e.prefixChars with
    | none => ""
    | some n => "(" ++ Text.ofUInt64 n ++ ")"

/-- The name of an index with the space before it; none for a primary key. -/
def Index.namePart (index : Index) : String :=
  if index.kind = .primary then "" else " " ++ Sql.identifier index.name

/-- The definition of an index. -/
def Index.sql (index : Index) : String :=
  index.kind.keyword ++ index.namePart ++ " (" ++
    Text.joined ", " (index.elements.map IndexElement.sql) ++ ")"

end DictionaryDdl
