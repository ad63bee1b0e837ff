import DictionaryDdl.Sql.Quoting
import DictionaryDdl.Table.ForeignKey

/-!
The texts of foreign keys. All foreign keys of a table are added by one statement of their own,
so that tables can be created in any order.
-/

namespace DictionaryDdl

namespace ForeignKey

/-- The parent table, with its schema if that is another one. -/
def parent (key : ForeignKey) : String :=
  match key.referencedSchema with
  | none => Sql.identifier key.referencedTable
  | some schema => Sql.identifier schema ++ "." ++ Sql.identifier key.referencedTable

/-- The clause that adds a foreign key. -/
def sql (key : ForeignKey) : String :=
  "ADD CONSTRAINT " ++ Sql.identifier key.name ++
    " FOREIGN KEY " ++ Sql.nameList key.localColumns ++
    " REFERENCES " ++ key.parent ++ " " ++ Sql.nameList key.referencedColumns ++
    " ON DELETE " ++ key.onDelete.keyword ++
    " ON UPDATE " ++ key.onUpdate.keyword

/-- The statement that adds foreign keys to a table. -/
def statement (table : String) (keys : List ForeignKey) : String :=
  "ALTER TABLE " ++ Sql.identifier table ++ "\n\t" ++
    Text.joined ",\n\t" (keys.map sql) ++ ";"

end ForeignKey

end DictionaryDdl
