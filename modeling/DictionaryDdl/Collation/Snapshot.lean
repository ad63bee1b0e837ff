import DictionaryDdl.Collation.OfJson
import DictionaryDdl.Files.AccessError
import DictionaryDdl.Json.Printer

/-!
A catalogue kept in a file, for running without a server.
-/

namespace DictionaryDdl.Collation.Catalog

/-- The text of a catalogue as it is kept. -/
def snapshot (catalog : Catalog) : String :=
  catalog.toJson.pretty

/-- The catalogue in a file. -/
def ofFile (tree : Tree) (path : Path) : Except AccessError Catalog := do
  (Catalog.read (← tree.readTextAt path)).mapError (.json path)

/-- Keeps a catalogue in a file. -/
def writeFile (catalog : Catalog) (path : Path) : Disk AccessError Unit :=
  (Disk.writeText path catalog.snapshot).mapError (.io path)

end DictionaryDdl.Collation.Catalog
