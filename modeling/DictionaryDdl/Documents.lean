import DictionaryDdl.Files.Discovery
import DictionaryDdl.Sdi.Document

/-!
Reading dictionary documents out of a tree: all documents of some databases, or the table of one
document.
-/

namespace DictionaryDdl

/-- A document as it was found. -/
structure Document where
  /-- The name of the folder it belongs to. -/
  database : String
  path : Path
  text : String
  deriving DecidableEq, Repr

namespace Document

/-- The extension of documents. -/
def extension : String := "sdi"

/-- The document in a file. -/
def ofFile (tree : Tree) (database : String) (path : Path) : Except AccessError Document := do
  return { database, path, text := ← tree.readTextAt path }

/-- The documents below the folder of a database, in the order of their paths. -/
def inFolder (tree : Tree) (folder : Path) : Except AccessError (List Document) := do
  let files ← Discovery.filesWithExtension tree folder extension
  files.mapM (ofFile tree (Discovery.databaseName folder))

/-- The documents of the databases below a folder. One that is no text fails them all. -/
def inDatabases (tree : Tree) (root : Path) (databases : List String) :
    Except AccessError (List Document) := do
  let folders ← Discovery.databaseFolders tree root databases
  return (← folders.mapM (inFolder tree)).flatten

/-- The table that the document in a file describes. -/
def tableAt (tree : Tree) (path : Path) : Except AccessError Sdi.Table := do
  match Sdi.Table.read (← tree.readTextAt path) with
  | .error reason => .error (.json path reason)
  | .ok none => .error (.noTable path)
  | .ok (some table) => .ok table

end Document

end DictionaryDdl
