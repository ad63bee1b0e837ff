import DictionaryDdl.Files.AccessError
import DictionaryDdl.Notice
import DictionaryDdl.Text.LowerCase

/-!
Which folders stand for databases, and which files below them have an extension. Both lists come
in ascending order of paths, except that named databases come in the order of the names.
-/

namespace DictionaryDdl

/-- The name of the script of foreign keys of a database. It stands beside the dictionary
documents and is never found. -/
def foreignKeyScript : String := "__foreign_keys.sql"

namespace Discovery

/-- The folders with the given names, as far as they are there. -/
def namedFolders (tree : Tree) (root : Path) (databases : List String) : List Path :=
  (databases.map root.join).filter tree.isFolder

/-- The folders in a folder. -/
def foldersIn (tree : Tree) (root : Path) : Except IoError (List Path) := do
  let entries ← tree.entriesAt root
  return Path.sort ((entries.map (root.join ·.1)).filter tree.isFolder)

/-- The folders of the databases to process: all folders, or the ones named, if any are. -/
def databaseFolders (tree : Tree) (root : Path) (databases : List String) :
    Except AccessError (List Path) :=
  if databases.isEmpty then (foldersIn tree root).mapError (.io root)
  else .ok (namedFolders tree root databases)

/-- What is reported of the databases that are named but not there. -/
def notices (tree : Tree) (root : Path) (databases : List String) : List Notice :=
  ((databases.map root.join).filter (!tree.isFolder ·)).map fun path =>
    .databaseNotFound path.text

/-- The database that a folder stands for. -/
def databaseName (folder : Path) : String :=
  folder.fileName?.getD ""

/-- Whether a file is to be found by an extension, in letters of any case. -/
def isWanted (extension : String) (path : Path) : Bool :=
  path.fileName? != some foreignKeyScript &&
    path.extension?.any fun found =>
      Text.asciiLowerCase found.toList == Text.asciiLowerCase extension.toList

mutual

/-- All files of a tree that stands at a path. A folder that the path does not lead to, because it
is too long, is taken for a file. -/
def filesBelow (isFolder : Path → Bool) (path : Path) : Tree → List Path
  | .file _ => [path]
  | .folder entries => if isFolder path then filesAmong isFolder path entries else [path]

/-- All files of the entries of a folder. -/
def filesAmong (isFolder : Path → Bool) (folder : Path) : List (String × Tree) → List Path
  | [] => []
  | (name, node) :: more =>
      filesBelow isFolder (folder.join name) node ++ filesAmong isFolder folder more

end

/-- The files below a folder that have an extension. -/
def filesWithExtension (tree : Tree) (folder : Path) (extension : String) :
    Except AccessError (List Path) := do
  let entries ← (tree.entriesAt folder).mapError (.io folder)
  return Path.sort ((filesAmong tree.isFolder folder entries).filter (isWanted extension))

end Discovery

end DictionaryDdl
