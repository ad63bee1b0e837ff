import DictionaryDdl.CommandLine.Notices
import DictionaryDdl.Files.Changes

/-!
The program. The files that a run may look at are read into a tree, the run is a function on that
tree, and what it has changed is written back. The commands that look through folders take the
names of the files below those folders from standard input, one a line, a folder with a slash
at its end. No other program can be started from here, so every tablespace counts as one that
could not be read.
-/

namespace DictionaryDdl.Program

/-- The variables that settings are taken from. -/
def variableNames : List String :=
  [SettingName.mysqlUrl, .charsets, .extractor, .backupDir, .outputDir, .databases, .jobs].map
    (·.key)

def readVariables : IO Environment := do
  let found ← variableNames.mapM fun name => do
    return (← IO.getEnv name).map (Prod.mk name)
  return ⟨found.filterMap id⟩

/-- A tree with a file at the location of its path; one that cannot be read is left out. -/
def withFile (tree : Tree) (path : Path) : IO Tree := do
  try
    let content ← IO.FS.readBinFile path.text
    return Tree.put path.steps (.file content) tree
  catch _ =>
    return tree

/-- A tree with a folder at the location of its path, if something is there on the disk. -/
def withFolder (tree : Tree) (path : Path) : IO Tree := do
  try
    discard <| IO.FS.realPath path.text
    return if (tree.at? path.steps).isSome then tree else Tree.put path.steps .empty tree
  catch _ =>
    return tree

/-- A tree with what a line of a listing names. -/
def withListed (tree : Tree) (name : String) : IO Tree := do
  let path : Path := ⟨name⟩
  if name.toList.getLast? = some '/' then
    return if (tree.at? path.steps).isSome then tree else Tree.put path.steps .empty tree
  else
    withFile tree path

/-- The lines of standard input that are not empty. -/
partial def readListing (input : IO.FS.Stream) : IO (List String) := do
  let line ← input.getLine
  if line.isEmpty then
    return []
  else
    let name := String.ofList (line.toList.filter (· != '\n'))
    let more ← readListing input
    return if name.isEmpty then more else name :: more

/-- The files that a command reads by their names. -/
def namedFiles (settings : Settings) : Command → List Path
  | .ast file | .compile file => settings.charsets.toList ++ [file]
  | _ => settings.charsets.toList

/-- The folders that a command reads or writes. -/
def namedFolders (settings : Settings) : Command → List Path
  | .charsets (some output) => output.parents
  | .sdi | .sql =>
      (settings.backupDir.toList ++ settings.outputDir.toList).flatMap fun path =>
        path :: path.parents
  | _ => []

def looksThroughFolders : Command → Bool
  | .sdi | .sql => true
  | _ => false

/-- The files that a command may look at. -/
def loadFiles (settings : Settings) (command : Command) (tree : Tree) : IO Tree := do
  let tree ← (namedFiles settings command).foldlM withFile tree
  let tree ← (namedFolders settings command).foldlM withFolder tree
  if looksThroughFolders command then
    (← readListing (← IO.getStdin)).foldlM withListed tree
  else
    return tree

/-- The tree that a run works on. -/
def loadTree (processEnv : Environment) (arguments : List String) : IO Tree := do
  match Request.ofArguments arguments with
  | .run flags command => do
      let tree ← withFile .empty (flags.envFile.getD Environment.defaultFile)
      match Run.settings processEnv flags tree with
      | .ok settings tree => loadFiles settings command tree
      | .error _ tree => return tree
  | _ => return .empty

/-- The paths of the arguments and variables that start at the root of the file system. -/
def absoluteRoots (processEnv : Environment) (arguments : List String) (tree : Tree) :
    List Path :=
  match Request.ofArguments arguments with
  | .run flags command =>
      match Run.settings processEnv flags tree with
      | .ok settings _ =>
          let output := match command with
            | .charsets output => output
            | _ => settings.outputDir
          output.toList.filter (·.isAbsolute)
      | .error _ _ => []
  | _ => []

/-- Writes a changed file or folder. -/
def writeLeaf (roots : List Path) (leaf : Tree.Leaf) : IO Unit := do
  let path := Path.ofSteps (roots.any (·.steps.isPrefixOf leaf.location)) leaf.location
  match leaf.content with
  | none => IO.FS.createDirAll path.text
  | some content => do
      for folder in path.parents.take 1 do
        IO.FS.createDirAll folder.text
      IO.FS.writeBinFile path.text content

/-- Prints how a run ended. -/
def report : Ending → IO Unit
  | .done output => IO.print output
  | .failed reason => IO.eprintln ("Error: " ++ reason.message)
  | .refused => IO.eprintln usageText

/-- Runs the program in its surroundings and gives back its status. -/
def start (arguments : List String) : IO UInt32 := do
  let processEnv ← readVariables
  let tree ← loadTree processEnv arguments
  let surroundings : Surroundings := ⟨processEnv, fun _ _ _ => .error .notFound⟩
  for notice in Run.notices surroundings arguments tree do
    IO.eprintln notice.line
  let (ending, changed) := run surroundings arguments tree
  let roots := absoluteRoots processEnv arguments tree
  (tree.changes changed).forM (writeLeaf roots)
  report ending
  return ending.status

end DictionaryDdl.Program

def main (arguments : List String) : IO UInt32 :=
  DictionaryDdl.Program.start arguments
