import DictionaryDdl.CommandLine.Run

/-!
What is reported while a command runs. Each command has the notices of the steps that it gets
through, in the order of the steps.
-/

namespace DictionaryDdl.Run

/-- What is reported after an action, if the action goes well. -/
def noticesAfter {α : Type} (action : Disk RunError α) (tree : Tree)
    (notices : α → List Notice) : List Notice :=
  match action tree with
  | .ok result _ => notices result
  | .error _ _ => []

/-- What is reported of a catalogue. -/
def catalogNotices (settings : Settings) (catalog : Collation.Catalog) : List Notice :=
  match catalog.isEmpty, settings.catalogSource with
  | true, .ok source => [.emptyCatalog source.describe]
  | _, _ => []

/-- What is reported while the definition of a table is put together. -/
def definitionNotices (catalog : Collation.Catalog) (tree : Tree) (file : Path) : List Notice :=
  match Document.tableAt tree file with
  | .ok table => TableDefinition.notices catalog table
  | .error _ => []

/-- What is reported while scripts are written. -/
def scriptNotices (settings : Settings) (catalog : Collation.Catalog) (tree : Tree)
    (output : Path) : List Notice :=
  Discovery.notices tree output settings.databases ++
    match Document.inDatabases tree output settings.databases with
    | .ok documents => Batch.notices catalog documents
    | .error _ => []

/-- What is reported while a command runs on a tree. -/
def commandNotices (settings : Settings) (tree : Tree) (command : Command) : List Notice :=
  let withCatalog (notices : Collation.Catalog → List Notice) : List Notice :=
    noticesAfter (loadCatalog settings) tree fun catalog =>
      catalogNotices settings catalog ++ notices catalog
  match command with
  | .sdi =>
      match settings.requireBackupDir, settings.requireOutputDir with
      | .ok backup, .ok _ => Discovery.notices tree backup settings.databases
      | _, _ => []
  | .sql =>
      match settings.requireOutputDir with
      | .ok output => withCatalog fun catalog => scriptNotices settings catalog tree output
      | .error _ => []
  | .charsets _ => withCatalog fun _ => []
  | .ast file | .compile file => withCatalog fun catalog => definitionNotices catalog tree file

/-- What is reported during a run. -/
def notices (surroundings : Surroundings) (arguments : List String) (tree : Tree) : List Notice :=
  match Request.ofArguments arguments with
  | .run flags command =>
      noticesAfter (settings surroundings.processEnv flags) tree fun resolved =>
        commandNotices resolved tree command
  | _ => []

end DictionaryDdl.Run
