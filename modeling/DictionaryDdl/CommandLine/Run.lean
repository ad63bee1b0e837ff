import DictionaryDdl.Collation.Snapshot
import DictionaryDdl.CommandLine.Arguments
import DictionaryDdl.Extraction
import DictionaryDdl.Scripts
import DictionaryDdl.Table.ToJson

/-!
A run of the program, as an action on a tree. The settings are resolved before the command
starts, so a fault of the configuration leaves the tree as it is; a command that fails later
leaves what it has written. There is no connection to a server: a catalogue that only a server
has cannot be read.
-/

namespace DictionaryDdl

/-- What a run finds beside its arguments and its files. -/
structure Surroundings where
  /-- The variables of the process. -/
  processEnv : Environment
  /-- The extracting program that a path names. -/
  programs : Path → Extractor

namespace Run

/-- A check that leaves the tree alone. -/
def configured {α : Type} (check : Except ConfigFault α) : Disk RunError α :=
  Disk.look fun _ => check.mapError .config

/-- The catalogue of the settings. -/
def loadCatalog (settings : Settings) : Disk RunError Collation.Catalog := do
  match ← configured settings.catalogSource with
  | .file path => Disk.look fun tree => (Collation.Catalog.ofFile tree path).mapError .access
  | .server _ => throw (.access .server)

/-- The definition of the table that the document in a file describes. -/
def definitionAt (settings : Settings) (file : Path) : Disk RunError TableDefinition := do
  let catalog ← loadCatalog settings
  let table ← Disk.look fun tree => (Document.tableAt tree file).mapError .access
  Disk.look fun _ => (TableDefinition.ofSdi catalog table).mapError .decode

/-- A text on a line of its own. -/
def line (text : String) : String :=
  text ++ "\n"

/-- Shows the catalogue, or keeps it in a file. -/
def charsets (settings : Settings) (output : Option Path) : Disk RunError String := do
  let catalog ← loadCatalog settings
  match output with
  | some path => do
      (catalog.writeFile path).mapError .access
      return ""
  | none => return line catalog.snapshot

/-- Shows the definition of a table. -/
def ast (settings : Settings) (file : Path) : Disk RunError String := do
  return line (← definitionAt settings file).toJson.pretty

/-- The statements of a table, as they are shown. -/
def statements (table : CompiledTable) : String :=
  line table.createTable ++
    match table.foreignKeys with
    | some foreignKeys => "\n" ++ line foreignKeys
    | none => ""

/-- Shows the statements of a table. -/
def compile (settings : Settings) (file : Path) : Disk RunError String := do
  return statements (.ofDefinition (← definitionAt settings file))

/-- Gathers the documents of a backup. -/
def sdi (settings : Settings) (programs : Path → Extractor) : Disk RunError String := do
  let backup ← configured settings.requireBackupDir
  let output ← configured settings.requireOutputDir
  let job : Extraction.Job := {
    executable := settings.extractor
    extractor := programs settings.extractor
    backup
    output
    databases := settings.databases }
  discard <| job.run.mapError .access
  return ""

/-- Writes the scripts of all documents that can be compiled, given what a list of documents
compiles to. -/
def generate (output : Path) (databases : List String) (compile : List Document → Batch) :
    Disk RunError String := do
  let documents ← Disk.look fun tree =>
    (Document.inDatabases tree output databases).mapError .access
  let batch := compile documents
  discard <| (Scripts.write output batch.tables).mapError .io
  if batch.failed > 0 then
    throw (.compileFailures batch.failed)
  return ""

/-- Writes the scripts of the documents that the settings name. -/
def sql (settings : Settings) : Disk RunError String := do
  let output ← configured settings.requireOutputDir
  let catalog ← loadCatalog settings
  generate output settings.databases (Batch.compile catalog)

/-- Runs a command and gives back what it prints. -/
def command (settings : Settings) (programs : Path → Extractor) : Command → Disk RunError String
  | .sdi => sdi settings programs
  | .sql => sql settings
  | .charsets output => charsets settings output
  | .ast file => ast settings file
  | .compile file => compile settings file

/-- The settings of the flags, of the variables and of the settings file. -/
def settings (processEnv : Environment) (flags : Flags) : Disk RunError Settings := do
  let env ← Disk.look fun tree => (processEnv.loadNamed tree flags.envFile).mapError .config
  configured (Settings.resolve flags env)

end Run

/-- How a run ends. -/
inductive Ending where
  /-- The output of a run that went well. -/
  | done (output : String)
  | failed (reason : RunError)
  /-- The arguments are wrong. -/
  | refused

/-- The status that the program ends with. -/
def Ending.status : Ending → UInt32
  | done _ => 0
  | failed _ => 1
  | refused => 2

/-- What the program is called, with its version. -/
def versionText : String :=
  "sdi2ddl 0.1.0"

/-- What is said of the arguments. -/
def usageText : String :=
  "Usage: sdi2ddl [OPTIONS] <sdi|sql|charsets [--output FILE]|ast --file FILE|compile --file FILE>"

/-- A run of the program: how it ends and the tree that it leaves. -/
def run (surroundings : Surroundings) (arguments : List String) (tree : Tree) : Ending × Tree :=
  match Request.ofArguments arguments with
  | .version => (.done (Run.line versionText), tree)
  | .help => (.done (Run.line usageText), tree)
  | .refused => (.refused, tree)
  | .run flags command =>
      let action := do
        let settings ← Run.settings surroundings.processEnv flags
        Run.command settings surroundings.programs command
      match action tree with
      | .ok output tree => (.done output, tree)
      | .error reason tree => (.failed reason, tree)

end DictionaryDdl
