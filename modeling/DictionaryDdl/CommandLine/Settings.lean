import DictionaryDdl.Collation.ServerAddress
import DictionaryDdl.CommandLine.Environment
import DictionaryDdl.Text.Decimal

/-!
The settings of a run. A flag of the command line wins over the variable for the same setting.
-/

namespace DictionaryDdl

/-- What the command line says of the settings. -/
structure Flags where
  envFile : Option Path := none
  mysqlUrl : Option String := none
  charsets : Option Path := none
  extractor : Option Path := none
  backupDir : Option Path := none
  outputDir : Option Path := none
  databases : List String := []
  jobs : Option Nat := none
  deriving DecidableEq, Repr

/-- How many documents are compiled at a time. -/
inductive Jobs where
  /-- As many as there are processors. -/
  | automatic
  | count (n : Nat)
  deriving DecidableEq, Repr

structure Settings where
  mysqlUrl : Option String
  charsets : Option Path
  extractor : Path
  backupDir : Option Path
  outputDir : Option Path
  /-- Empty for all databases. -/
  databases : List String
  jobs : Jobs
  deriving DecidableEq, Repr

/-- Where the catalogue of collations comes from. -/
inductive CatalogSource where
  | file (path : Path)
  | server (url : String)
  deriving DecidableEq, Repr

/-- What a source is called in messages. -/
def CatalogSource.describe : CatalogSource → String
  | file path => "'" ++ path.text ++ "'"
  | server url => ServerAddress.describe url

namespace Settings

/-- The items of a list with commas between them; blank ones are passed over. -/
def listItems (text : String) : List String :=
  (((Text.pieces ',' text.toList).map Text.trim).filter (!·.isEmpty)).map String.ofList

/-- The program that is run when none is named. -/
def defaultExtractor : Path := ⟨"ibd2sdi"⟩

/-- The databases to process: those of the flags, if there is any flag. -/
def databasesOf (flags : Flags) (env : Environment) : List String :=
  if flags.databases.isEmpty then
    ((env.get? SettingName.databases.key).map listItems).getD []
  else
    flags.databases.flatMap listItems

/-- How many documents are compiled at a time. -/
def jobsOf (flags : Flags) (env : Environment) : Except ConfigFault Jobs :=
  let checked (n : Nat) : Except ConfigFault Jobs :=
    if n = 0 then .error .noJobs else .ok (.count n)
  match flags.jobs, env.get? SettingName.jobs.key with
  | some n, _ => checked n
  | none, none => .ok .automatic
  | none, some text =>
      match Text.readUInt64? (Text.trimmed text) with
      | some n => checked n.toNat
      | none => .error (.jobsNotNumber text)

/-- The path of a setting. -/
def pathOf (flag : Option Path) (env : Environment) (name : SettingName) : Option Path :=
  flag.or ((env.get? name.key).map Path.mk)

/-- The settings of flags and variables. -/
def resolve (flags : Flags) (env : Environment) : Except ConfigFault Settings := do
  let jobs ← jobsOf flags env
  return {
    mysqlUrl := flags.mysqlUrl.or (env.get? SettingName.mysqlUrl.key)
    charsets := pathOf flags.charsets env .charsets
    extractor := (pathOf flags.extractor env .extractor).getD defaultExtractor
    backupDir := pathOf flags.backupDir env .backupDir
    outputDir := pathOf flags.outputDir env .outputDir
    databases := databasesOf flags env
    jobs }

/-- A setting that has to be there. -/
def required (name : SettingName) : Option Path → Except ConfigFault Path
  | some path => .ok path
  | none => .error (.missingSetting name.flag name.key)

def requireBackupDir (s : Settings) : Except ConfigFault Path :=
  required .backupDir s.backupDir

def requireOutputDir (s : Settings) : Except ConfigFault Path :=
  required .outputDir s.outputDir

/-- Where the catalogue comes from; a file wins over a server. -/
def catalogSource (s : Settings) : Except ConfigFault CatalogSource :=
  match s.charsets, s.mysqlUrl with
  | some path, _ => .ok (.file path)
  | none, some url => .ok (.server url)
  | none, none => .error .noCatalog

end Settings

end DictionaryDdl
