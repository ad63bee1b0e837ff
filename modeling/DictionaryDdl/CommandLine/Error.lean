import DictionaryDdl.Files.AccessError
import DictionaryDdl.Table.Error

/-!
Why a run of the program fails, and how faults of the configuration are worded.
-/

namespace DictionaryDdl

/-- What is wrong with the configuration. -/
inductive ConfigFault where
  | unreadableFile (path : Path) (reason : IoError)
  | malformedLine (number : Nat)
  | emptyKey (number : Nat)
  | jobsNotNumber (text : String)
  | noJobs
  | missingSetting (flag key : String)
  | noCatalog
  deriving DecidableEq, Repr

/-- The settings that can be missing, and how many documents are compiled at a time, by flag and
by variable. -/
structure SettingName where
  flag : String
  key : String

def SettingName.mysqlUrl : SettingName := ⟨"--mysql-url", "SDI2DDL_MYSQL_URL"⟩
def SettingName.charsets : SettingName := ⟨"--charsets", "SDI2DDL_CHARSETS"⟩
def SettingName.extractor : SettingName := ⟨"--ibd2sdi", "SDI2DDL_IBD2SDI"⟩
def SettingName.backupDir : SettingName := ⟨"--backup-dir", "SDI2DDL_BACKUP_DIR"⟩
def SettingName.outputDir : SettingName := ⟨"--output-dir", "SDI2DDL_OUTPUT_DIR"⟩
def SettingName.databases : SettingName := ⟨"--database", "SDI2DDL_DATABASES"⟩
def SettingName.jobs : SettingName := ⟨"--jobs", "SDI2DDL_JOBS"⟩

/-- A flag with its variable in parentheses. -/
def SettingName.both (name : SettingName) : String :=
  name.flag ++ " (" ++ name.key ++ ")"

def ConfigFault.message : ConfigFault → String
  | unreadableFile path reason =>
      "Failed to read env file " ++ path.text ++ ": " ++ reason.message
  | malformedLine number =>
      "Invalid env file: malformed line " ++ toString number ++ " (expected KEY=VALUE)"
  | emptyKey number => "Invalid env file: empty key at line " ++ toString number
  | jobsNotNumber text =>
      SettingName.jobs.key ++ " must be a positive number, got '" ++ text ++ "'"
  | noJobs => "The number of jobs must be at least 1"
  | missingSetting flag key => "Missing setting: " ++ flag ++ " or " ++ key
  | noCatalog =>
      "No collation catalog: set " ++ SettingName.charsets.both ++ " or " ++
        SettingName.mysqlUrl.both

/-- What is said of a fault of the configuration. -/
def ConfigFault.report (fault : ConfigFault) : String :=
  "Configuration error: " ++ fault.message

/-- What is said of documents that came to nothing. -/
def compileFailuresReport (count : Nat) : String :=
  toString count ++ " table(s) could not be compiled, see the log for details"

/-- Why a run fails. -/
inductive RunError where
  | config (fault : ConfigFault)
  | access (reason : AccessError)
  | decode (reason : DecodeError)
  /-- A script cannot be written. -/
  | io (reason : IoError)
  /-- Some tables were not compiled; all others have been written. -/
  | compileFailures (count : Nat)

def RunError.message : RunError → String
  | config fault => fault.report
  | access reason => reason.message
  | decode reason => "Failed to decode the table: " ++ reason.message
  | io reason => "I/O error: " ++ reason.message
  | compileFailures count => compileFailuresReport count

end DictionaryDdl
