import DictionaryDdl.Sdi.KeyValues
import DictionaryDdl.Table.Error

/-!
What is reported beside a result: values that were passed over and documents that came to
nothing. A function that has something to report has a companion that lists the notices.
-/

namespace DictionaryDdl

inductive Severity where
  | warning | error
  deriving DecidableEq, Repr

def Severity.label : Severity → String
  | warning => "WARN"
  | error => "ERROR"

inductive Notice where
  | malformedOption (element : String)
  | optionNotNumber (key value : String)
  | unexpectedRecalc (value : String)
  | malformedPrivateData (element : String)
  | autoIncrementNotNumber (value : String)
  | databaseNotFound (path : String)
  | noTable (path : String)
  | tableFailed (table database : String) (reason : DecodeError)
  | emptyCatalog (source : String)

namespace Notice

def severity : Notice → Severity
  | tableFailed .. => .error
  | _ => .warning

def message : Notice → String
  | malformedOption element =>
      "Ignoring table option: " ++ Sdi.KeyValue.malformedMessage element
  | optionNotNumber key value =>
      "Ignoring table option " ++ key ++ ": '" ++ value ++ "' is not a number"
  | unexpectedRecalc value =>
      "Ignoring table option stats_auto_recalc: unexpected value '" ++ value ++ "'"
  | malformedPrivateData element =>
      "Ignoring private data: " ++ Sdi.KeyValue.malformedMessage element
  | autoIncrementNotNumber value =>
      "Ignoring non-numeric autoinc value '" ++ value ++ "'"
  | databaseNotFound path => "Database directory '" ++ path ++ "' not found, skipping"
  | noTable path => "Skipping '" ++ path ++ "': no table object in the document"
  | tableFailed table database reason =>
      "Failed to compile table '" ++ table ++ "' of database '" ++ database ++ "': " ++
        reason.message
  | emptyCatalog source => "The collation catalog from " ++ source ++ " is empty"

/-- A text without the characters U+0000, which end a text for many readers of logs. -/
def withoutNul (text : String) : String :=
  String.ofList (text.toList.filter (· != '\x00'))

/-- A notice as a line of a log. -/
def line (notice : Notice) : String :=
  withoutNul (notice.severity.label ++ ": " ++ notice.message)

end Notice

end DictionaryDdl
