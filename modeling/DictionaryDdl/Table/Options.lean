import DictionaryDdl.Notice
import DictionaryDdl.Text.Decimal

/-!
The options of a table, out of the dictionary's list of keys and values. Each pair sets its
option anew, so of several pairs of one key the last one counts, even where it sets the option to
nothing because its value cannot be read.
-/

namespace DictionaryDdl

structure TableOptions where
  avgRowLength : Option UInt64 := none
  keyBlockSize : Option UInt64 := none
  /-- Absent for the default of the server. -/
  statsAutoRecalc : Option Bool := none
  statsSamplePages : Option UInt64 := none
  encryption : Option String := none
  deriving DecidableEq, Repr

namespace TableOptions

/-- The dictionary stores 0 for the default of the server, 1 for on and 2 for off. -/
def recalcOf (value : String) : Option Bool :=
  match value with
  | "1" => some true
  | "2" => some false
  | _ => none

/-- The options after one more pair. -/
def assign (options : TableOptions) (key value : String) : TableOptions :=
  match key with
  | "avg_row_length" => { options with avgRowLength := Text.readUInt64? value }
  | "key_block_size" => { options with keyBlockSize := Text.readUInt64? value }
  | "stats_sample_pages" => { options with statsSamplePages := Text.readUInt64? value }
  | "stats_auto_recalc" => { options with statsAutoRecalc := recalcOf value }
  | "encrypt_type" => { options with encryption := some value }
  | _ => options

/-- The options after one more element; a malformed one changes nothing. -/
def step (options : TableOptions) : Sdi.KeyValue → TableOptions
  | .pair key value => options.assign key value
  | .malformed _ => options

/-- The options of a table. -/
def ofText (text : String) : TableOptions :=
  (Sdi.keyValues text).foldl step {}

/-- The keys of the options whose values are numbers. -/
def isNumeric (key : String) : Bool :=
  key == "avg_row_length" || key == "key_block_size" || key == "stats_sample_pages"

/-- What is reported of an element. -/
def noticeOf? : Sdi.KeyValue → Option Notice
  | .malformed element => some (.malformedOption element)
  | .pair key value =>
      if isNumeric key then
        if (Text.readUInt64? value).isNone then some (.optionNotNumber key value) else none
      else if key = "stats_auto_recalc" then
        if value = "0" ∨ value = "1" ∨ value = "2" then none
        else some (.unexpectedRecalc value)
      else none

/-- What is reported of the options of a table. -/
def notices (text : String) : List Notice :=
  (Sdi.keyValues text).filterMap noticeOf?

end TableOptions

/-!
The next auto-increment value of a table, out of its private data: the value of the last pair of
its key whose value can be read.
-/

namespace AutoIncrement

/-- The key of the value in the private data. -/
def key : String := "autoinc"

/-- The value after one more element. -/
def step (value : Option UInt64) : Sdi.KeyValue → Option UInt64
  | .pair k text => if k = key then (Text.readUInt64? text).or value else value
  | .malformed _ => value

/-- The next auto-increment value of a table. -/
def ofText (privateData : String) : Option UInt64 :=
  (Sdi.keyValues privateData).foldl step none

/-- What is reported of an element. -/
def noticeOf? : Sdi.KeyValue → Option Notice
  | .malformed element => some (.malformedPrivateData element)
  | .pair k text =>
      if k = key ∧ (Text.readUInt64? text).isNone then some (.autoIncrementNotNumber text)
      else none

/-- What is reported of the private data of a table. -/
def notices (privateData : String) : List Notice :=
  (Sdi.keyValues privateData).filterMap noticeOf?

end AutoIncrement

end DictionaryDdl
