import DictionaryDdl.Text.Blank
import DictionaryDdl.Text.LowerCase

/-!
The base type of a column, and how it is read off the full type text, such as `varchar(50)` or
`int unsigned`.
-/

namespace DictionaryDdl

inductive DataType where
  | tinyInt | smallInt | mediumInt | int | bigInt | decimal | float | double | bit | date
  | dateTime | timestamp | time | year | char | varChar | binary | varBinary | tinyBlob
  | blob | mediumBlob | longBlob | tinyText | text | mediumText | longText | enum | set
  | json
  /-- A spatial type, by its own name. -/
  | geometry (name : String)
  /-- A type that is not known, by its name. -/
  | custom (name : String)
  deriving DecidableEq, Repr

namespace DataType

/-- The name that a type text starts with: what stands before the first parenthesis or space, in
lower case. -/
def baseName (typeText : String) : String :=
  let name := (Text.trim typeText.toList).takeWhile fun c => c != '(' && c != ' '
  String.ofList (Text.lowerCase name)

/-- The type with a name. -/
def ofName (name : String) : DataType :=
  match name with
  | "tinyint" | "bool" | "boolean" => .tinyInt
  | "smallint" => .smallInt
  | "mediumint" => .mediumInt
  | "int" | "integer" => .int
  | "bigint" => .bigInt
  | "decimal" | "numeric" => .decimal
  | "float" => .float
  | "double" | "real" => .double
  | "bit" => .bit
  | "date" => .date
  | "datetime" => .dateTime
  | "timestamp" => .timestamp
  | "time" => .time
  | "year" => .year
  | "char" => .char
  | "varchar" => .varChar
  | "binary" => .binary
  | "varbinary" => .varBinary
  | "tinyblob" => .tinyBlob
  | "blob" => .blob
  | "mediumblob" => .mediumBlob
  | "longblob" => .longBlob
  | "tinytext" => .tinyText
  | "text" => .text
  | "mediumtext" => .mediumText
  | "longtext" => .longText
  | "enum" => .enum
  | "set" => .set
  | "json" => .json
  | "geometry" | "point" | "linestring" | "polygon" | "multipoint" | "multilinestring"
  | "multipolygon" | "geomcollection" | "geometrycollection" =>
      .geometry name
  | _ => .custom name

/-- The base type of a type text. -/
def ofTypeText (typeText : String) : DataType :=
  ofName (baseName typeText)

/-- Whether a type belongs to the string family: character types, binary strings and all texts
and blobs. Only these have a character set and are indexed by a prefix. -/
def isString : DataType → Bool
  | char | varChar | varBinary | tinyBlob | tinyText | blob | text | mediumBlob | mediumText
  | longBlob | longText => true
  | _ => false

/-- Whether the default of a type is written bare, without quotes. -/
def hasBareDefault : DataType → Bool
  | binary | bit | timestamp => true
  | _ => false

/-- Whether the default of a type may be the current time. -/
def isTemporal : DataType → Bool
  | date | dateTime | timestamp | time => true
  | _ => false

/-- The label of a type in a written definition. -/
def label : DataType → String
  | tinyInt => "TinyInt"
  | smallInt => "SmallInt"
  | mediumInt => "MediumInt"
  | int => "Int"
  | bigInt => "BigInt"
  | decimal => "Decimal"
  | float => "Float"
  | double => "Double"
  | bit => "Bit"
  | date => "Date"
  | dateTime => "DateTime"
  | timestamp => "Timestamp"
  | time => "Time"
  | year => "Year"
  | char => "Char"
  | varChar => "VarChar"
  | binary => "Binary"
  | varBinary => "VarBinary"
  | tinyBlob => "TinyBlob"
  | blob => "Blob"
  | mediumBlob => "MediumBlob"
  | longBlob => "LongBlob"
  | tinyText => "TinyText"
  | text => "Text"
  | mediumText => "MediumText"
  | longText => "LongText"
  | enum => "Enum"
  | set => "Set"
  | json => "Json"
  | geometry _ => "Geometry"
  | custom _ => "Custom"

end DataType

end DictionaryDdl
