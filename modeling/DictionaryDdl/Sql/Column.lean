import DictionaryDdl.Sql.Quoting
import DictionaryDdl.Table.Column

/-!
The text of a column definition. A generated column has its expression in the place of the
character set, the default and the auto-increment attribute, which it never carries.
-/

namespace DictionaryDdl

namespace Sql

/-- Whether a text contains another. -/
def contains (part : List Char) : List Char → Bool
  | [] => part.isEmpty
  | c :: rest => part.isPrefixOf (c :: rest) || contains part rest

/-- An attribute that the type text does not name already, in letters of any case. -/
def typeFlag (isSet : Bool) (keyword : String) (rawType : String) : String :=
  let named := contains (Text.asciiLowerCase keyword.toList) (Text.asciiLowerCase rawType.toList)
  if isSet && !named then " " ++ keyword else ""

/-- The date that strict modes refuse, and the first one that they accept. -/
def zeroDate : String := "0000-00-00"

def firstValidDate : String := "0000-01-01"

/-- The default of a date with the zero date replaced; what follows it stays. -/
def validDate (text : String) : String :=
  if zeroDate.toList.isPrefixOf text.toList then
    firstValidDate ++ String.ofList (text.toList.drop zeroDate.toList.length)
  else text

/-- The function that stands for the current time. -/
def currentTimestamp : String := "CURRENT_TIMESTAMP"

/-- The default text of a type, as it is to be written. -/
def defaultText (type : DataType) (text : String) : String :=
  if type = .date ∨ type = .dateTime then validDate text else text

/-- Whether a default is a call of the current time. -/
def isCurrentTime (type : DataType) (text : String) : Bool :=
  type.isTemporal && currentTimestamp.toList.isPrefixOf text.toList

/-- Whether a text starts with a digit, as a date does. -/
def startsWithDigit (text : String) : Bool :=
  text.toList.head?.any Text.isDigit

/-- The default clause of a literal. Binary, bit and timestamp defaults are bare, except that an
empty one is left out and that a timestamp which is a date is quoted. -/
def defaultClause (type : DataType) (literalText : String) : String :=
  let text := defaultText type literalText
  if isCurrentTime type text then " DEFAULT " ++ text
  else if type.hasBareDefault then
    if text = "" ∨ text = "0x" then ""
    else if type = .timestamp ∧ startsWithDigit text then " DEFAULT " ++ literal text
    else " DEFAULT " ++ text
  else " DEFAULT " ++ literal text

end Sql

namespace Column

/-- The character set and collation of a column; the binary character set is not named. -/
def collationClause (c : Column) : String :=
  match c.collation with
  | none => ""
  | some collation =>
      (if collation.isBinary then "" else " CHARACTER SET " ++ collation.charset) ++
        " COLLATE " ++ collation.name

/-- The collation of a generated column. -/
def generatedCollationClause (c : Column) : String :=
  match c.collation with
  | none => ""
  | some collation => " COLLATE " ++ collation.name

def nullability (c : Column) : String :=
  if c.isNullable then " NULL" else " NOT NULL"

def defaultClause (c : Column) : String :=
  match c.default with
  | none => ""
  | some .null => " DEFAULT NULL"
  | some (.literal text) => Sql.defaultClause c.baseType text

def commentClause (c : Column) : String :=
  if c.comment.isEmpty then "" else " COMMENT " ++ Sql.literal c.comment

/-- What follows the type of a column, up to its comment. -/
def attributes (c : Column) : String :=
  match c.generationExpression with
  | none =>
      c.collationClause ++ c.nullability ++ c.defaultClause ++
        (if c.isAutoIncrement then " AUTO_INCREMENT" else "")
  | some expression =>
      c.generatedCollationClause ++ " AS (" ++ expression ++
        (if c.isVirtual then ") VIRTUAL" else ") STORED") ++ c.nullability

/-- The definition of a column. -/
def sql (c : Column) : String :=
  Sql.identifier c.name ++ " " ++ c.rawType ++
    Sql.typeFlag c.isUnsigned "UNSIGNED" c.rawType ++
    Sql.typeFlag c.isZerofill "ZEROFILL" c.rawType ++
    c.attributes ++ c.commentClause

end Column

end DictionaryDdl
