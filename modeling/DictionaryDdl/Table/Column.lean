import DictionaryDdl.Collation.Basic
import DictionaryDdl.Sdi.Basic
import DictionaryDdl.Table.DataType
import DictionaryDdl.Table.Error

/-!
The columns of a table. The columns that the storage engine adds on its own are dropped; the
others are put in the order of their ordinal positions, which have to be 1, 2, 3 and so on,
because indexes and foreign keys refer to columns by that position.
-/

namespace DictionaryDdl

/-- The default of a column. -/
inductive DefaultValue where
  | null
  /-- The text of the default, neither quoted nor escaped. -/
  | literal (text : String)
  deriving DecidableEq, Repr

structure Column where
  name : String
  rawType : String
  baseType : DataType
  ordinal : UInt32
  isNullable : Bool
  isUnsigned : Bool
  isZerofill : Bool
  isAutoIncrement : Bool
  isVirtual : Bool
  default : Option DefaultValue
  collationId : UInt32
  /-- The collation of a column of the string family. -/
  collation : Option Collation
  generationExpression : Option String
  comment : String
  deriving DecidableEq, Repr

namespace Column

/-- Whether the column is computed from others. -/
def isGenerated (c : Column) : Bool :=
  c.generationExpression.isSome

/-- The collation with a number, or the error that there is none. -/
def findCollation (catalog : Collation.Catalog) (id : UInt32) : Except DecodeError Collation :=
  match catalog.lookup? id with
  | some collation => .ok collation
  | none => .error (.unknownCollation id)

/-- The default of a dictionary column; one without a text form is left out. -/
def defaultOf (c : Sdi.Column) : Option DefaultValue :=
  if c.hasNoDefault then none
  else if c.defaultHasNoText && !c.defaultIsNull then none
  else if c.defaultIsNull then some .null
  else some (.literal c.defaultText)

/-- The collation of a dictionary column, if its type has one. -/
def collationOf (catalog : Collation.Catalog) (c : Sdi.Column) :
    Except DecodeError (Option Collation) :=
  if (DataType.ofTypeText c.columnType).isString then
    (findCollation catalog c.collationId).map some
  else
    .ok none

/-- The column of a dictionary entry. -/
def ofSdi (catalog : Collation.Catalog) (c : Sdi.Column) : Except DecodeError Column := do
  let collation ← collationOf catalog c
  return {
    name := c.name
    rawType := c.columnType
    baseType := DataType.ofTypeText c.columnType
    ordinal := c.ordinalPosition
    isNullable := c.isNullable
    isUnsigned := c.isUnsigned
    isZerofill := c.isZerofill
    isAutoIncrement := c.isAutoIncrement
    isVirtual := c.isVirtual
    default := defaultOf c
    collationId := c.collationId
    collation
    generationExpression :=
      if c.generationExpression.isEmpty then none else some c.generationExpression
    comment := c.comment }

/-- Whether the storage engine added a dictionary column on its own. -/
def isEngineColumn (c : Sdi.Column) : Bool :=
  c.hidden == Sdi.hiddenByEngine

/-- The column of a dictionary entry, unless the storage engine added it. -/
def ofSdi? (catalog : Collation.Catalog) (c : Sdi.Column) :
    Except DecodeError (Option Column) :=
  if isEngineColumn c then .ok none else (ofSdi catalog c).map some

/-- Checks that columns in ascending order have the positions `expected`, `expected + 1`, … -/
def checkDense (expected : Nat) : List Column → Except DecodeError Unit
  | [] => .ok ()
  | c :: more =>
      if c.ordinal.toNat < expected then .error (.duplicateOrdinal c.ordinal.toNat)
      else if c.ordinal.toNat = expected then checkDense (expected + 1) more
      else .error (.ordinalGap expected c.ordinal.toNat)

/-- The columns in ascending order of their positions. -/
def sorted (columns : List Column) : List Column :=
  columns.mergeSort fun a b => a.ordinal ≤ b.ordinal

/-- The columns of a table. -/
def listOfSdi (catalog : Collation.Catalog) (columns : List Sdi.Column) :
    Except DecodeError (List Column) := do
  let visible ← (columns.filter (!isEngineColumn ·)).mapM (ofSdi catalog)
  checkDense 1 (sorted visible)
  return sorted visible

end Column

end DictionaryDdl
