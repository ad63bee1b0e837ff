/-!
The serialized dictionary information of one table, with the fields that its definition is
rebuilt from. Codes, positions and flags stand as the dictionary stores them; nothing is
interpreted here.
-/

namespace DictionaryDdl.Sdi

structure Column where
  name : String
  columnType : String
  ordinalPosition : UInt32
  hidden : UInt32
  isNullable : Bool
  isZerofill : Bool
  isUnsigned : Bool
  isAutoIncrement : Bool
  isVirtual : Bool
  hasNoDefault : Bool
  defaultIsNull : Bool
  /-- Set when the default has no text form, as for auto-increment keys. -/
  defaultHasNoText : Bool
  defaultText : String
  generationExpression : String
  collationId : UInt32
  comment : String
  deriving DecidableEq, Repr

/-- The value of `Column.hidden` for the columns that the storage engine adds on its own. -/
def hiddenByEngine : UInt32 := 2

structure IndexElement where
  /-- The position in the list of columns by ordinal, counted from zero. -/
  columnPosition : UInt32
  /-- The prefix length in octets, `fullColumn` where the element is no prefix. -/
  length : UInt64
  hidden : Bool
  deriving DecidableEq, Repr

/-- The length of an index element that takes the whole column. -/
def fullColumn : UInt64 := 4294967295

structure Index where
  name : String
  kindCode : UInt32
  hidden : Bool
  elements : List IndexElement
  deriving DecidableEq, Repr

structure ForeignKeyElement where
  columnPosition : UInt32
  referencedColumn : String
  deriving DecidableEq, Repr

structure ForeignKey where
  name : String
  referencedTable : String
  referencedSchema : String
  deleteRule : UInt32
  updateRule : UInt32
  elements : List ForeignKeyElement
  deriving DecidableEq, Repr

/-- A partition with its subpartitions, as deep as the document nests them. -/
structure Partition where
  name : String
  description : String
  engine : String
  comment : String
  subpartitions : List Partition
  deriving Repr

structure Table where
  name : String
  schema : String
  engine : String
  collationId : UInt32
  rowFormat : UInt32
  /-- A list of `key=value;` elements. -/
  options : String
  /-- A list of `key=value;` elements. -/
  privateData : String
  columns : List Column
  indexes : List Index
  foreignKeys : List ForeignKey
  partitionType : UInt32
  partitionExpression : String
  defaultPartitioning : UInt32
  subpartitionType : UInt32
  subpartitionExpression : String
  defaultSubpartitioning : UInt32
  partitions : List Partition
  deriving Repr

end DictionaryDdl.Sdi
