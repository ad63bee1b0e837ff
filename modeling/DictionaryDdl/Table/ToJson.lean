import DictionaryDdl.Collation.OfJson
import DictionaryDdl.Table.Compiled

/-!
Definitions as JSON values, for inspection. The members of an object stand in the order of the
fields; a label that needs no content is a string, and one that has content is an object with
the label as its only name.
-/

namespace DictionaryDdl

/-- A label with its content. -/
def labelled (label : String) (content : Json) : Json :=
  .object [(label, content)]

def DataType.toJson : DataType → Json
  | .geometry name => labelled "Geometry" (.string name)
  | .custom name => labelled "Custom" (.string name)
  | type => .string type.label

def DefaultValue.toJson : DefaultValue → Json
  | .null => .string "Null"
  | .literal text => labelled "Literal" (.string text)

def IndexKind.toJson : IndexKind → Json
  | primary => .string "Primary"
  | unique => .string "Unique"
  | multiple => .string "Multiple"
  | fullText => .string "FullText"
  | spatial => .string "Spatial"

def RowFormat.toJson : RowFormat → Json
  | fixed => .string "Fixed"
  | dynamic => .string "Dynamic"
  | compressed => .string "Compressed"
  | redundant => .string "Redundant"
  | compact => .string "Compact"
  | paged => .string "Paged"

def ReferentialAction.toJson : ReferentialAction → Json
  | noAction => .string "NoAction"
  | restrict => .string "Restrict"
  | cascade => .string "Cascade"
  | setNull => .string "SetNull"
  | setDefault => .string "SetDefault"

def PartitionMethod.toJson : PartitionMethod → Json
  | hash => .string "Hash"
  | key => .string "Key"
  | linearHash => .string "LinearHash"
  | linearKey => .string "LinearKey"
  | range => .string "Range"
  | rangeColumns => .string "RangeColumns"
  | list => .string "List"
  | listColumns => .string "ListColumns"

def wordToJson (n : UInt64) : Json :=
  .ofNat n.toNat

def Column.toJson (c : Column) : Json :=
  .object
    [("name", .string c.name), ("raw_type", .string c.rawType),
      ("base_type", c.baseType.toJson), ("ordinal_position", .ofNat c.ordinal.toNat),
      ("is_nullable", .bool c.isNullable), ("is_unsigned", .bool c.isUnsigned),
      ("is_zero_fill", .bool c.isZerofill), ("is_auto_increment", .bool c.isAutoIncrement),
      ("is_virtual", .bool c.isVirtual), ("default", .ofOption DefaultValue.toJson c.default),
      ("collation_id", .ofNat c.collationId.toNat),
      ("charset", .ofOption Collation.toJson c.collation),
      ("generation_expression", .ofOption .string c.generationExpression),
      ("comment", .string c.comment)]

def IndexElement.toJson (e : IndexElement) : Json :=
  .object
    [("column_ordinal", .ofNat e.columnOrdinal.toNat), ("column_name", .string e.columnName),
      ("length_bytes", wordToJson e.lengthBytes),
      ("prefix_chars", .ofOption wordToJson e.prefixChars)]

def Index.toJson (i : Index) : Json :=
  .object
    [("name", .string i.name), ("kind", i.kind.toJson),
      ("elements", .array (i.elements.map IndexElement.toJson))]

/-- A partition or subpartition with what it contains. -/
def PartitionSpec.toJson (p : PartitionSpec) (subpartitions : List Json) : Json :=
  .object
    [("name", .string p.name), ("value_expression", .string p.values),
      ("engine", .string p.engine), ("comment", .string p.comment),
      ("subpartitions", .array subpartitions)]

def Partition.toJson (p : Partition) : Json :=
  p.toPartitionSpec.toJson (p.subpartitions.map (·.toJson []))

def Partitioning.toJson (p : Partitioning) : Json :=
  .object
    [("method", .ofOption PartitionMethod.toJson p.method), ("expression", .string p.expression),
      ("explicit_partitions", .bool p.explicitPartitions),
      ("sub_method", .ofOption PartitionMethod.toJson p.subMethod),
      ("sub_expression", .string p.subExpression),
      ("explicit_subpartitions", .bool p.explicitSubpartitions),
      ("partitions", .array (p.partitions.map Partition.toJson))]

def ForeignKey.toJson (k : ForeignKey) : Json :=
  .object
    [("name", .string k.name), ("local_columns", .array (k.localColumns.map .string)),
      ("referenced_schema", .ofOption .string k.referencedSchema),
      ("referenced_table", .string k.referencedTable),
      ("referenced_columns", .array (k.referencedColumns.map .string)),
      ("on_delete", k.onDelete.toJson), ("on_update", k.onUpdate.toJson)]

def TableOptions.toJson (o : TableOptions) : Json :=
  .object
    [("avg_row_length", .ofOption wordToJson o.avgRowLength),
      ("key_block_size", .ofOption wordToJson o.keyBlockSize),
      ("stats_auto_recalc", .ofOption .bool o.statsAutoRecalc),
      ("stats_sample_pages", .ofOption wordToJson o.statsSamplePages),
      ("encryption", .ofOption .string o.encryption)]

def TableDefinition.toJson (t : TableDefinition) : Json :=
  .object
    [("schema", .string t.schema), ("name", .string t.name), ("engine", .string t.engine),
      ("row_format", t.rowFormat.toJson), ("collation_id", .ofNat t.collationId.toNat),
      ("charset", t.collation.toJson), ("auto_increment", .ofOption wordToJson t.autoIncrement),
      ("columns", .array (t.columns.map Column.toJson)),
      ("indexes", .array (t.indexes.map Index.toJson)),
      ("partitioning", t.partitioning.toJson),
      ("foreign_keys", .array (t.foreignKeys.map ForeignKey.toJson)),
      ("options", t.options.toJson)]

def CompiledTable.toJson (t : CompiledTable) : Json :=
  .object
    [("schema", .string t.schema), ("name", .string t.name),
      ("create_table", .string t.createTable),
      ("foreign_keys", .ofOption .string t.foreignKeys)]

end DictionaryDdl
