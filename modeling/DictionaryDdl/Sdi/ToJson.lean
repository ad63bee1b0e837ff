import DictionaryDdl.Json.Basic
import DictionaryDdl.Sdi.Basic

/-!
Dictionary records as JSON values: objects of all their fields, in the order of their
declaration.
-/

namespace DictionaryDdl.Sdi

def Column.toJson (column : Column) : Json :=
  .object
    [("name", .string column.name), ("column_type_utf8", .string column.columnType),
      ("ordinal_position", .ofNat column.ordinalPosition.toNat),
      ("hidden", .ofNat column.hidden.toNat), ("is_nullable", .bool column.isNullable),
      ("is_zerofill", .bool column.isZerofill), ("is_unsigned", .bool column.isUnsigned),
      ("is_auto_increment", .bool column.isAutoIncrement),
      ("is_virtual", .bool column.isVirtual), ("has_no_default", .bool column.hasNoDefault),
      ("default_value_null", .bool column.defaultIsNull),
      ("default_value_utf8_null", .bool column.defaultHasNoText),
      ("default_value_utf8", .string column.defaultText),
      ("generation_expression_utf8", .string column.generationExpression),
      ("collation_id", .ofNat column.collationId.toNat), ("comment", .string column.comment)]

def IndexElement.toJson (indexElement : IndexElement) : Json :=
  .object
    [("column_opx", .ofNat indexElement.columnPosition.toNat),
      ("length", .ofNat indexElement.length.toNat), ("hidden", .bool indexElement.hidden)]

def Index.toJson (index : Index) : Json :=
  .object
    [("name", .string index.name), ("type", .ofNat index.kindCode.toNat),
      ("hidden", .bool index.hidden),
      ("elements", .array (index.elements.map IndexElement.toJson))]

def ForeignKeyElement.toJson (foreignKeyElement : ForeignKeyElement) : Json :=
  .object
    [("column_opx", .ofNat foreignKeyElement.columnPosition.toNat),
      ("referenced_column_name", .string foreignKeyElement.referencedColumn)]

def ForeignKey.toJson (foreignKey : ForeignKey) : Json :=
  .object
    [("name", .string foreignKey.name),
      ("referenced_table_name", .string foreignKey.referencedTable),
      ("referenced_table_schema_name", .string foreignKey.referencedSchema),
      ("delete_rule", .ofNat foreignKey.deleteRule.toNat),
      ("update_rule", .ofNat foreignKey.updateRule.toNat),
      ("elements", .array (foreignKey.elements.map ForeignKeyElement.toJson))]

mutual

def Partition.toJson : Partition → Json
  | { name, description, engine, comment, subpartitions } =>
      .object
        [("name", .string name), ("description_utf8", .string description),
          ("engine", .string engine), ("comment", .string comment),
          ("subpartitions", .array (Partition.listToJson subpartitions))]

def Partition.listToJson : List Partition → List Json
  | [] => []
  | partition :: more => partition.toJson :: Partition.listToJson more

end

def Table.toJson (table : Table) : Json :=
  .object
    [("name", .string table.name), ("schema_ref", .string table.schema),
      ("engine", .string table.engine), ("collation_id", .ofNat table.collationId.toNat),
      ("row_format", .ofNat table.rowFormat.toNat), ("options", .string table.options),
      ("se_private_data", .string table.privateData),
      ("columns", .array (table.columns.map Column.toJson)),
      ("indexes", .array (table.indexes.map Index.toJson)),
      ("foreign_keys", .array (table.foreignKeys.map ForeignKey.toJson)),
      ("partition_type", .ofNat table.partitionType.toNat),
      ("partition_expression_utf8", .string table.partitionExpression),
      ("default_partitioning", .ofNat table.defaultPartitioning.toNat),
      ("subpartition_type", .ofNat table.subpartitionType.toNat),
      ("subpartition_expression_utf8", .string table.subpartitionExpression),
      ("default_subpartitioning", .ofNat table.defaultSubpartitioning.toNat),
      ("partitions", .array (Partition.listToJson table.partitions))]

end DictionaryDdl.Sdi
