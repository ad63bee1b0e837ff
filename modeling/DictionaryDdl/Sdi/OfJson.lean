import DictionaryDdl.Json.Record
import DictionaryDdl.Sdi.Basic

/-!
Dictionary records from JSON values. Every field is required but three: whether a default has a
text form, the schema that a foreign key refers to, and the subpartitions of a partition.
-/

namespace DictionaryDdl.Sdi

open Json

def columnRecord : RecordType where
  name := "struct SdiColumn"
  fields :=
    ["name", "column_type_utf8", "ordinal_position", "hidden", "is_nullable", "is_zerofill",
      "is_unsigned", "is_auto_increment", "is_virtual", "has_no_default", "default_value_null",
      "default_value_utf8_null", "default_value_utf8", "generation_expression_utf8",
      "collation_id", "comment"]

def Column.ofJson (value : Json) : Except Mismatch Column := do
  let fields ← columnRecord.fieldsOf value
  let name := fields.read "name" asString
  let columnType := fields.read "column_type_utf8" asString
  let ordinalPosition := fields.read "ordinal_position" asUInt32
  let hidden := fields.read "hidden" asUInt32
  let isNullable := fields.read "is_nullable" asBool
  let isZerofill := fields.read "is_zerofill" asBool
  let isUnsigned := fields.read "is_unsigned" asBool
  let isAutoIncrement := fields.read "is_auto_increment" asBool
  let isVirtual := fields.read "is_virtual" asBool
  let hasNoDefault := fields.read "has_no_default" asBool
  let defaultIsNull := fields.read "default_value_null" asBool
  let defaultHasNoText := fields.read "default_value_utf8_null" asBool
  let defaultText := fields.read "default_value_utf8" asString
  let generationExpression := fields.read "generation_expression_utf8" asString
  let collationId := fields.read "collation_id" asUInt32
  let comment := fields.read "comment" asString
  fields.check
    [("name", name.fault?), ("column_type_utf8", columnType.fault?),
      ("ordinal_position", ordinalPosition.fault?), ("hidden", hidden.fault?),
      ("is_nullable", isNullable.fault?), ("is_zerofill", isZerofill.fault?),
      ("is_unsigned", isUnsigned.fault?), ("is_auto_increment", isAutoIncrement.fault?),
      ("is_virtual", isVirtual.fault?), ("has_no_default", hasNoDefault.fault?),
      ("default_value_null", defaultIsNull.fault?),
      ("default_value_utf8_null", defaultHasNoText.fault?),
      ("default_value_utf8", defaultText.fault?),
      ("generation_expression_utf8", generationExpression.fault?),
      ("collation_id", collationId.fault?), ("comment", comment.fault?)]
  let name ← fields.require "name" name
  let columnType ← fields.require "column_type_utf8" columnType
  let ordinalPosition ← fields.require "ordinal_position" ordinalPosition
  let hidden ← fields.require "hidden" hidden
  let isNullable ← fields.require "is_nullable" isNullable
  let isZerofill ← fields.require "is_zerofill" isZerofill
  let isUnsigned ← fields.require "is_unsigned" isUnsigned
  let isAutoIncrement ← fields.require "is_auto_increment" isAutoIncrement
  let isVirtual ← fields.require "is_virtual" isVirtual
  let hasNoDefault ← fields.require "has_no_default" hasNoDefault
  let defaultIsNull ← fields.require "default_value_null" defaultIsNull
  let defaultHasNoText ← defaultHasNoText.orDefault false
  let defaultText ← fields.require "default_value_utf8" defaultText
  let generationExpression ← fields.require "generation_expression_utf8" generationExpression
  let collationId ← fields.require "collation_id" collationId
  let comment ← fields.require "comment" comment
  fields.close
    { name, columnType, ordinalPosition, hidden, isNullable, isZerofill, isUnsigned,
      isAutoIncrement, isVirtual, hasNoDefault, defaultIsNull, defaultHasNoText, defaultText,
      generationExpression, collationId, comment }

def indexElementRecord : RecordType where
  name := "struct SdiIndexElement"
  fields :=
    ["column_opx", "length", "hidden"]

def IndexElement.ofJson (value : Json) : Except Mismatch IndexElement := do
  let fields ← indexElementRecord.fieldsOf value
  let columnPosition := fields.read "column_opx" asUInt32
  let length := fields.read "length" asUInt64
  let hidden := fields.read "hidden" asBool
  fields.check
    [("column_opx", columnPosition.fault?), ("length", length.fault?),
      ("hidden", hidden.fault?)]
  let columnPosition ← fields.require "column_opx" columnPosition
  let length ← fields.require "length" length
  let hidden ← fields.require "hidden" hidden
  fields.close
    { columnPosition, length, hidden }

def indexRecord : RecordType where
  name := "struct SdiIndex"
  fields :=
    ["name", "type", "hidden", "elements"]

def Index.ofJson (value : Json) : Except Mismatch Index := do
  let fields ← indexRecord.fieldsOf value
  let name := fields.read "name" asString
  let kindCode := fields.read "type" asUInt32
  let hidden := fields.read "hidden" asBool
  let elements := fields.read "elements" (asList IndexElement.ofJson)
  fields.check
    [("name", name.fault?), ("type", kindCode.fault?), ("hidden", hidden.fault?),
      ("elements", elements.fault?)]
  let name ← fields.require "name" name
  let kindCode ← fields.require "type" kindCode
  let hidden ← fields.require "hidden" hidden
  let elements ← fields.require "elements" elements
  fields.close
    { name, kindCode, hidden, elements }

def foreignKeyElementRecord : RecordType where
  name := "struct SdiForeignKeyElement"
  fields :=
    ["column_opx", "referenced_column_name"]

def ForeignKeyElement.ofJson (value : Json) : Except Mismatch ForeignKeyElement := do
  let fields ← foreignKeyElementRecord.fieldsOf value
  let columnPosition := fields.read "column_opx" asUInt32
  let referencedColumn := fields.read "referenced_column_name" asString
  fields.check
    [("column_opx", columnPosition.fault?),
      ("referenced_column_name", referencedColumn.fault?)]
  let columnPosition ← fields.require "column_opx" columnPosition
  let referencedColumn ← fields.require "referenced_column_name" referencedColumn
  fields.close
    { columnPosition, referencedColumn }

def foreignKeyRecord : RecordType where
  name := "struct SdiForeignKey"
  fields :=
    ["name", "referenced_table_name", "referenced_table_schema_name", "delete_rule",
      "update_rule", "elements"]

def ForeignKey.ofJson (value : Json) : Except Mismatch ForeignKey := do
  let fields ← foreignKeyRecord.fieldsOf value
  let name := fields.read "name" asString
  let referencedTable := fields.read "referenced_table_name" asString
  let referencedSchema := fields.read "referenced_table_schema_name" asString
  let deleteRule := fields.read "delete_rule" asUInt32
  let updateRule := fields.read "update_rule" asUInt32
  let elements := fields.read "elements" (asList ForeignKeyElement.ofJson)
  fields.check
    [("name", name.fault?), ("referenced_table_name", referencedTable.fault?),
      ("referenced_table_schema_name", referencedSchema.fault?),
      ("delete_rule", deleteRule.fault?), ("update_rule", updateRule.fault?),
      ("elements", elements.fault?)]
  let name ← fields.require "name" name
  let referencedTable ← fields.require "referenced_table_name" referencedTable
  let referencedSchema ← referencedSchema.orDefault ""
  let deleteRule ← fields.require "delete_rule" deleteRule
  let updateRule ← fields.require "update_rule" updateRule
  let elements ← fields.require "elements" elements
  fields.close
    { name, referencedTable, referencedSchema, deleteRule, updateRule, elements }

def partitionRecord : RecordType where
  name := "struct SdiPartition"
  fields := ["name", "description_utf8", "engine", "comment", "subpartitions"]

/-- A partition whose value is nested less than `fuel` deep. -/
def Partition.ofNested (fuel : Nat) (value : Json) : Except Mismatch Partition :=
  match fuel with
  | 0 => .error (.wrongType value.found partitionRecord.name)
  | fuel + 1 => do
      let fields ← partitionRecord.fieldsOf value
      let name := fields.read "name" asString
      let description := fields.read "description_utf8" asString
      let engine := fields.read "engine" asString
      let comment := fields.read "comment" asString
      let subpartitions := fields.read "subpartitions" (asList (Partition.ofNested fuel))
      fields.check
        [("name", name.fault?), ("description_utf8", description.fault?),
          ("engine", engine.fault?), ("comment", comment.fault?),
          ("subpartitions", subpartitions.fault?)]
      let name ← fields.require "name" name
      let description ← fields.require "description_utf8" description
      let engine ← fields.require "engine" engine
      let comment ← fields.require "comment" comment
      let subpartitions ← subpartitions.orDefault []
      fields.close { name, description, engine, comment, subpartitions }

/-- A partition with its subpartitions, which may be left out. -/
def Partition.ofJson (value : Json) : Except Mismatch Partition :=
  Partition.ofNested (value.depth + 1) value

def tableRecord : RecordType where
  name := "struct SdiTable"
  fields :=
    ["name", "schema_ref", "engine", "collation_id", "row_format", "options",
      "se_private_data", "columns", "indexes", "foreign_keys", "partition_type",
      "partition_expression_utf8", "default_partitioning", "subpartition_type",
      "subpartition_expression_utf8", "default_subpartitioning", "partitions"]

def Table.ofJson (value : Json) : Except Mismatch Table := do
  let fields ← tableRecord.fieldsOf value
  let name := fields.read "name" asString
  let schema := fields.read "schema_ref" asString
  let engine := fields.read "engine" asString
  let collationId := fields.read "collation_id" asUInt32
  let rowFormat := fields.read "row_format" asUInt32
  let options := fields.read "options" asString
  let privateData := fields.read "se_private_data" asString
  let columns := fields.read "columns" (asList Column.ofJson)
  let indexes := fields.read "indexes" (asList Index.ofJson)
  let foreignKeys := fields.read "foreign_keys" (asList ForeignKey.ofJson)
  let partitionType := fields.read "partition_type" asUInt32
  let partitionExpression := fields.read "partition_expression_utf8" asString
  let defaultPartitioning := fields.read "default_partitioning" asUInt32
  let subpartitionType := fields.read "subpartition_type" asUInt32
  let subpartitionExpression := fields.read "subpartition_expression_utf8" asString
  let defaultSubpartitioning := fields.read "default_subpartitioning" asUInt32
  let partitions := fields.read "partitions" (asList Partition.ofJson)
  fields.check
    [("name", name.fault?), ("schema_ref", schema.fault?), ("engine", engine.fault?),
      ("collation_id", collationId.fault?), ("row_format", rowFormat.fault?),
      ("options", options.fault?), ("se_private_data", privateData.fault?),
      ("columns", columns.fault?), ("indexes", indexes.fault?),
      ("foreign_keys", foreignKeys.fault?), ("partition_type", partitionType.fault?),
      ("partition_expression_utf8", partitionExpression.fault?),
      ("default_partitioning", defaultPartitioning.fault?),
      ("subpartition_type", subpartitionType.fault?),
      ("subpartition_expression_utf8", subpartitionExpression.fault?),
      ("default_subpartitioning", defaultSubpartitioning.fault?),
      ("partitions", partitions.fault?)]
  let name ← fields.require "name" name
  let schema ← fields.require "schema_ref" schema
  let engine ← fields.require "engine" engine
  let collationId ← fields.require "collation_id" collationId
  let rowFormat ← fields.require "row_format" rowFormat
  let options ← fields.require "options" options
  let privateData ← fields.require "se_private_data" privateData
  let columns ← fields.require "columns" columns
  let indexes ← fields.require "indexes" indexes
  let foreignKeys ← fields.require "foreign_keys" foreignKeys
  let partitionType ← fields.require "partition_type" partitionType
  let partitionExpression ← fields.require "partition_expression_utf8" partitionExpression
  let defaultPartitioning ← fields.require "default_partitioning" defaultPartitioning
  let subpartitionType ← fields.require "subpartition_type" subpartitionType
  let subpartitionExpression ←
    fields.require "subpartition_expression_utf8" subpartitionExpression
  let defaultSubpartitioning ← fields.require "default_subpartitioning" defaultSubpartitioning
  let partitions ← fields.require "partitions" partitions
  fields.close
    { name, schema, engine, collationId, rowFormat, options, privateData, columns, indexes,
      foreignKeys, partitionType, partitionExpression, defaultPartitioning, subpartitionType,
      subpartitionExpression, defaultSubpartitioning, partitions }

end DictionaryDdl.Sdi
