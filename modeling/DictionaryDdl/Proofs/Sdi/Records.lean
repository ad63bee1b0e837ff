import DictionaryDdl.Proofs.Json.Fields
import DictionaryDdl.Proofs.Json.Reading
import DictionaryDdl.Sdi.OfJson
import DictionaryDdl.Sdi.ToJson

/-!
Records that are taken out of their own values. Every kind of record gives all of its fields, each
under a name of its own, and each field is read as what it was written from, so the record comes
back in whatever order its members stand. The values are exact, and only partitions make them deep.
-/

namespace DictionaryDdl.Sdi

open Json

/-! ### Columns -/

theorem Column.ofJson_ordered (column : Column) :
    Column.ofJson column.toJson.ordered = .ok column := by
  obtain ⟨fields, hfields, hclose, hread⟩ :=
    columnRecord.fieldsOf_ordered (rfl : column.toJson = _) rfl (by decide)
  have hname := hread "name" _ asString column.name rfl rfl
  have htype := hread "column_type_utf8" _ asString column.columnType rfl rfl
  have hposition :=
    hread "ordinal_position" _ asUInt32 _ rfl (asUInt32_ofNat column.ordinalPosition)
  have hhidden := hread "hidden" _ asUInt32 _ rfl (asUInt32_ofNat column.hidden)
  have hnullable := hread "is_nullable" _ asBool column.isNullable rfl rfl
  have hzerofill := hread "is_zerofill" _ asBool column.isZerofill rfl rfl
  have hunsigned := hread "is_unsigned" _ asBool column.isUnsigned rfl rfl
  have hautoIncrement := hread "is_auto_increment" _ asBool column.isAutoIncrement rfl rfl
  have hvirtual := hread "is_virtual" _ asBool column.isVirtual rfl rfl
  have hnoDefault := hread "has_no_default" _ asBool column.hasNoDefault rfl rfl
  have hdefaultIsNull := hread "default_value_null" _ asBool column.defaultIsNull rfl rfl
  have hnoText := hread "default_value_utf8_null" _ asBool column.defaultHasNoText rfl rfl
  have hdefaultText := hread "default_value_utf8" _ asString column.defaultText rfl rfl
  have hexpression :=
    hread "generation_expression_utf8" _ asString column.generationExpression rfl rfl
  have hcollation := hread "collation_id" _ asUInt32 _ rfl (asUInt32_ofNat column.collationId)
  have hcomment := hread "comment" _ asString column.comment rfl rfl
  rw [Column.ofJson, hfields]
  simp only [bind, Except.bind, hname, htype, hposition, hhidden, hnullable, hzerofill, hunsigned,
    hautoIncrement, hvirtual, hnoDefault, hdefaultIsNull, hnoText, hdefaultText, hexpression,
    hcollation, hcomment]
  rw [Fields.check_eq_ok (by simp [Field.fault?])]
  simp only [Fields.require, Field.orDefault, Fields.close, hclose]

theorem Column.exact_toJson (column : Column) : column.toJson.IsExact := by
  have hnames : columnRecord.fields.Nodup := by decide
  refine .object hnames ?_
  simp [IsExact.string, IsExact.bool, exact_ofUInt32]

theorem Column.depth_toJson (column : Column) : column.toJson.depth = 1 := rfl

/-! ### Indexes -/

theorem IndexElement.ofJson_ordered (element : IndexElement) :
    IndexElement.ofJson element.toJson.ordered = .ok element := by
  obtain ⟨fields, hfields, hclose, hread⟩ :=
    indexElementRecord.fieldsOf_ordered (rfl : element.toJson = _) rfl (by decide)
  have hposition := hread "column_opx" _ asUInt32 _ rfl (asUInt32_ofNat element.columnPosition)
  have hlength := hread "length" _ asUInt64 _ rfl (asUInt64_ofNat element.length)
  have hhidden := hread "hidden" _ asBool element.hidden rfl rfl
  rw [IndexElement.ofJson, hfields]
  simp only [bind, Except.bind, hposition, hlength, hhidden]
  rw [Fields.check_eq_ok (by simp [Field.fault?])]
  simp only [Fields.require, Fields.close, hclose]

theorem IndexElement.exact_toJson (element : IndexElement) : element.toJson.IsExact := by
  have hnames : indexElementRecord.fields.Nodup := by decide
  refine .object hnames ?_
  simp [IsExact.bool, exact_ofUInt32, exact_ofUInt64]

theorem IndexElement.depth_toJson (element : IndexElement) : element.toJson.depth = 1 := rfl

theorem Index.ofJson_ordered (index : Index) : Index.ofJson index.toJson.ordered = .ok index := by
  have helement : ∀ element ∈ index.elements,
      IndexElement.ofJson element.toJson.ordered = .ok element :=
    fun element _ => element.ofJson_ordered
  obtain ⟨fields, hfields, hclose, hread⟩ :=
    indexRecord.fieldsOf_ordered (rfl : index.toJson = _) rfl (by decide)
  have hname := hread "name" _ asString index.name rfl rfl
  have hkind := hread "type" _ asUInt32 _ rfl (asUInt32_ofNat index.kindCode)
  have hhidden := hread "hidden" _ asBool index.hidden rfl rfl
  have helements := hread "elements" _ (asList IndexElement.ofJson) _ rfl (asList_ordered helement)
  rw [Index.ofJson, hfields]
  simp only [bind, Except.bind, hname, hkind, hhidden, helements]
  rw [Fields.check_eq_ok (by simp [Field.fault?])]
  simp only [Fields.require, Fields.close, hclose]

theorem Index.exact_toJson (index : Index) : index.toJson.IsExact := by
  have hnames : indexRecord.fields.Nodup := by decide
  have helements : (Json.array (index.elements.map IndexElement.toJson)).IsExact :=
    .array (List.forall_mem_map.mpr fun element _ => element.exact_toJson)
  refine .object hnames ?_
  simp [IsExact.string, IsExact.bool, exact_ofUInt32, helements]

theorem Index.depth_toJson_le (index : Index) : index.toJson.depth ≤ 3 := by
  have helements : (Json.array (index.elements.map IndexElement.toJson)).depth ≤ 2 :=
    depth_array_le_iff.mpr (List.forall_mem_map.mpr fun element _ => element.depth_toJson.le)
  refine depth_object_le_iff.mpr ?_
  simp [depth_string, depth_ofNat, depth_bool, helements]

/-! ### Foreign keys -/

theorem ForeignKeyElement.ofJson_ordered (element : ForeignKeyElement) :
    ForeignKeyElement.ofJson element.toJson.ordered = .ok element := by
  obtain ⟨fields, hfields, hclose, hread⟩ :=
    foreignKeyElementRecord.fieldsOf_ordered (rfl : element.toJson = _) rfl (by decide)
  have hposition := hread "column_opx" _ asUInt32 _ rfl (asUInt32_ofNat element.columnPosition)
  have hcolumn := hread "referenced_column_name" _ asString element.referencedColumn rfl rfl
  rw [ForeignKeyElement.ofJson, hfields]
  simp only [bind, Except.bind, hposition, hcolumn]
  rw [Fields.check_eq_ok (by simp [Field.fault?])]
  simp only [Fields.require, Fields.close, hclose]

theorem ForeignKeyElement.exact_toJson (element : ForeignKeyElement) : element.toJson.IsExact := by
  have hnames : foreignKeyElementRecord.fields.Nodup := by decide
  refine .object hnames ?_
  simp [IsExact.string, exact_ofUInt32]

theorem ForeignKeyElement.depth_toJson (element : ForeignKeyElement) : element.toJson.depth = 1 :=
  rfl

theorem ForeignKey.ofJson_ordered (foreignKey : ForeignKey) :
    ForeignKey.ofJson foreignKey.toJson.ordered = .ok foreignKey := by
  have helement : ∀ element ∈ foreignKey.elements,
      ForeignKeyElement.ofJson element.toJson.ordered = .ok element :=
    fun element _ => element.ofJson_ordered
  obtain ⟨fields, hfields, hclose, hread⟩ :=
    foreignKeyRecord.fieldsOf_ordered (rfl : foreignKey.toJson = _) rfl (by decide)
  have hname := hread "name" _ asString foreignKey.name rfl rfl
  have htable := hread "referenced_table_name" _ asString foreignKey.referencedTable rfl rfl
  have hschema :=
    hread "referenced_table_schema_name" _ asString foreignKey.referencedSchema rfl rfl
  have hdelete := hread "delete_rule" _ asUInt32 _ rfl (asUInt32_ofNat foreignKey.deleteRule)
  have hupdate := hread "update_rule" _ asUInt32 _ rfl (asUInt32_ofNat foreignKey.updateRule)
  have helements :=
    hread "elements" _ (asList ForeignKeyElement.ofJson) _ rfl (asList_ordered helement)
  rw [ForeignKey.ofJson, hfields]
  simp only [bind, Except.bind, hname, htable, hschema, hdelete, hupdate, helements]
  rw [Fields.check_eq_ok (by simp [Field.fault?])]
  simp only [Fields.require, Field.orDefault, Fields.close, hclose]

theorem ForeignKey.exact_toJson (foreignKey : ForeignKey) : foreignKey.toJson.IsExact := by
  have hnames : foreignKeyRecord.fields.Nodup := by decide
  have helements : (Json.array (foreignKey.elements.map ForeignKeyElement.toJson)).IsExact :=
    .array (List.forall_mem_map.mpr fun element _ => element.exact_toJson)
  refine .object hnames ?_
  simp [IsExact.string, exact_ofUInt32, helements]

theorem ForeignKey.depth_toJson_le (foreignKey : ForeignKey) : foreignKey.toJson.depth ≤ 3 := by
  have helements : (Json.array (foreignKey.elements.map ForeignKeyElement.toJson)).depth ≤ 2 :=
    depth_array_le_iff.mpr (List.forall_mem_map.mpr fun element _ => element.depth_toJson.le)
  refine depth_object_le_iff.mpr ?_
  simp [depth_string, depth_ofNat, helements]

/-! ### Partitions -/

theorem Partition.listToJson_eq_map (partitions : List Partition) :
    Partition.listToJson partitions = partitions.map Partition.toJson := by
  induction partitions with
  | nil => rfl
  | cons partition more ih => rw [Partition.listToJson, ih, List.map_cons]

mutual

/-- How many partitions stand inside one another, a partition without subpartitions being one. -/
def Partition.levels : Partition → Nat
  | { name := _, description := _, engine := _, comment := _, subpartitions } =>
      Partition.listLevels subpartitions + 1

/-- How deep the partitions of a list are nested. -/
def Partition.listLevels : List Partition → Nat
  | [] => 0
  | partition :: more => max partition.levels (Partition.listLevels more)

end

theorem Partition.ofNested_ordered {fuel : Nat} (partition : Partition)
    (hfuel : partition.toJson.ordered.depth < fuel) :
    Partition.ofNested fuel partition.toJson.ordered = .ok partition := by
  induction fuel generalizing partition with
  | zero => omega
  | succ fuel ih =>
      obtain ⟨name, description, engine, comment, subpartitions⟩ := partition
      have hvalue : Partition.toJson ⟨name, description, engine, comment, subpartitions⟩ = _ := rfl
      have hnodup : partitionRecord.fields.Nodup := by decide
      obtain ⟨fields, hfields, hclose, hread⟩ :=
        partitionRecord.fieldsOf_ordered hvalue rfl hnodup
      have hnested : ∀ partition ∈ subpartitions,
          Partition.ofNested fuel partition.toJson.ordered = .ok partition := by
        intro partition hpartition
        have hget := get?_ordered hvalue hnodup "subpartitions"
        have hlist := depth_lt_of_get? (hget.trans rfl)
        have hmem : partition.toJson.ordered ∈
            orderedItems (Partition.listToJson subpartitions) := by
          rw [orderedItems_eq_map, Partition.listToJson_eq_map]
          exact List.mem_map_of_mem (List.mem_map_of_mem hpartition)
        have hitem : partition.toJson.ordered.depth <
            (ordered (.array (Partition.listToJson subpartitions))).depth := depth_lt_of_mem hmem
        exact ih partition (by omega)
      have hname := hread "name" _ asString name rfl rfl
      have hdescription := hread "description_utf8" _ asString description rfl rfl
      have hengine := hread "engine" _ asString engine rfl rfl
      have hcomment := hread "comment" _ asString comment rfl rfl
      have hsubpartitions := hread "subpartitions" _ (asList (Partition.ofNested fuel))
        subpartitions rfl (by
          rw [Partition.listToJson_eq_map]
          exact asList_ordered hnested)
      rw [Partition.ofNested, hfields]
      simp only [bind, Except.bind, hname, hdescription, hengine, hcomment, hsubpartitions]
      rw [Fields.check_eq_ok (by simp [Field.fault?])]
      simp only [Fields.require, Field.orDefault, Fields.close, hclose]

mutual

theorem Partition.exact_toJson : (partition : Partition) → partition.toJson.IsExact
  | { name, description, engine, comment, subpartitions } => by
      have hnames : partitionRecord.fields.Nodup := by decide
      have hsubpartitions : (Json.array (Partition.listToJson subpartitions)).IsExact :=
        .array (Partition.exact_listToJson subpartitions)
      refine .object hnames ?_
      simp [IsExact.string, hsubpartitions]

theorem Partition.exact_listToJson :
    (partitions : List Partition) → ∀ item ∈ Partition.listToJson partitions, item.IsExact
  | [] => by simp [Partition.listToJson]
  | partition :: more =>
      List.forall_mem_cons.mpr ⟨partition.exact_toJson, Partition.exact_listToJson more⟩

end

mutual

theorem Partition.depth_toJson_le :
    (partition : Partition) → partition.toJson.depth ≤ 2 * partition.levels
  | { name, description, engine, comment, subpartitions } => by
      have hsubpartitions : (Json.array (Partition.listToJson subpartitions)).depth ≤
          2 * Partition.listLevels subpartitions + 1 :=
        depth_array_le_iff.mpr (Partition.depth_listToJson_le subpartitions)
      refine depth_object_le_iff.mpr ?_
      simp [depth_string, hsubpartitions]

theorem Partition.depth_listToJson_le : (partitions : List Partition) →
    ∀ item ∈ Partition.listToJson partitions, item.depth ≤ 2 * Partition.listLevels partitions
  | [] => by simp [Partition.listToJson]
  | partition :: more => by
      have hfirst := partition.depth_toJson_le
      have hmore := Partition.depth_listToJson_le more
      refine List.forall_mem_cons.mpr ⟨?_, fun item hitem => ?_⟩
      · rw [Partition.listLevels]
        omega
      · have hitem := hmore item hitem
        rw [Partition.listLevels]
        omega

end

theorem Partition.ofJson_ordered (partition : Partition) :
    Partition.ofJson partition.toJson.ordered = .ok partition :=
  partition.ofNested_ordered (Nat.lt_add_one _)

/-! ### Tables -/

theorem Table.ofJson_ordered (table : Table) : Table.ofJson table.toJson.ordered = .ok table := by
  have hcolumn : ∀ column ∈ table.columns, Column.ofJson column.toJson.ordered = .ok column :=
    fun column _ => column.ofJson_ordered
  have hindex : ∀ index ∈ table.indexes, Index.ofJson index.toJson.ordered = .ok index :=
    fun index _ => index.ofJson_ordered
  have hforeignKey : ∀ foreignKey ∈ table.foreignKeys,
      ForeignKey.ofJson foreignKey.toJson.ordered = .ok foreignKey :=
    fun foreignKey _ => foreignKey.ofJson_ordered
  have hpartition : asList Partition.ofJson
      (ordered (.array (Partition.listToJson table.partitions))) = .ok table.partitions := by
    rw [Partition.listToJson_eq_map]
    exact asList_ordered fun partition _ => partition.ofJson_ordered
  obtain ⟨fields, hfields, hclose, hread⟩ :=
    tableRecord.fieldsOf_ordered (rfl : table.toJson = _) rfl (by decide)
  have hname := hread "name" _ asString table.name rfl rfl
  have hschema := hread "schema_ref" _ asString table.schema rfl rfl
  have hengine := hread "engine" _ asString table.engine rfl rfl
  have hcollation := hread "collation_id" _ asUInt32 _ rfl (asUInt32_ofNat table.collationId)
  have hrowFormat := hread "row_format" _ asUInt32 _ rfl (asUInt32_ofNat table.rowFormat)
  have hoptions := hread "options" _ asString table.options rfl rfl
  have hprivate := hread "se_private_data" _ asString table.privateData rfl rfl
  have hcolumns := hread "columns" _ (asList Column.ofJson) _ rfl (asList_ordered hcolumn)
  have hindexes := hread "indexes" _ (asList Index.ofJson) _ rfl (asList_ordered hindex)
  have hforeignKeys :=
    hread "foreign_keys" _ (asList ForeignKey.ofJson) _ rfl (asList_ordered hforeignKey)
  have htype := hread "partition_type" _ asUInt32 _ rfl (asUInt32_ofNat table.partitionType)
  have hexpression :=
    hread "partition_expression_utf8" _ asString table.partitionExpression rfl rfl
  have hdefault :=
    hread "default_partitioning" _ asUInt32 _ rfl (asUInt32_ofNat table.defaultPartitioning)
  have hsubtype :=
    hread "subpartition_type" _ asUInt32 _ rfl (asUInt32_ofNat table.subpartitionType)
  have hsubexpression :=
    hread "subpartition_expression_utf8" _ asString table.subpartitionExpression rfl rfl
  have hsubdefault :=
    hread "default_subpartitioning" _ asUInt32 _ rfl (asUInt32_ofNat table.defaultSubpartitioning)
  have hpartitions := hread "partitions" _ (asList Partition.ofJson) _ rfl hpartition
  rw [Table.ofJson, hfields]
  simp only [bind, Except.bind, hname, hschema, hengine, hcollation, hrowFormat, hoptions, hprivate,
    hcolumns, hindexes, hforeignKeys, htype, hexpression, hdefault, hsubtype, hsubexpression,
    hsubdefault, hpartitions]
  rw [Fields.check_eq_ok (by simp [Field.fault?])]
  simp only [Fields.require, Fields.close, hclose]

theorem Table.exact_toJson (table : Table) : table.toJson.IsExact := by
  have hnames : tableRecord.fields.Nodup := by decide
  have hcolumns : (Json.array (table.columns.map Column.toJson)).IsExact :=
    .array (List.forall_mem_map.mpr fun column _ => column.exact_toJson)
  have hindexes : (Json.array (table.indexes.map Index.toJson)).IsExact :=
    .array (List.forall_mem_map.mpr fun index _ => index.exact_toJson)
  have hforeignKeys : (Json.array (table.foreignKeys.map ForeignKey.toJson)).IsExact :=
    .array (List.forall_mem_map.mpr fun foreignKey _ => foreignKey.exact_toJson)
  have hpartitions : (Json.array (Partition.listToJson table.partitions)).IsExact :=
    .array (Partition.exact_listToJson table.partitions)
  refine .object hnames ?_
  simp [IsExact.string, exact_ofUInt32, hcolumns, hindexes, hforeignKeys, hpartitions]

theorem Table.depth_toJson_le (table : Table) :
    table.toJson.depth ≤ 2 * Partition.listLevels table.partitions + 5 := by
  have hcolumns : (Json.array (table.columns.map Column.toJson)).depth ≤
      2 * Partition.listLevels table.partitions + 4 :=
    depth_array_le_iff.mpr (List.forall_mem_map.mpr fun column _ => by
      rw [column.depth_toJson]
      omega)
  have hindexes : (Json.array (table.indexes.map Index.toJson)).depth ≤
      2 * Partition.listLevels table.partitions + 4 :=
    depth_array_le_iff.mpr (List.forall_mem_map.mpr fun index _ =>
      index.depth_toJson_le.trans (by omega))
  have hforeignKeys : (Json.array (table.foreignKeys.map ForeignKey.toJson)).depth ≤
      2 * Partition.listLevels table.partitions + 4 :=
    depth_array_le_iff.mpr (List.forall_mem_map.mpr fun foreignKey _ =>
      foreignKey.depth_toJson_le.trans (by omega))
  have hpartitions : (Json.array (Partition.listToJson table.partitions)).depth ≤
      2 * Partition.listLevels table.partitions + 4 :=
    depth_array_le_iff.mpr fun item hitem =>
      (Partition.depth_listToJson_le table.partitions item hitem).trans (by omega)
  refine depth_object_le_iff.mpr ?_
  simp [depth_string, depth_ofNat, hcolumns, hindexes, hforeignKeys, hpartitions]

end DictionaryDdl.Sdi
