import DictionaryDdl.Proofs.Collation.Entries
import DictionaryDdl.Proofs.Table.Acceptance

/-!
What a definition that was put together has to do with its dictionary record. Columns stand at
their positions, whatever refers to a column by position names the column that stands there, and
the partitions are the document's own tree. Nothing is assumed of the record but that its
definition could be put together.
-/

namespace DictionaryDdl

namespace Column

/-- A column that has a collation if its type has one, and then the one of its number. -/
structure Resolved (catalog : Collation.Catalog) (c : Column) : Prop where
  present : c.collation.isSome = true ↔ c.baseType.isString = true
  found : ∀ collation, c.collation = some collation →
    collation ∈ catalog.entries ∧ collation.id = c.collationId

theorem resolved_of_ofSdi {catalog : Collation.Catalog} {entry : Sdi.Column} {c : Column}
    (h : ofSdi catalog entry = .ok c) : c.Resolved catalog := by
  obtain ⟨collation?, hcollation, hc⟩ := bind_eq_ok.mp h
  cases hc
  unfold collationOf at hcollation
  split at hcollation
  · next hstring =>
      cases hfind : findCollation catalog entry.collationId with
      | error e => simp [hfind, Except.map] at hcollation
      | ok collation =>
          rw [hfind] at hcollation
          cases hcollation
          refine ⟨by simp [hstring], fun other hother => ?_⟩
          cases hother
          exact Collation.Catalog.mem_of_lookup? (findCollation_eq_ok.mp hfind)
  · next hother =>
      cases hcollation
      exact ⟨by simp [hother], nofun⟩

theorem ordinal_getElem_of_listOfSdi {catalog : Collation.Catalog} {entries : List Sdi.Column}
    {columns : List Column} (h : listOfSdi catalog entries = .ok columns) {i : Nat}
    (hi : i < columns.length) : columns[i].ordinal.toNat = i + 1 := by
  have hordinal : (columns.map (·.ordinal.toNat))[i]? = some (1 + i) := by
    rw [(listOfSdi_eq_ok_iff_perm.mp h).1, List.getElem?_range' hi, Nat.one_mul]
  rw [List.getElem?_map, List.getElem?_eq_getElem hi] at hordinal
  simpa [Nat.add_comm] using hordinal

/-- What refers to a position, counted from zero, reaches the column with the next ordinal. -/
theorem ordinal_of_columnAt {catalog : Collation.Catalog} {entries : List Sdi.Column}
    {columns : List Column} (h : listOfSdi catalog entries = .ok columns) {user : ColumnUser}
    {position : UInt32} {c : Column} (hc : columnAt columns user position = .ok c) :
    c ∈ columns ∧ c.ordinal.toNat = position.toNat + 1 := by
  unfold columnAt at hc
  split at hc
  · next column hcolumn =>
      cases hc
      obtain ⟨hlt, rfl⟩ := List.getElem?_eq_some_iff.mp hcolumn
      exact ⟨List.getElem_mem hlt, ordinal_getElem_of_listOfSdi h hlt⟩
  · cases hc

end Column

/-- An index whose elements name columns by their positions, of which it has at least one. -/
structure Index.Covers (columns : List Column) (index : Index) : Prop where
  nonempty : index.elements ≠ []
  named : ∀ e ∈ index.elements, ∃ c ∈ columns, c.ordinal = e.columnOrdinal ∧ c.name = e.columnName

theorem Index.covers_of_listOfSdi {catalog : Collation.Catalog} {entries : List Sdi.Column}
    {columns : List Column} (hcolumns : Column.listOfSdi catalog entries = .ok columns)
    {indexEntries : List Sdi.Index} {indexes : List Index}
    (h : listOfSdi columns indexEntries = .ok indexes) :
    ∀ index ∈ indexes, index.Covers columns := by
  obtain ⟨visible, hvisible, h⟩ := bind_eq_ok.mp h
  cases h
  intro index hindex
  obtain ⟨hmem, hnonempty⟩ := List.mem_filter.mp hindex
  refine ⟨by simpa using hnonempty, ?_⟩
  obtain ⟨entry, -, hentry⟩ := exists_of_mem_mapM hvisible hmem
  obtain ⟨kind, -, hentry⟩ := bind_eq_ok.mp hentry
  obtain ⟨elements, helements, hentry⟩ := bind_eq_ok.mp hentry
  cases hentry
  intro e he
  obtain ⟨element, -, helement⟩ := exists_of_mem_mapM helements he
  obtain ⟨c, hc, helement⟩ := bind_eq_ok.mp helement
  cases helement
  exact ⟨c, (Column.ordinal_of_columnAt hcolumns hc).1, rfl, rfl⟩

namespace ForeignKey

/-- The table that a foreign key of a table of the schema `own` refers to, by schema and name. -/
def target (own : String) (k : ForeignKey) : String × String :=
  (k.referencedSchema.getD own, k.referencedTable)

end ForeignKey

/-- The table that a dictionary entry refers to; without a schema it is one of the schema `own`. -/
def Sdi.ForeignKey.target (own : String) (key : Sdi.ForeignKey) : String × String :=
  (if key.referencedSchema = "" then own else key.referencedSchema, key.referencedTable)

namespace ForeignKey

/-- A foreign key that says by names what its dictionary entry says by positions and codes. -/
structure Follows (own : String) (columns : List Column) (key : Sdi.ForeignKey)
    (k : ForeignKey) : Prop where
  name : k.name = key.name
  paired : k.localColumns.length = k.referencedColumns.length
  localColumns : List.Forall₂
    (fun e name => ∃ c ∈ columns, c.ordinal.toNat = e.columnPosition.toNat + 1 ∧ c.name = name)
    key.elements k.localColumns
  referencedColumns : k.referencedColumns = key.elements.map (·.referencedColumn)
  target : k.target own = key.target own
  onDelete : ReferentialAction.ofCode? key.deleteRule = some k.onDelete
  onUpdate : ReferentialAction.ofCode? key.updateRule = some k.onUpdate

theorem getD_foreignSchema (own referenced : String) :
    (foreignSchema own referenced).getD own = if referenced = "" then own else referenced := by
  unfold foreignSchema
  by_cases hempty : referenced = ""
  · simp [hempty]
  · by_cases hown : referenced = own <;> simp [hempty, hown]

theorem follows_of_ofSdi {catalog : Collation.Catalog} {entries : List Sdi.Column}
    {columns : List Column} (hcolumns : Column.listOfSdi catalog entries = .ok columns)
    {own : String} {key : Sdi.ForeignKey} {k : ForeignKey} (h : ofSdi own columns key = .ok k) :
    k.Follows own columns key := by
  obtain ⟨names, hnames, h⟩ := bind_eq_ok.mp h
  obtain ⟨onDelete, hdelete, h⟩ := bind_eq_ok.mp h
  obtain ⟨onUpdate, hupdate, h⟩ := bind_eq_ok.mp h
  cases h
  have hlocal := mapM_eq_ok.mp hnames
  refine ⟨rfl, ?_, hlocal.imp fun e name hname => ?_, rfl, ?_, known_eq_ok.mp hdelete,
    known_eq_ok.mp hupdate⟩
  · simp [hlocal.length_eq]
  · unfold localColumn at hname
    cases hat : columnAt columns (.foreignKey key.name) e.columnPosition with
    | error e => simp [hat, Except.map] at hname
    | ok c =>
        rw [hat] at hname
        cases hname
        obtain ⟨hmem, hordinal⟩ := Column.ordinal_of_columnAt hcolumns hat
        exact ⟨c, hmem, hordinal, rfl⟩
  · exact Prod.ext (getD_foreignSchema own key.referencedSchema) rfl

end ForeignKey

/-- The dictionary entry that a definition with some subpartitions stands for. -/
def PartitionSpec.toEntry (spec : PartitionSpec) (subpartitions : List Sdi.Partition) :
    Sdi.Partition where
  name := spec.name
  description := spec.values
  engine := spec.engine
  comment := spec.comment
  subpartitions

/-- The dictionary entry that a partition stands for, with its subpartitions. -/
def Partition.toEntry (p : Partition) : Sdi.Partition :=
  p.toPartitionSpec.toEntry (p.subpartitions.map (·.toEntry []))

/-- A flat entry is read without loss. -/
theorem Partition.toEntry_ofEntry {entry : Sdi.Partition} (h : entry.IsFlat) :
    (ofEntry entry).toEntry = entry := by
  have hleaf : ∀ s ∈ entry.subpartitions, (PartitionSpec.ofEntry s).toEntry [] = s := by
    intro s hs
    have hnil : s.subpartitions = [] := h s hs
    cases s
    cases hnil
    rfl
  have hsub : (entry.subpartitions.map PartitionSpec.ofEntry).map (·.toEntry []) =
      entry.subpartitions := by
    rw [List.map_map]
    exact (List.map_congr_left hleaf).trans (List.map_id' _)
  cases entry
  exact congrArg _ hsub

namespace Partitioning

/-- A partitioning that says what a dictionary record says. Without a method it has nothing;
otherwise its partitions are the tree of the document, and with a method for subpartitions whose
number alone is written that number is the same everywhere. -/
structure Follows (table : Sdi.Table) (p : Partitioning) : Prop where
  method : PartitionMethod.ofCode? table.partitionType = some p.method
  subMethod : PartitionMethod.ofSubCode? table.subpartitionType = some p.subMethod
  subMethod_only : p.subMethod.isSome = true → p.method.isSome = true
  unpartitioned : p.method = none → p.partitions = []
  mirrored : p.method.isSome = true → p.partitions.map Partition.toEntry = table.partitions
  flat : p.method.isSome = true → ∀ entry ∈ table.partitions, entry.IsFlat
  undivided : p.subMethod = none → ∀ q ∈ p.partitions, q.subpartitions = []
  counted : p.subMethod.isSome = true → p.explicitSubpartitions = false →
    ∃ count, 0 < count ∧ ∀ q ∈ p.partitions, q.subpartitions.length = count

theorem follows_of_ofSdi {table : Sdi.Table} {p : Partitioning} (h : ofSdi table = .ok p) :
    p.Follows table := by
  obtain ⟨method, subMethod, hmethod, hsub, hp⟩ := ofSdi_eq_ok.mp h
  cases method with
  | none =>
      obtain ⟨rfl, rfl⟩ := hp
      exact ⟨hmethod, hsub, nofun, fun _ => rfl, nofun, nofun, fun _ => nofun, nofun⟩
  | some method =>
      obtain ⟨hdivided, rfl⟩ := hp
      have hmirrored : (table.partitions.map Partition.ofEntry).map Partition.toEntry =
          table.partitions := by
        rw [List.map_map]
        exact (List.map_congr_left fun entry hentry =>
          Partition.toEntry_ofEntry (hdivided.flat entry hentry)).trans (List.map_id' _)
      refine ⟨hmethod, hsub, fun _ => rfl, nofun, fun _ => hmirrored, fun _ => hdivided.flat,
        ?_, ?_⟩
      · rintro rfl q hq
        obtain ⟨entry, hentry, rfl⟩ := List.mem_map.mp hq
        have hnil := hdivided.undivided (PartitionMethod.ofSubCode?_eq_none.mp hsub) entry hentry
        simp [Partition.ofEntry, hnil]
      · intro hsome hcounted
        have hcode : table.subpartitionType ≠ 0 := by
          intro hzero
          rw [PartitionMethod.ofSubCode?_eq_none.mpr hzero] at hsub
          cases hsub
          cases hsome
        have hflag : table.defaultSubpartitioning ≠ 1 := by
          simpa [ofEntries, explicitFlag] using hcounted
        obtain ⟨count, hpositive, hall⟩ := hdivided.counted hcode hflag
        refine ⟨count, hpositive, fun q hq => ?_⟩
        obtain ⟨entry, hentry, rfl⟩ := List.mem_map.mp hq
        simpa [Partition.ofEntry] using hall entry hentry

end Partitioning

namespace TableDefinition

theorem Layout.ofSdi_eq_ok {catalog : Collation.Catalog} {table : Sdi.Table} {layout : Layout} :
    ofSdi catalog table = .ok layout ↔
      Column.listOfSdi catalog table.columns = .ok layout.columns ∧
        Index.listOfSdi layout.columns table.indexes = .ok layout.indexes ∧
        ForeignKey.listOfSdi table.schema layout.columns table.foreignKeys =
          .ok layout.foreignKeys ∧
        Partitioning.ofSdi table = .ok layout.partitioning := by
  unfold ofSdi
  simp only [bind_eq_ok]
  constructor
  · rintro ⟨columns, hcolumns, indexes, hindexes, keys, hkeys, partitioning, hpartitioning, h⟩
    cases h
    exact ⟨hcolumns, hindexes, hkeys, hpartitioning⟩
  · rintro ⟨hcolumns, hindexes, hkeys, hpartitioning⟩
    exact ⟨_, hcolumns, _, hindexes, _, hkeys, _, hpartitioning, rfl⟩

/-- A definition that agrees with its dictionary record and with itself. -/
structure Consistent (catalog : Collation.Catalog) (table : Sdi.Table)
    (t : TableDefinition) : Prop where
  schema : t.schema = table.schema
  name : t.name = table.name
  collation : t.collation ∈ catalog.entries ∧ t.collation.id = table.collationId
  ordinals : ∀ i (hi : i < t.columns.length), t.columns[i].ordinal.toNat = i + 1
  columns : ∃ read, (Sdi.ownColumns table.columns).mapM (Column.ofSdi catalog) = .ok read ∧
    t.columns.Perm read
  collations : ∀ c ∈ t.columns, c.Resolved catalog
  indexes : ∀ index ∈ t.indexes, index.Covers t.columns
  foreignKeys : List.Forall₂ (ForeignKey.Follows t.schema t.columns) table.foreignKeys t.foreignKeys
  partitioning : t.partitioning.Follows table

/-- A definition that can be put together is consistent. -/
theorem consistent_of_ofSdi {catalog : Collation.Catalog} {table : Sdi.Table}
    {t : TableDefinition} (h : ofSdi catalog table = .ok t) : t.Consistent catalog table := by
  obtain ⟨layout, hlayout, h⟩ := bind_eq_ok.mp h
  obtain ⟨⟨rowFormat, collation⟩, hstorage, h⟩ := bind_eq_ok.mp h
  cases h
  obtain ⟨_, -, hstorage⟩ := bind_eq_ok.mp hstorage
  obtain ⟨_, hcollation, hstorage⟩ := bind_eq_ok.mp hstorage
  cases hstorage
  obtain ⟨hcolumns, hindexes, hkeys, hpartitioning⟩ := Layout.ofSdi_eq_ok.mp hlayout
  obtain ⟨-, read, hread, hperm⟩ := Column.listOfSdi_eq_ok_iff_perm.mp hcolumns
  refine
    { schema := rfl
      name := rfl
      collation := Collation.Catalog.mem_of_lookup? (Column.findCollation_eq_ok.mp hcollation)
      ordinals := fun i hi => Column.ordinal_getElem_of_listOfSdi hcolumns hi
      columns := ⟨read, hread, hperm⟩
      collations := fun c hc => ?_
      indexes := Index.covers_of_listOfSdi hcolumns hindexes
      foreignKeys := (mapM_eq_ok.mp hkeys).imp fun _ _ hk => ForeignKey.follows_of_ofSdi hcolumns hk
      partitioning := Partitioning.follows_of_ofSdi hpartitioning }
  obtain ⟨entry, -, hentry⟩ := exists_of_mem_mapM hread (hperm.mem_iff.mp hc)
  exact Column.resolved_of_ofSdi hentry

end TableDefinition

/-- A dictionary column of which nothing matters but its type and its place. -/
def Sdi.Column.plain (name columnType : String) (ordinalPosition hidden : UInt32) :
    Sdi.Column where
  name
  columnType
  ordinalPosition
  hidden
  isNullable := true
  isZerofill := false
  isUnsigned := false
  isAutoIncrement := false
  isVirtual := false
  hasNoDefault := true
  defaultIsNull := false
  defaultHasNoText := false
  defaultText := ""
  generationExpression := ""
  collationId := 45
  comment := ""

/-- What `Sdi.Column.plain` is read as. -/
def Column.plain (name rawType : String) (baseType : DataType) (ordinal : UInt32)
    (collation : Option Collation) : Column where
  name
  rawType
  baseType
  ordinal
  isNullable := true
  isUnsigned := false
  isZerofill := false
  isAutoIncrement := false
  isVirtual := false
  default := none
  collationId := 45
  collation
  generationExpression := none
  comment := ""

def Collation.general : Collation :=
  ⟨45, "utf8mb4_general_ci", "utf8mb4", 4⟩

/-- A table whose columns stand out of order, with a column of the storage engine and hidden
entries that could not be read. -/
def Sdi.Table.orderLines : Sdi.Table where
  name := "lines"
  schema := "shop"
  engine := "InnoDB"
  collationId := 45
  rowFormat := 2
  options := ""
  privateData := ""
  columns := [.plain "note" "varchar(9)" 2 1, .plain "DB_ROW_ID" "" 1 2, .plain "id" "int" 1 1]
  indexes := [⟨"PRIMARY", 1, false, [⟨1, 36, false⟩, ⟨9, 4, true⟩]⟩, ⟨"spare", 9, true, []⟩]
  foreignKeys := [⟨"fk", "orders", "", 3, 1, [⟨1, "note"⟩, ⟨0, "id"⟩]⟩]
  partitionType := 1
  partitionExpression := "id"
  defaultPartitioning := 1
  subpartitionType := 0
  subpartitionExpression := ""
  defaultSubpartitioning := 0
  partitions := [⟨"p0", "", "InnoDB", "", []⟩]

namespace TableDefinition

def orderLines : TableDefinition where
  schema := "shop"
  name := "lines"
  engine := "InnoDB"
  rowFormat := .dynamic
  collationId := 45
  collation := .general
  autoIncrement := none
  columns := [.plain "id" "int" .int 1 none, .plain "note" "varchar(9)" .varChar 2 (some .general)]
  indexes := [⟨"PRIMARY", .primary, [⟨2, "note", 36, some 9⟩]⟩]
  partitioning := ⟨some .hash, "id", true, none, "", false, [⟨⟨"p0", "", "InnoDB", ""⟩, []⟩]⟩
  foreignKeys := [⟨"fk", ["note", "id"], none, "orders", ["note", "id"], .cascade, .noAction⟩]
  options := {}

theorem columns_orderLines :
    Column.listOfSdi (.ofList [.general]) Sdi.Table.orderLines.columns = .ok orderLines.columns :=
  Column.listOfSdi_eq_ok_iff_perm.mpr ⟨by decide, orderLines.columns.reverse, rfl, by decide⟩

theorem ofSdi_orderLines : ofSdi (.ofList [.general]) .orderLines = .ok orderLines := by
  have hlayout : Layout.ofSdi (.ofList [.general]) .orderLines =
      .ok ⟨orderLines.columns, orderLines.indexes, orderLines.foreignKeys,
        orderLines.partitioning⟩ :=
    Layout.ofSdi_eq_ok.mpr ⟨columns_orderLines, rfl, rfl, rfl⟩
  unfold ofSdi
  rw [hlayout]
  rfl

theorem consistent_orderLines :
    ofSdi (.ofList [.general]) .orderLines = .ok orderLines ∧
      orderLines.Consistent (.ofList [.general]) .orderLines :=
  ⟨ofSdi_orderLines, consistent_of_ofSdi ofSdi_orderLines⟩

end TableDefinition

end DictionaryDdl
