import DictionaryDdl.Proofs.Table.Columns
import DictionaryDdl.Proofs.Table.Partitions
import DictionaryDdl.Table.Compiled

/-!
The tables that compile. The condition is one on the dictionary record alone, apart from the
collations that the catalogue has; it says nothing of the steps in which a table is put together.
Every part of it is needed, and nothing else can stop a table from being compiled.
-/

namespace DictionaryDdl

theorem succeeds_columnAt {columns : List Column} {user : ColumnUser} {position : UInt32} :
    Succeeds (columnAt columns user position) ↔ position.toNat < columns.length := by
  unfold columnAt
  split
  · next column hcolumn =>
      obtain ⟨hlt, -⟩ := List.getElem?_eq_some_iff.mp hcolumn
      simp [hlt]
  · next hnone =>
      have hle := List.getElem?_eq_none_iff.mp hnone
      simp only [not_succeeds_error, false_iff]
      omega

/-- An index that can be read against some number of columns: its kind is known and its elements
that are not hidden lie on columns. -/
def Sdi.Index.Readable (index : Sdi.Index) (columns : Nat) : Prop :=
  (1 ≤ index.kindCode ∧ index.kindCode ≤ 5) ∧
    ∀ e ∈ index.elements, e.hidden = false → e.columnPosition.toNat < columns

theorem Index.succeeds_ofSdi {columns : List Column} {index : Sdi.Index} :
    Succeeds (ofSdi columns index) ↔ index.Readable columns.length := by
  have helement (e : Sdi.IndexElement) :
      Succeeds (elementOfSdi columns index.name e) ↔
        e.columnPosition.toNat < columns.length := by
    unfold elementOfSdi
    rw [succeeds_bind_pure, succeeds_columnAt]
  have helements : Succeeds ((index.elements.filter (!·.hidden)).mapM
      (elementOfSdi columns index.name)) ↔
        ∀ e ∈ index.elements, e.hidden = false → e.columnPosition.toNat < columns.length := by
    simp [succeeds_mapM, helement, List.mem_filter]
  unfold ofSdi
  rw [succeeds_bind_and fun kind => succeeds_bind_pure, helements, IndexKind.succeeds_ofCode]
  rfl

theorem Index.succeeds_listOfSdi {columns : List Column} {indexes : List Sdi.Index} :
    Succeeds (listOfSdi columns indexes) ↔
      ∀ i ∈ indexes, i.hidden = false → i.Readable columns.length := by
  unfold listOfSdi
  rw [succeeds_bind_pure, succeeds_mapM]
  simp [Index.succeeds_ofSdi, List.mem_filter]

/-- A foreign key that can be read against some number of columns. -/
def Sdi.ForeignKey.Readable (key : Sdi.ForeignKey) (columns : Nat) : Prop :=
  (1 ≤ key.deleteRule ∧ key.deleteRule ≤ 5) ∧ (1 ≤ key.updateRule ∧ key.updateRule ≤ 5) ∧
    ∀ e ∈ key.elements, e.columnPosition.toNat < columns

theorem ForeignKey.succeeds_ofSdi {schema : String} {columns : List Column}
    {key : Sdi.ForeignKey} :
    Succeeds (ofSdi schema columns key) ↔ key.Readable columns.length := by
  have hcolumns : Succeeds (key.elements.mapM (localColumn columns key.name)) ↔
      ∀ e ∈ key.elements, e.columnPosition.toNat < columns.length := by
    simp [succeeds_mapM, localColumn, succeeds_columnAt]
  unfold ofSdi
  rw [succeeds_bind_and fun names => succeeds_bind_and fun onDelete => succeeds_bind_pure,
    hcolumns, ReferentialAction.succeeds_ofCode, ReferentialAction.succeeds_ofCode]
  unfold Sdi.ForeignKey.Readable
  tauto

theorem ForeignKey.succeeds_listOfSdi {schema : String} {columns : List Column}
    {keys : List Sdi.ForeignKey} :
    Succeeds (listOfSdi schema columns keys) ↔ ∀ k ∈ keys, k.Readable columns.length := by
  unfold listOfSdi
  simp only [succeeds_mapM, ForeignKey.succeeds_ofSdi]

/-- The partitions of a table can be read if its codes are known and, unless the table is not
divided at all, its partitions are what the codes say. -/
theorem Partitioning.succeeds_ofSdi {table : Sdi.Table} :
    Succeeds (ofSdi table) ↔
      table.partitionType ≤ 10 ∧ table.subpartitionType ≤ 6 ∧
        if table.partitionType = 0 then table.subpartitionType = 0 else table.Divided := by
  have hzero {method : Option PartitionMethod}
      (hmethod : PartitionMethod.ofCode? table.partitionType = some method) :
      table.partitionType = 0 ↔ method = none := by
    rw [← PartitionMethod.ofCode?_eq_none, hmethod, Option.some.injEq]
  have hsubZero {subMethod : Option PartitionMethod}
      (hsub : PartitionMethod.ofSubCode? table.subpartitionType = some subMethod) :
      table.subpartitionType = 0 ↔ subMethod = none := by
    rw [← PartitionMethod.ofSubCode?_eq_none, hsub, Option.some.injEq]
  rw [← PartitionMethod.isSome_ofCode?, ← PartitionMethod.isSome_ofSubCode?]
  constructor
  · rintro ⟨p, hp⟩
    obtain ⟨method, subMethod, hmethod, hsub, hp⟩ := ofSdi_eq_ok.mp hp
    refine ⟨by simp [hmethod], by simp [hsub], ?_⟩
    cases method with
    | none => rw [if_pos ((hzero hmethod).mpr rfl), hsubZero hsub]; exact hp.1
    | some method => rw [if_neg (by simp [hzero hmethod])]; exact hp.1
  · rintro ⟨hmethod, hsub, hrest⟩
    obtain ⟨method, hmethod⟩ := Option.isSome_iff_exists.mp hmethod
    obtain ⟨subMethod, hsub⟩ := Option.isSome_iff_exists.mp hsub
    cases method with
    | none =>
        rw [if_pos ((hzero hmethod).mpr rfl), hsubZero hsub] at hrest
        exact ⟨{}, ofSdi_eq_ok.mpr ⟨none, subMethod, hmethod, hsub, hrest, rfl⟩⟩
    | some method =>
        rw [if_neg (by simp [hzero hmethod])] at hrest
        exact ⟨_, ofSdi_eq_ok.mpr ⟨some method, subMethod, hmethod, hsub, hrest, rfl⟩⟩

/-- What a dictionary record has to be like for its table to compile. The number of columns is
the one without the columns that the storage engine adds. -/
structure Sdi.Table.Acceptable (table : Sdi.Table) (catalog : Collation.Catalog) : Prop where
  collations : ∀ c ∈ Sdi.ownColumns table.columns,
    (DataType.ofTypeText c.columnType).isString = true → catalog.Has c.collationId
  positions : ((Sdi.ownColumns table.columns).map (·.ordinalPosition.toNat)).Perm
    (List.range' 1 (Sdi.ownColumns table.columns).length)
  indexes : ∀ i ∈ table.indexes, i.hidden = false →
    i.Readable (Sdi.ownColumns table.columns).length
  foreignKeys : ∀ k ∈ table.foreignKeys, k.Readable (Sdi.ownColumns table.columns).length
  partitionType : table.partitionType ≤ 10
  subpartitionType : table.subpartitionType ≤ 6
  partitions : if table.partitionType = 0 then table.subpartitionType = 0 else table.Divided
  rowFormat : 1 ≤ table.rowFormat ∧ table.rowFormat ≤ 6
  collation : catalog.Has table.collationId

namespace TableDefinition

theorem succeeds_layout {catalog : Collation.Catalog} {table : Sdi.Table} :
    Succeeds (Layout.ofSdi catalog table) ↔
      Succeeds (Column.listOfSdi catalog table.columns) ∧
        (∀ i ∈ table.indexes, i.hidden = false →
          i.Readable (Sdi.ownColumns table.columns).length) ∧
        (∀ k ∈ table.foreignKeys, k.Readable (Sdi.ownColumns table.columns).length) ∧
        Succeeds (Partitioning.ofSdi table) := by
  have hrest {columns : List Column}
      (hcolumns : Column.listOfSdi catalog table.columns = .ok columns) :
      (Succeeds (do
        let indexes ← Index.listOfSdi columns table.indexes
        let foreignKeys ← ForeignKey.listOfSdi table.schema columns table.foreignKeys
        let partitioning ← Partitioning.ofSdi table
        return ({ columns, indexes, foreignKeys, partitioning } : Layout) :
          Except DecodeError Layout)) ↔
        (∀ i ∈ table.indexes, i.hidden = false →
          i.Readable (Sdi.ownColumns table.columns).length) ∧
        (∀ k ∈ table.foreignKeys, k.Readable (Sdi.ownColumns table.columns).length) ∧
        Succeeds (Partitioning.ofSdi table) := by
    rw [succeeds_bind_and fun indexes => succeeds_bind_and fun keys => succeeds_bind_pure,
      Index.succeeds_listOfSdi, ForeignKey.succeeds_listOfSdi,
      Column.length_of_listOfSdi hcolumns]
  unfold Layout.ofSdi
  rw [succeeds_bind]
  constructor
  · rintro ⟨columns, hcolumns, h⟩
    exact ⟨⟨columns, hcolumns⟩, (hrest hcolumns).mp h⟩
  · rintro ⟨⟨columns, hcolumns⟩, h⟩
    exact ⟨columns, hcolumns, (hrest hcolumns).mpr h⟩

theorem succeeds_ofSdi {catalog : Collation.Catalog} {table : Sdi.Table} :
    Succeeds (ofSdi catalog table) ↔ table.Acceptable catalog := by
  have hstorage : Succeeds (storageOf catalog table) ↔
      (1 ≤ table.rowFormat ∧ table.rowFormat ≤ 6) ∧ catalog.Has table.collationId := by
    unfold storageOf
    rw [succeeds_bind_and fun rowFormat => succeeds_bind_pure, RowFormat.succeeds_ofCode,
      Column.succeeds_findCollation]
  unfold ofSdi
  rw [succeeds_bind_and fun layout => succeeds_bind_pure, succeeds_layout, hstorage,
    Column.succeeds_listOfSdi, Partitioning.succeeds_ofSdi]
  constructor
  · rintro ⟨⟨⟨hcollations, hpositions⟩, hindexes, hkeys, htype, hsubtype, hpartitions⟩,
      hrowFormat, hcollation⟩
    exact ⟨hcollations, hpositions, hindexes, hkeys, htype, hsubtype, hpartitions, hrowFormat,
      hcollation⟩
  · intro h
    exact ⟨⟨⟨h.collations, h.positions⟩, h.indexes, h.foreignKeys, h.partitionType,
      h.subpartitionType, h.partitions⟩, h.rowFormat, h.collation⟩

end TableDefinition

/-- A table compiles exactly if its dictionary record is acceptable. -/
theorem CompiledTable.exists_ofSdi_iff (catalog : Collation.Catalog) (table : Sdi.Table) :
    (∃ compiled, ofSdi catalog table = .ok compiled) ↔ table.Acceptable catalog := by
  have h : Succeeds (ofSdi catalog table) ↔ Succeeds (TableDefinition.ofSdi catalog table) := by
    unfold ofSdi
    exact succeeds_map
  exact h.trans TableDefinition.succeeds_ofSdi

end DictionaryDdl
