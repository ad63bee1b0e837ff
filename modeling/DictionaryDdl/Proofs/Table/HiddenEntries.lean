import DictionaryDdl.Proofs.Table.Consistency

/-!
What the statements of a table do not depend on: the entries of its record that are hidden,
whatever else is wrong with them, and the order in which the record lists the columns. Only the
choice among several faults can depend on that order, so a record that fails still fails.
-/

namespace DictionaryDdl

namespace Sdi

/-- An index without its hidden elements. -/
def Index.shown (index : Index) : Index :=
  { index with elements := index.elements.filter (!·.hidden) }

/-- A record without the columns that the storage engine adds, the hidden indexes and the hidden
elements of the others. -/
def Table.shown (table : Table) : Table :=
  { table with
    columns := ownColumns table.columns
    indexes := (table.indexes.filter (!·.hidden)).map Index.shown }

end Sdi

namespace Column

theorem listOfSdi_ownColumns (catalog : Collation.Catalog) (entries : List Sdi.Column) :
    listOfSdi catalog (Sdi.ownColumns entries) = listOfSdi catalog entries := by
  have hsame : (Sdi.ownColumns entries).filter (!isEngineColumn ·) =
      entries.filter (!isEngineColumn ·) := by
    unfold Sdi.ownColumns
    rw [List.filter_filter]
    exact List.filter_congr fun c _ => Bool.and_self _
  unfold listOfSdi
  rw [hsame]

/-- A record with its columns in another order has the same columns or fails as well. -/
theorem listOfSdi_eq_ok_of_perm {catalog : Collation.Catalog} {entries entries' : List Sdi.Column}
    (hperm : entries'.Perm entries) {columns : List Column} :
    listOfSdi catalog entries' = .ok columns ↔ listOfSdi catalog entries = .ok columns := by
  have hforward {xs ys : List Sdi.Column} (hxy : ys.Perm xs)
      (h : listOfSdi catalog xs = .ok columns) : listOfSdi catalog ys = .ok columns := by
    obtain ⟨hcount, read, hread, hcolumns⟩ := listOfSdi_eq_ok_iff_perm.mp h
    obtain ⟨read', hread', hreads⟩ := exists_perm_mapM (hxy.filter _) hread
    exact listOfSdi_eq_ok_iff_perm.mpr ⟨hcount, read', hread', hcolumns.trans hreads.symm⟩
  exact ⟨hforward hperm.symm, hforward hperm⟩

end Column

namespace Index

theorem ofSdi_shown (columns : List Column) (index : Sdi.Index) :
    ofSdi columns index.shown = ofSdi columns index := by
  unfold ofSdi Sdi.Index.shown
  simp only [List.filter_filter, Bool.and_self]

theorem listOfSdi_shown (columns : List Column) (indexes : List Sdi.Index) :
    listOfSdi columns ((indexes.filter (!·.hidden)).map Sdi.Index.shown) =
      listOfSdi columns indexes := by
  have hvisible : ((indexes.filter (!·.hidden)).map Sdi.Index.shown).filter (!·.hidden) =
      (indexes.filter (!·.hidden)).map Sdi.Index.shown := by
    rw [List.filter_eq_self]
    intro index hindex
    obtain ⟨entry, hentry, rfl⟩ := List.mem_map.mp hindex
    exact (List.mem_filter.mp hentry).2
  unfold listOfSdi
  rw [hvisible, List.mapM_map]
  simp only [Function.comp_def, ofSdi_shown]

end Index

namespace TableDefinition

theorem ofSdi_shown (catalog : Collation.Catalog) (table : Sdi.Table) :
    ofSdi catalog table.shown = ofSdi catalog table := by
  have hlayout : Layout.ofSdi catalog table.shown = Layout.ofSdi catalog table := by
    unfold Layout.ofSdi Sdi.Table.shown
    simp only [Column.listOfSdi_ownColumns, Index.listOfSdi_shown]
    rfl
  unfold ofSdi
  rw [hlayout]
  rfl

theorem ofSdi_eq_ok_of_perm {catalog : Collation.Catalog} {table : Sdi.Table}
    {columns : List Sdi.Column} (hperm : columns.Perm table.columns) {t : TableDefinition} :
    ofSdi catalog { table with columns } = .ok t ↔ ofSdi catalog table = .ok t := by
  have hlayout (layout : Layout) : Layout.ofSdi catalog { table with columns } = .ok layout ↔
      Layout.ofSdi catalog table = .ok layout := by
    rw [Layout.ofSdi_eq_ok, Layout.ofSdi_eq_ok, Column.listOfSdi_eq_ok_of_perm hperm]
    rfl
  unfold ofSdi
  simp only [bind_eq_ok, hlayout]
  rfl

end TableDefinition

namespace CompiledTable

/-- Hidden entries do not change the result of compiling a record, be it a table or a fault, and
the order of the columns changes neither a table nor that there is none. -/
theorem ofSdi_shown_and_perm {catalog : Collation.Catalog} {table : Sdi.Table}
    {columns : List Sdi.Column} (hperm : columns.Perm table.columns) :
    ofSdi catalog table.shown = ofSdi catalog table ∧
      (ofSdi catalog { table with columns }).toOption = (ofSdi catalog table).toOption := by
  have hdefinition : (TableDefinition.ofSdi catalog { table with columns }).toOption =
      (TableDefinition.ofSdi catalog table).toOption :=
    toOption_eq_of_ok_iff fun t => TableDefinition.ofSdi_eq_ok_of_perm hperm
  unfold ofSdi
  rw [TableDefinition.ofSdi_shown, toOption_map, toOption_map, hdefinition]
  exact ⟨rfl, rfl⟩

theorem ofSdi_shown_and_perm_orderLines :
    Sdi.Table.orderLines.columns.reverse.Perm Sdi.Table.orderLines.columns ∧
      ofSdi (.ofList [.general]) Sdi.Table.orderLines.shown = .ok (ofDefinition .orderLines) ∧
      (ofSdi (.ofList [.general])
        { Sdi.Table.orderLines with columns := Sdi.Table.orderLines.columns.reverse }).toOption =
          some (ofDefinition .orderLines) := by
  have hperm := List.reverse_perm Sdi.Table.orderLines.columns
  have hcompiled : ofSdi (.ofList [.general]) .orderLines = .ok (ofDefinition .orderLines) := by
    unfold ofSdi
    rw [TableDefinition.ofSdi_orderLines]
    rfl
  exact ⟨hperm, (ofSdi_shown_and_perm hperm).1.trans hcompiled,
    (ofSdi_shown_and_perm hperm).2.trans (congrArg Except.toOption hcompiled)⟩

end CompiledTable

end DictionaryDdl
