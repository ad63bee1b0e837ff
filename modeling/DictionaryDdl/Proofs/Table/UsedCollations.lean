import DictionaryDdl.Proofs.Table.Acceptance
import DictionaryDdl.Proofs.Table.Consistency

/-!
What the statements of a table depend on in a catalogue: the entries for the collation of the table
and for those of its own columns that hold strings. Two catalogues that find the same there, or
both nothing, lead to the same statements or to the same fault, so a catalogue may grow without
changing a table that compiles. The numbers of the other columns are not looked at, whatever they
are.
-/

namespace DictionaryDdl

variable {catalog other : Collation.Catalog}

namespace Sdi

/-- Whether the collation of a column is looked up: the storage engine did not add the column, and
the column holds strings. -/
def Column.usesCollation (c : Column) : Bool :=
  c.hidden != hiddenByEngine && (DataType.ofTypeText c.columnType).isString

/-- A column without the number of a collation that is not looked up. -/
def Column.withoutUnused (c : Column) : Column :=
  if c.usesCollation then c else { c with collationId := 0 }

/-- The numbers of the collations that a record refers to. -/
def Table.usedCollations (table : Table) : List UInt32 :=
  table.collationId :: (table.columns.filter Column.usesCollation).map (·.collationId)

/-- A record without the numbers of collations that are not looked up. -/
def Table.withoutUnused (table : Table) : Table :=
  { table with columns := table.columns.map Column.withoutUnused }

theorem Table.mem_usedCollations {table : Table} {c : Column} (hc : c ∈ ownColumns table.columns)
    (hstring : (DataType.ofTypeText c.columnType).isString = true) :
    c.collationId ∈ table.usedCollations := by
  obtain ⟨hmem, hown⟩ := List.mem_filter.mp hc
  have huses : c.usesCollation = true := by
    rw [Column.usesCollation, hown, hstring]
    rfl
  apply List.mem_cons_of_mem
  exact List.mem_map_of_mem (List.mem_filter.mpr ⟨hmem, huses⟩)

/-- The number is all that changes, and only where it is not looked up. -/
theorem ownColumns_withoutUnused (columns : List Column) :
    ownColumns (columns.map Column.withoutUnused) =
      (ownColumns columns).map Column.withoutUnused := by
  have hhidden (c : Column) : c.withoutUnused.hidden = c.hidden := by
    unfold Column.withoutUnused
    split
    · rfl
    · rfl
  unfold ownColumns
  rw [List.filter_map]
  congr 1
  apply List.filter_congr
  intro c _
  rw [Function.comp_apply, hhidden]

end Sdi

/-! ### Catalogues that agree -/

namespace Column

theorem findCollation_congr {id : UInt32} (h : catalog.lookup? id = other.lookup? id) :
    findCollation catalog id = findCollation other id := by
  unfold findCollation
  rw [h]

theorem ofSdi_congr {c : Sdi.Column} (h : (DataType.ofTypeText c.columnType).isString = true →
      catalog.lookup? c.collationId = other.lookup? c.collationId) :
    ofSdi catalog c = ofSdi other c := by
  have hcollation : collationOf catalog c = collationOf other c := by
    unfold collationOf
    split
    · next hstring => rw [findCollation_congr (h hstring)]
    · rfl
  unfold ofSdi
  rw [hcollation]

theorem listOfSdi_congr {entries : List Sdi.Column} (h : ∀ c ∈ Sdi.ownColumns entries,
      (DataType.ofTypeText c.columnType).isString = true →
        catalog.lookup? c.collationId = other.lookup? c.collationId) :
    listOfSdi catalog entries = listOfSdi other entries := by
  have hread : (entries.filter (!isEngineColumn ·)).mapM (ofSdi catalog) =
      (entries.filter (!isEngineColumn ·)).mapM (ofSdi other) :=
    mapM_congr fun c hc => ofSdi_congr (h c hc)
  unfold listOfSdi
  rw [hread]

end Column

theorem TableDefinition.ofSdi_congr {table : Sdi.Table}
    (h : ∀ id ∈ table.usedCollations, catalog.lookup? id = other.lookup? id) :
    ofSdi catalog table = ofSdi other table := by
  have hcolumns : Column.listOfSdi catalog table.columns = Column.listOfSdi other table.columns :=
    Column.listOfSdi_congr fun c hc hstring => h _ (Sdi.Table.mem_usedCollations hc hstring)
  have hlayout : Layout.ofSdi catalog table = Layout.ofSdi other table := by
    unfold Layout.ofSdi
    rw [hcolumns]
  have hstorage : storageOf catalog table = storageOf other table := by
    unfold storageOf
    rw [Column.findCollation_congr (h _ List.mem_cons_self)]
  unfold ofSdi
  rw [hlayout, hstorage]

/-- A table that compiles has all its collations in the catalogue. -/
theorem TableDefinition.isSome_lookup?_of_ofSdi {table : Sdi.Table} {t : TableDefinition}
    (h : ofSdi catalog table = .ok t) :
    ∀ id ∈ table.usedCollations, (catalog.lookup? id).isSome = true := by
  have haccepted := succeeds_ofSdi.mp ⟨t, h⟩
  have hfind {id : UInt32} (hhas : catalog.Has id) : (catalog.lookup? id).isSome = true := by
    obtain ⟨c, hc⟩ := Column.succeeds_findCollation.mpr hhas
    rw [Column.findCollation_eq_ok.mp hc, Option.isSome_some]
  intro id hid
  rcases List.mem_cons.mp hid with rfl | hid
  · exact hfind haccepted.collation
  · obtain ⟨c, hc, rfl⟩ := List.mem_map.mp hid
    obtain ⟨hmem, huses⟩ := List.mem_filter.mp hc
    rw [Sdi.Column.usesCollation, Bool.and_eq_true] at huses
    exact hfind (haccepted.collations c (List.mem_filter.mpr ⟨hmem, huses.1⟩) huses.2)

/-! ### Numbers that are not looked up -/

namespace Column

/-- A column without the number of a collation that it does not have. -/
def withoutUnused (c : Column) : Column :=
  if c.collation.isSome then c else { c with collationId := 0 }

theorem name_withoutUnused (c : Column) : c.withoutUnused.name = c.name := by
  unfold withoutUnused
  split
  · rfl
  · rfl

theorem ordinal_withoutUnused (c : Column) : c.withoutUnused.ordinal = c.ordinal := by
  unfold withoutUnused
  split
  · rfl
  · rfl

theorem collation_withoutUnused (c : Column) : c.withoutUnused.collation = c.collation := by
  unfold withoutUnused
  split
  · rfl
  · rfl

theorem sql_withoutUnused (c : Column) : c.withoutUnused.sql = c.sql := by
  unfold withoutUnused
  split
  · rfl
  · rfl

theorem ofSdi_withoutUnused {c : Sdi.Column} (hown : c.hidden ≠ Sdi.hiddenByEngine) :
    ofSdi catalog c.withoutUnused = withoutUnused <$> ofSdi catalog c := by
  cases hstring : (DataType.ofTypeText c.columnType).isString with
  | true =>
      have huses : c.usesCollation = true := by
        rw [Sdi.Column.usesCollation, hstring, Bool.and_true]
        exact bne_iff_ne.mpr hown
      rw [Sdi.Column.withoutUnused, if_pos huses]
      unfold ofSdi collationOf
      rw [if_pos hstring]
      cases findCollation catalog c.collationId with
      | error e => rfl
      | ok collation => rfl
  | false =>
      have huses : ¬ c.usesCollation = true := by
        rw [Sdi.Column.usesCollation, hstring, Bool.and_false]
        exact Bool.false_ne_true
      have hnone (id : UInt32) : collationOf catalog { c with collationId := id } = .ok none :=
        if_neg (by simpa using hstring)
      have hunused : collationOf catalog c = .ok none := hnone c.collationId
      have hdefault : defaultOf { c with collationId := 0 } = defaultOf c := rfl
      rw [Sdi.Column.withoutUnused, if_neg huses]
      simp only [ofSdi, hnone 0, hunused, hdefault, bind, Except.bind, pure, Except.pure,
        Functor.map, Except.map, withoutUnused, Option.isSome_none, Bool.false_eq_true, if_false]

theorem checkDense_withoutUnused (expected : Nat) (columns : List Column) :
    checkDense expected (columns.map withoutUnused) = checkDense expected columns := by
  induction columns generalizing expected with
  | nil => rfl
  | cons c more ih =>
      rw [List.map_cons, checkDense, checkDense, ordinal_withoutUnused, ih]

theorem sorted_withoutUnused (columns : List Column) :
    sorted (columns.map withoutUnused) = (sorted columns).map withoutUnused := by
  unfold sorted
  symm
  apply List.map_mergeSort
  intro a _ b _
  rw [ordinal_withoutUnused, ordinal_withoutUnused]

theorem listOfSdi_withoutUnused (entries : List Sdi.Column) :
    listOfSdi catalog (entries.map Sdi.Column.withoutUnused) =
      List.map withoutUnused <$> listOfSdi catalog entries := by
  have hread : (Sdi.ownColumns (entries.map Sdi.Column.withoutUnused)).mapM (ofSdi catalog) =
      List.map withoutUnused <$> (Sdi.ownColumns entries).mapM (ofSdi catalog) := by
    rw [Sdi.ownColumns_withoutUnused, List.mapM_map, ← mapM_map_result]
    apply mapM_congr
    intro c hc
    exact ofSdi_withoutUnused (bne_iff_ne.mp (List.mem_filter.mp hc).2)
  change (Sdi.ownColumns _).mapM (ofSdi catalog) >>= _ =
    _ <$> ((Sdi.ownColumns entries).mapM (ofSdi catalog) >>= _)
  rw [hread]
  simp only [map_bind, bind_map_left, sorted_withoutUnused, checkDense_withoutUnused, map_pure]

end Column

theorem columnAt_withoutUnused (columns : List Column) (user : ColumnUser) (position : UInt32) :
    columnAt (columns.map Column.withoutUnused) user position =
      (columnAt columns user position).map Column.withoutUnused := by
  unfold columnAt
  rw [List.getElem?_map]
  cases columns[position.toNat]? with
  | none => rfl
  | some c => rfl

/-- Indexes use the name, the position and the collation of a column, which stay. -/
theorem Index.listOfSdi_withoutUnused (columns : List Column) (indexes : List Sdi.Index) :
    listOfSdi (columns.map Column.withoutUnused) indexes = listOfSdi columns indexes := by
  have helement (name : String) (e : Sdi.IndexElement) :
      elementOfSdi (columns.map Column.withoutUnused) name e = elementOfSdi columns name e := by
    unfold elementOfSdi
    rw [columnAt_withoutUnused]
    cases columnAt columns (.index name) e.columnPosition with
    | error reason => rfl
    | ok c =>
        have hprefix : prefixCharsOf c.withoutUnused e.length = prefixCharsOf c e.length := by
          unfold prefixCharsOf
          rw [c.collation_withoutUnused]
        simp only [Except.map, bind, Except.bind, hprefix, c.ordinal_withoutUnused,
          c.name_withoutUnused]
  have hindex (index : Sdi.Index) :
      ofSdi (columns.map Column.withoutUnused) index = ofSdi columns index := by
    unfold ofSdi
    rw [funext (helement index.name)]
  unfold listOfSdi
  rw [funext hindex]

/-- Foreign keys use the name of a column. -/
theorem ForeignKey.listOfSdi_withoutUnused (schema : String) (columns : List Column)
    (keys : List Sdi.ForeignKey) :
    listOfSdi schema (columns.map Column.withoutUnused) keys = listOfSdi schema columns keys := by
  have hlocal (name : String) (e : Sdi.ForeignKeyElement) :
      localColumn (columns.map Column.withoutUnused) name e = localColumn columns name e := by
    unfold localColumn
    rw [columnAt_withoutUnused]
    cases columnAt columns (.foreignKey name) e.columnPosition with
    | error reason => rfl
    | ok c => exact congrArg Except.ok c.name_withoutUnused
  have hkey (key : Sdi.ForeignKey) :
      ofSdi schema (columns.map Column.withoutUnused) key = ofSdi schema columns key := by
    unfold ofSdi
    rw [funext (hlocal key.name)]
  unfold listOfSdi
  rw [funext hkey]

namespace TableDefinition

/-- A layout whose columns are without the numbers of collations that they do not have. -/
def Layout.withoutUnused (layout : Layout) : Layout :=
  { layout with columns := layout.columns.map Column.withoutUnused }

/-- A definition whose columns are without the numbers of collations that they do not have. -/
def withoutUnused (t : TableDefinition) : TableDefinition :=
  { t with columns := t.columns.map Column.withoutUnused }

theorem Layout.ofSdi_withoutUnused (catalog : Collation.Catalog) (table : Sdi.Table) :
    Layout.ofSdi catalog table.withoutUnused =
      Layout.withoutUnused <$> Layout.ofSdi catalog table := by
  have hcolumns : Column.listOfSdi catalog table.withoutUnused.columns =
      List.map Column.withoutUnused <$> Column.listOfSdi catalog table.columns :=
    Column.listOfSdi_withoutUnused table.columns
  have hpartitioning : Partitioning.ofSdi table.withoutUnused = Partitioning.ofSdi table := rfl
  unfold Layout.ofSdi
  simp only [hcolumns, hpartitioning, map_bind, bind_map_left, Index.listOfSdi_withoutUnused,
    ForeignKey.listOfSdi_withoutUnused, map_pure]
  rfl

theorem ofSdi_withoutUnused (catalog : Collation.Catalog) (table : Sdi.Table) :
    ofSdi catalog table.withoutUnused = withoutUnused <$> ofSdi catalog table := by
  have hstorage : storageOf catalog table.withoutUnused = storageOf catalog table := rfl
  unfold ofSdi
  simp only [Layout.ofSdi_withoutUnused, hstorage, map_bind, bind_map_left, map_pure]
  rfl

theorem createStatement_withoutUnused (t : TableDefinition) :
    t.withoutUnused.createStatement = t.createStatement := by
  have hcolumns : t.withoutUnused.columns.map Column.sql = t.columns.map Column.sql := by
    rw [withoutUnused, List.map_map]
    apply List.map_congr_left
    intro c _
    exact c.sql_withoutUnused
  have hentries : t.withoutUnused.entries = t.entries :=
    congrArg (· ++ t.indexes.map Index.sql) hcolumns
  have hattributes : t.withoutUnused.attributes = t.attributes := rfl
  have hclause : t.withoutUnused.partitionClause = t.partitionClause := rfl
  have hname : t.withoutUnused.name = t.name := rfl
  unfold createStatement
  rw [hentries, hattributes, hclause, hname]

end TableDefinition

namespace CompiledTable

/-- The number of a collation that is not looked up changes neither the statements nor the fault. -/
theorem ofSdi_withoutUnused (catalog : Collation.Catalog) (table : Sdi.Table) :
    ofSdi catalog table.withoutUnused = ofSdi catalog table := by
  unfold ofSdi
  rw [TableDefinition.ofSdi_withoutUnused]
  cases TableDefinition.ofSdi catalog table with
  | error e => rfl
  | ok t =>
      have hkeys : t.withoutUnused.foreignKeyStatement? = t.foreignKeyStatement? := rfl
      have hsame : ofDefinition t.withoutUnused = ofDefinition t := by
        unfold ofDefinition
        rw [t.createStatement_withoutUnused, hkeys, TableDefinition.withoutUnused]
      exact congrArg Except.ok hsame

/-- Of a catalogue, a record is compiled by the entries that it refers to: catalogues that agree on
these lead to the same statements or to the same fault, a catalogue that finds all that another one
finds compiles what the other one compiles, and the numbers that other columns carry are free. -/
theorem ofSdi_by_usedCollations (catalog other : Collation.Catalog) (table : Sdi.Table) :
    ((∀ id ∈ table.usedCollations, catalog.lookup? id = other.lookup? id) →
        ofSdi catalog table = ofSdi other table) ∧
      (∀ compiled, (∀ id c, catalog.lookup? id = some c → other.lookup? id = some c) →
        ofSdi catalog table = .ok compiled → ofSdi other table = .ok compiled) ∧
      ∀ columns, columns.map Sdi.Column.withoutUnused =
          table.columns.map Sdi.Column.withoutUnused →
        ofSdi catalog { table with columns } = ofSdi catalog table := by
  have hagree : (∀ id ∈ table.usedCollations, catalog.lookup? id = other.lookup? id) →
      ofSdi catalog table = ofSdi other table := by
    intro h
    unfold ofSdi
    rw [TableDefinition.ofSdi_congr h]
  refine ⟨hagree, ?_, ?_⟩
  · intro compiled hgrown hcompiled
    rw [← hcompiled]
    symm
    apply hagree
    intro id hid
    obtain ⟨t, ht⟩ : ∃ t, TableDefinition.ofSdi catalog table = .ok t := by
      apply succeeds_map.mp
      exact ⟨compiled, hcompiled⟩
    obtain ⟨c, hc⟩ :=
      Option.isSome_iff_exists.mp (TableDefinition.isSome_lookup?_of_ofSdi ht id hid)
    rw [hc, hgrown id c hc]
  · intro columns hcolumns
    have hsame : Sdi.Table.withoutUnused { table with columns } = table.withoutUnused := by
      unfold Sdi.Table.withoutUnused
      rw [hcolumns]
    rw [← ofSdi_withoutUnused, hsame, ofSdi_withoutUnused]

/-- A catalogue with one more collation than `Collation.general`. -/
def widerCatalog : Collation.Catalog :=
  .ofList [⟨8, "latin1_swedish_ci", "latin1", 1⟩, .general]

/-- The columns of `Sdi.Table.orderLines`, with unknown collations where none is looked up. -/
def renumberedColumns : List Sdi.Column :=
  [.plain "note" "varchar(9)" 2 1, { Sdi.Column.plain "DB_ROW_ID" "" 1 2 with collationId := 999 },
    { Sdi.Column.plain "id" "int" 1 1 with collationId := 7 }]

theorem ofSdi_by_usedCollations_orderLines :
    (∀ id ∈ Sdi.Table.orderLines.usedCollations,
        (Collation.Catalog.ofList [.general]).lookup? id = widerCatalog.lookup? id) ∧
      ofSdi widerCatalog .orderLines = .ok (ofDefinition .orderLines) ∧
      ofSdi (.ofList [.general]) { Sdi.Table.orderLines with columns := renumberedColumns } =
        .ok (ofDefinition .orderLines) := by
  have hagree : ∀ id ∈ Sdi.Table.orderLines.usedCollations,
      (Collation.Catalog.ofList [.general]).lookup? id = widerCatalog.lookup? id := by
    have hused : Sdi.Table.orderLines.usedCollations = [45, 45] := rfl
    rw [hused]
    intro id hid
    simp only [List.mem_cons, List.not_mem_nil, or_false, or_self] at hid
    subst hid
    rfl
  have hcolumns : renumberedColumns.map Sdi.Column.withoutUnused =
      Sdi.Table.orderLines.columns.map Sdi.Column.withoutUnused := by decide
  have hcompiled : ofSdi (.ofList [.general]) .orderLines = .ok (ofDefinition .orderLines) := by
    unfold ofSdi
    rw [TableDefinition.ofSdi_orderLines]
    rfl
  obtain ⟨hsame, -, hfree⟩ :=
    ofSdi_by_usedCollations (.ofList [.general]) widerCatalog .orderLines
  exact ⟨hagree, (hsame hagree).symm.trans hcompiled, (hfree _ hcolumns).trans hcompiled⟩

end CompiledTable

end DictionaryDdl
