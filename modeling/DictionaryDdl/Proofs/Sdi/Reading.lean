import DictionaryDdl.Proofs.Sdi.Records
import DictionaryDdl.Sdi.Document

/-!
Tables that are read back from documents. A table is described by an object of its type and its
value, which is a document of its own or stands in a cell of an extract, where it is found if no
cell before it describes a table. The printed document gives exactly that table, whatever its
strings and integers are. Each level of partitions takes two of the levels that a reader goes into,
and the rest of the table and the wrapping take eight.
-/

namespace DictionaryDdl.Sdi

open Json

variable {table : Table} {description document : Json} {before after : List Json}

/-- What a standalone document says of a table. -/
def Table.described (table : Table) : Json :=
  .object [("dd_object_type", .string "Table"), ("dd_object", table.toJson)]

/-- The cell of an extract that describes a table. -/
def Table.cell (table : Table) : Json :=
  .object [("object", table.described)]

theorem Table.exact_described (table : Table) : table.described.IsExact := by
  refine .object (by decide : ["dd_object_type", "dd_object"].Nodup) ?_
  simp [IsExact.string, table.exact_toJson]

theorem Table.exact_cell (table : Table) : table.cell.IsExact := by
  refine .object (by decide : ["object"].Nodup) ?_
  simp [table.exact_described]

theorem Table.depth_described_le (table : Table) :
    table.described.depth ≤ 2 * Partition.listLevels table.partitions + 6 := by
  refine depth_object_le_iff.mpr ?_
  simp [depth_string, table.depth_toJson_le]

theorem Table.depth_cell_le (table : Table) :
    table.cell.depth ≤ 2 * Partition.listLevels table.partitions + 7 := by
  refine depth_object_le_iff.mpr ?_
  simp [table.depth_described_le]

/-! ### Finding the description -/

theorem describesTable_described (table : Table) : describesTable table.described = true := by
  have hkind : table.described.get? "dd_object_type" = some (.string "Table") := rfl
  rw [describesTable, hkind]
  rfl

theorem describesTable_ordered (h : description.IsExact) :
    describesTable description.ordered = describesTable description := by
  rw [describesTable, describesTable, h.get?_ordered, h.get?_ordered, Option.isSome_map]
  cases description.get? "dd_object_type" with
  | none => rfl
  | some kind =>
      cases kind with
      | _ => rfl

/-- The description is found in the ordered cells as in the cells. -/
theorem find?_describesTable_ordered {cells : List Json} (h : ∀ cell ∈ cells, cell.IsExact) :
    ((cells.map ordered).filterMap (·.get? "object")).find? describesTable =
      ((cells.filterMap (·.get? "object")).find? describesTable).map ordered := by
  induction cells with
  | nil => rfl
  | cons cell more ih =>
      rw [List.forall_mem_cons] at h
      rw [List.map_cons, List.filterMap_cons, List.filterMap_cons, h.1.get?_ordered]
      cases hinner : cell.get? "object" with
      | none => exact ih h.2
      | some inner =>
          rw [Option.map_some, List.find?_cons, List.find?_cons,
            describesTable_ordered (h.1.of_get? hinner), ih h.2]
          cases describesTable inner with
          | true => rfl
          | false => rfl

theorem tableDescription?_ordered (h : document.IsExact) :
    tableDescription? document.ordered = (tableDescription? document).map ordered := by
  cases h with
  | array exact =>
      rw [ordered, orderedItems_eq_map]
      exact find?_describesTable_ordered exact
  | @object members nodup exact =>
      have hdescribes := describesTable_ordered (.object nodup exact)
      rw [ordered, ofMembers] at hdescribes ⊢
      rw [tableDescription?, tableDescription?, hdescribes]
      cases describesTable (.object members) with
      | true => rfl
      | false => rfl
  | _ => rfl

theorem tableDescription?_described (table : Table) :
    tableDescription? table.described = some table.described := by
  have hdescribes := describesTable_described table
  rw [Table.described] at hdescribes ⊢
  rw [tableDescription?, if_pos hdescribes]

/-- No cell before the one of the table may describe a table. -/
theorem tableDescription?_extract (hbefore : ∀ cell ∈ before, ∀ description,
      cell.get? "object" = some description → describesTable description = false) :
    tableDescription? (.array (before ++ table.cell :: after)) = some table.described := by
  have hnone : (before.filterMap (·.get? "object")).find? describesTable = none := by
    rw [List.find?_eq_none]
    intro description hdescription
    obtain ⟨cell, hcell, hget⟩ := List.mem_filterMap.mp hdescription
    rw [hbefore cell hcell description hget]
    decide
  have hcell : table.cell.get? "object" = some table.described := rfl
  rw [tableDescription?, List.filterMap_append, List.find?_append, hnone, Option.none_or,
    List.filterMap_cons_some hcell, List.find?_cons_of_pos (describesTable_described table)]

/-! ### Reading the document -/

theorem Table.get?_described (table : Table) :
    table.described.get? "dd_object" = some table.toJson := rfl

theorem Table.ofDocument_eq {value : Json}
    (hdescription : tableDescription? document = some description)
    (hvalue : description.get? "dd_object" = some value) :
    Table.ofDocument document = (Table.ofJson value).map some := by
  rw [Table.ofDocument, hdescription, Option.bind_some, hvalue]

theorem Table.ofDocument_ordered (hexact : document.IsExact)
    (hdescription : tableDescription? document = some table.described) :
    Table.ofDocument document.ordered = .ok (some table) := by
  have hordered : tableDescription? document.ordered = some table.described.ordered := by
    rw [tableDescription?_ordered hexact, hdescription, Option.map_some]
  have hobject : table.described.ordered.get? "dd_object" = some table.toJson.ordered := by
    rw [table.exact_described.get?_ordered, get?_described, Option.map_some]
  rw [ofDocument_eq hordered hobject, ofJson_ordered]
  rfl

theorem Table.read_of_parse {text : String} (hparse : parse text = .ok document.ordered)
    (hexact : document.IsExact)
    (hdescription : tableDescription? document = some table.described) :
    Table.read text = .ok (some table) := by
  rw [Table.read, hparse]
  simp only [bind, Except.bind, Table.ofDocument_ordered hexact hdescription, Except.mapError]

/-- A document is printed with its members as they stand or in ascending order. -/
theorem Table.read_printed (hexact : document.IsExact) (hdepth : document.depth ≤ maxDepth)
    (hdescription : tableDescription? document = some table.described) :
    ∀ print ∈ [compact, pretty], Table.read (print document) = .ok (some table) ∧
      Table.read (print document.ordered) = .ok (some table) := by
  have hdepth' : document.ordered.depth ≤ maxDepth := (depth_ordered_le hexact).trans hdepth
  have hcompact := parse_compact hexact.ordered hdepth'
  have hpretty := parse_pretty hexact.ordered hdepth'
  rw [ordered_ordered hexact] at hcompact hpretty
  simp only [List.forall_mem_cons]
  refine ⟨⟨?_, ?_⟩, ⟨?_, ?_⟩, List.forall_mem_nil _⟩
  · exact read_of_parse (parse_compact hexact hdepth) hexact hdescription
  · exact read_of_parse hcompact hexact hdescription
  · exact read_of_parse (parse_pretty hexact hdepth) hexact hdescription
  · exact read_of_parse hpretty hexact hdescription

/-- A table whose partitions are nested at most fifty deep is read back from a document of its own
and from a cell of an extract, whatever the other cells are as long as they are read themselves and
none before it describes a table. -/
theorem Table.read_wrapped (hlevels : Partition.listLevels table.partitions ≤ 50)
    (hexact : ∀ cell ∈ before ++ after, cell.IsExact)
    (hdepth : ∀ cell ∈ before ++ after, cell.depth < maxDepth)
    (hbefore : ∀ cell ∈ before, ∀ description,
      cell.get? "object" = some description → describesTable description = false) :
    ∀ document ∈ [table.described, .array (before ++ table.cell :: after)],
      ∀ print ∈ [compact, pretty], Table.read (print document) = .ok (some table) ∧
        Table.read (print document.ordered) = .ok (some table) := by
  have hmax : maxDepth = 127 := rfl
  have hdescribed := table.depth_described_le
  have hcell := table.depth_cell_le
  simp only [List.forall_mem_append] at hexact hdepth
  have hextract : (Json.array (before ++ table.cell :: after)).IsExact :=
    .array (List.forall_mem_append.mpr
      ⟨hexact.1, List.forall_mem_cons.mpr ⟨table.exact_cell, hexact.2⟩⟩)
  have hlevel : (Json.array (before ++ table.cell :: after)).depth ≤ 126 + 1 :=
    depth_array_le_iff.mpr (List.forall_mem_append.mpr
      ⟨fun cell h => Nat.le_of_lt_add_one (hdepth.1 cell h), List.forall_mem_cons.mpr
        ⟨by omega, fun cell h => Nat.le_of_lt_add_one (hdepth.2 cell h)⟩⟩)
  refine List.forall_mem_cons.mpr ⟨?_, List.forall_mem_singleton.mpr ?_⟩
  · exact read_printed table.exact_described (by omega) (tableDescription?_described table)
  · exact read_printed hextract hlevel (tableDescription?_extract hbefore)

/-- A table with every kind of record, subpartitions and characters that are written as escapes. -/
def ledger : Table where
  name := "ledger \"2024\"\n"
  schema := "café\\😀"
  engine := "InnoDB"
  collationId := 4294967295
  rowFormat := 2
  options := "key_block_size=0;\t"
  privateData := ""
  columns :=
    [⟨"id", "bigint", 1, 1, false, false, true, true, false, true, true, true, "", "", 255, "\x00"⟩]
  indexes := [⟨"PRIMARY", 1, false, [⟨0, 18446744073709551615, false⟩]⟩]
  foreignKeys := [⟨"parent", "accounts", "", 1, 5, [⟨0, "id"⟩]⟩]
  partitionType := 7
  partitionExpression := "id"
  defaultPartitioning := 1
  subpartitionType := 1
  subpartitionExpression := "id"
  defaultSubpartitioning := 1
  partitions := [⟨"p0", "10", "InnoDB", "", [⟨"p0sp0", "", "InnoDB", "日本", []⟩]⟩]

/-- A cell of an extract that describes something else than a table. -/
def tablespaceCell : Json :=
  .object [("type", .ofNat 2), ("object", .object [("dd_object_type", .string "Tablespace")])]

theorem Table.read_wrapped_ledger :
    Partition.listLevels ledger.partitions ≤ 50 ∧
      ∀ document ∈ [ledger.described, .array [.string "ibd2sdi", tablespaceCell, ledger.cell]],
        ∀ print ∈ [compact, pretty], Table.read (print document) = .ok (some ledger) ∧
          Table.read (print document.ordered) = .ok (some ledger) := by
  have hlevels : Partition.listLevels ledger.partitions ≤ 50 := by decide
  have hinner : (Json.object [("dd_object_type", .string "Tablespace")]).IsExact := by
    refine .object (by decide : ["dd_object_type"].Nodup) ?_
    simp [IsExact.string]
  have htablespace : tablespaceCell.IsExact := by
    refine .object (by decide : ["type", "object"].Nodup) ?_
    have htype : (ofNat 2).IsExact := exact_ofUInt32 2
    simp [hinner, htype]
  have hexact : ∀ cell ∈ [.string "ibd2sdi", tablespaceCell] ++ [], cell.IsExact := by
    simp [IsExact.string, htablespace]
  have hdepth : ∀ cell ∈ [.string "ibd2sdi", tablespaceCell] ++ [], cell.depth < maxDepth := by
    decide
  have hbefore : ∀ cell ∈ [.string "ibd2sdi", tablespaceCell], ∀ description,
      cell.get? "object" = some description → describesTable description = false := by
    refine List.forall_mem_cons.mpr ⟨?_, List.forall_mem_singleton.mpr ?_⟩
    · rintro description ⟨⟩
    · rintro description ⟨⟩
      rfl
  exact ⟨hlevels, Table.read_wrapped hlevels hexact hdepth hbefore⟩

end DictionaryDdl.Sdi
