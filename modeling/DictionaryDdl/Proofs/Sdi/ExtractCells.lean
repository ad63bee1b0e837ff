import DictionaryDdl.Proofs.Sdi.Reading

/-!
The cells of an extract. A cell that is free of tables may stand anywhere, or be missing, without a
change of what is read. So an extract with one cell that may describe a table is read as the
description would be read from a document of its own: as the same table, as none, or with the same
fault. Nothing is said of texts that are no JSON, such as extracts that are nested too deep.
-/

namespace DictionaryDdl.Sdi

open Json

variable {cell description : Json} {cells cells' before after : List Json}
  {members : List (String × Json)} {text text' : String}

/-- A cell that is free of tables: it has no object, its object is of another type than a table, or
its object has neither a type nor a dictionary object. -/
def IsTableFree (cell : Json) : Prop :=
  ∀ object, cell.get? "object" = some object →
    (∃ kind, object.get? "dd_object_type" = some kind ∧ kind ≠ .string "Table") ∨
      (object.get? "dd_object_type" = none ∧ object.get? "dd_object" = none)

/-- Lists of cells that are the same up to cells that are free of tables. -/
inductive SameTables : List Json → List Json → Prop
  | nil : SameTables [] []
  | both {cells cells' : List Json} (cell : Json) (rest : SameTables cells cells') :
      SameTables (cell :: cells) (cell :: cells')
  | left {cell : Json} {cells cells' : List Json} (free : IsTableFree cell)
      (rest : SameTables cells cells') : SameTables (cell :: cells) cells'
  | right {cell : Json} {cells cells' : List Json} (free : IsTableFree cell)
      (rest : SameTables cells cells') : SameTables cells (cell :: cells')

namespace SameTables

theorem refl (cells : List Json) : SameTables cells cells := by
  induction cells with
  | nil => exact .nil
  | cons cell more ih => exact .both cell ih

theorem append_left (h : ∀ cell ∈ before, IsTableFree cell) (rest : SameTables cells cells') :
    SameTables (before ++ cells) cells' := by
  induction before with
  | nil => exact rest
  | cons cell more ih =>
      rw [List.forall_mem_cons] at h
      exact .left h.1 (ih h.2)

/-- A cell alone has the tables that it has among cells that are free of them. -/
theorem between (h : ∀ other ∈ before ++ after, IsTableFree other) (cell : Json) :
    SameTables (before ++ cell :: after) [cell] := by
  rw [List.forall_mem_append] at h
  have hafter : SameTables (after ++ []) [] := append_left h.2 .nil
  rw [List.append_nil] at hafter
  exact append_left h.1 (.both cell hafter)

end SameTables

/-! ### What is found -/

theorem describesTable_eq_false :
    describesTable description = false ↔
      (∃ kind, description.get? "dd_object_type" = some kind ∧ kind ≠ .string "Table") ∨
        (description.get? "dd_object_type" = none ∧ description.get? "dd_object" = none) := by
  unfold describesTable
  cases hkind : description.get? "dd_object_type" with
  | none => simp
  | some kind =>
      cases kind with
      | string word => simp
      | _ => simp

theorem isTableFree_iff :
    IsTableFree cell ↔ (cell.get? "object").any describesTable = false := by
  simp only [IsTableFree, ← describesTable_eq_false]
  cases cell.get? "object" with
  | none => simp
  | some object => simp

theorem tableDescription?_cons (cell : Json) (more : List Json) :
    tableDescription? (.array (cell :: more)) =
      ((cell.get? "object").filter describesTable).or (tableDescription? (.array more)) := by
  rw [tableDescription?, tableDescription?, List.filterMap_cons]
  cases cell.get? "object" with
  | none => rfl
  | some object =>
      rw [List.find?_cons, Option.filter_some]
      cases describesTable object with
      | true => rfl
      | false => rfl

theorem tableDescription?_of_isTableFree (h : IsTableFree cell) (more : List Json) :
    tableDescription? (.array (cell :: more)) = tableDescription? (.array more) := by
  have hnone : (cell.get? "object").filter describesTable = none := by
    rw [isTableFree_iff] at h
    cases hobject : cell.get? "object" with
    | none => rfl
    | some object =>
        rw [hobject, Option.any_some] at h
        rw [Option.filter_some, h]
        rfl
  rw [tableDescription?_cons, hnone, Option.none_or]

theorem SameTables.tableDescription?_eq (h : SameTables cells cells') :
    tableDescription? (.array cells) = tableDescription? (.array cells') := by
  induction h with
  | nil => rfl
  | both cell _ ih => rw [tableDescription?_cons, tableDescription?_cons, ih]
  | left free _ ih => rw [tableDescription?_of_isTableFree free, ih]
  | right free _ ih => rw [tableDescription?_of_isTableFree free, ih]

/-- A cell passes on the description that it holds. -/
theorem tableDescription?_singleton (h : cell.get? "object" = some (.object members)) :
    tableDescription? (.array [cell]) = tableDescription? (.object members) := by
  rw [tableDescription?_cons, h, Option.filter_some]
  exact Option.or_none

/-! ### What is read -/

theorem Table.read_eq_of_description {document document' : Json}
    (hparse : parse text = .ok document) (hparse' : parse text' = .ok document')
    (h : tableDescription? document = tableDescription? document') :
    Table.read text = Table.read text' := by
  rw [Table.read, Table.read, hparse, hparse']
  simp only [bind, Except.bind, Table.ofDocument, h]

/-- Cells that are free of tables make no difference to what is read, wherever they are put in or
taken out. And a description that stands in a cell among such cells is read as it is from a document
of its own. -/
theorem Table.read_of_cells :
    (∀ text text' members before cell after, parse text = .ok (.object members) →
      parse text' = .ok (.array (before ++ cell :: after)) →
      cell.get? "object" = some (.object members) →
      (∀ other ∈ before ++ after, IsTableFree other) → Table.read text = Table.read text') ∧
    (∀ text text' cells cells', parse text = .ok (.array cells) →
      parse text' = .ok (.array cells') → SameTables cells cells' →
      Table.read text = Table.read text') := by
  constructor
  · intro text text' members before cell after hparse hparse' hcell hfree
    refine read_eq_of_description hparse hparse' ?_
    rw [(SameTables.between hfree cell).tableDescription?_eq, tableDescription?_singleton hcell]
  · intro text text' cells cells' hparse hparse' hsame
    exact read_eq_of_description hparse hparse' hsame.tableDescription?_eq

/-- What claims to describe a table and holds none. -/
def claim : List (String × Json) :=
  [("dd_object", .array []), ("dd_object_type", .string "Table")]

/-- A null for a type, and a null for an object. -/
def freeCells : List Json :=
  [.object [("object", .object [("dd_object", .null), ("dd_object_type", .null)])],
    .object [("object", .null)]]

/-- An extract that holds the claim between other cells. -/
def claimExtract : List Json :=
  .string "ibd2sdi" :: .object [("object", .object claim)] :: freeCells

theorem isTableFree_of_mem_freeCells :
    ∀ cell ∈ .string "ibd2sdi" :: freeCells, IsTableFree cell := by
  simp only [freeCells, List.forall_mem_cons, isTableFree_iff]
  exact ⟨rfl, rfl, rfl, List.forall_mem_nil _⟩

theorem exact_cell (h : description.IsExact) : (Json.object [("object", description)]).IsExact :=
  .object (List.nodup_singleton "object") (List.forall_mem_singleton.mpr h)

theorem exact_claim : (Json.object claim).IsExact := by
  refine .object (by decide) ?_
  simp only [claim, List.forall_mem_cons]
  exact ⟨.array (List.forall_mem_nil _), .string "Table", List.forall_mem_nil _⟩

theorem exact_freeCells : ∀ cell ∈ freeCells, cell.IsExact := by
  have hnulls : (Json.object [("dd_object", .null), ("dd_object_type", .null)]).IsExact := by
    refine .object (by decide) ?_
    simp only [List.forall_mem_cons]
    exact ⟨.null, .null, List.forall_mem_nil _⟩
  simp only [freeCells, List.forall_mem_cons]
  exact ⟨exact_cell hnulls, exact_cell .null, List.forall_mem_nil _⟩

theorem exact_claimExtract : ∀ cell ∈ claimExtract, cell.IsExact := by
  simp only [claimExtract, List.forall_mem_cons]
  exact ⟨.string "ibd2sdi", exact_cell exact_claim, exact_freeCells⟩

/-- A faulty table has the same fault in both layouts, with other cells and without them. -/
theorem Table.read_of_cells_claim :
    parse (Json.object claim).compact = .ok (.object claim) ∧
      parse (Json.array claimExtract).compact = .ok (.array claimExtract) ∧
      parse (Json.array freeCells).compact = .ok (.array freeCells) ∧
      (∀ cell ∈ .string "ibd2sdi" :: freeCells, IsTableFree cell) ∧
      Table.read (Json.object claim).compact =
        .error (.mismatch (.tooShort 0 "struct SdiTable with 17 elements")) ∧
      Table.read (Json.object claim).compact = Table.read (Json.array claimExtract).compact ∧
      Table.read (Json.array freeCells).compact = Table.read (Json.array []).compact := by
  have hclaim : parse (Json.object claim).compact = .ok (.object claim) :=
    parse_compact exact_claim (by decide)
  have hextract : parse (Json.array claimExtract).compact = .ok (.array claimExtract) :=
    parse_compact (.array exact_claimExtract) (by decide)
  have hcells : parse (Json.array freeCells).compact = .ok (.array freeCells) :=
    parse_compact (.array exact_freeCells) (by decide)
  have hfree := isTableFree_of_mem_freeCells
  refine ⟨hclaim, hextract, hcells, hfree, ?_, ?_, ?_⟩
  · rw [Table.read, hclaim]
    rfl
  · exact Table.read_of_cells.1 _ _ claim [.string "ibd2sdi"] _ freeCells hclaim hextract rfl hfree
  · rw [List.forall_mem_cons] at hfree
    exact Table.read_of_cells.2 _ _ freeCells [] hcells rfl (.append_left hfree.2 (.refl _))

end DictionaryDdl.Sdi
