import DictionaryDdl.Proofs.Batch.Pool
import DictionaryDdl.Proofs.Table.Consistency
import Mathlib.Data.Prod.Lex
import Mathlib.Data.String.Basic

/-!
A batch accounts for every document, in whatever order the results come in: each document is a
table, skipped or failed, and never more than one of these. What a document comes to depends on
no other one, so the tables of the others stay when documents are added, removed or spoilt.
-/

namespace DictionaryDdl

namespace CompiledTable

/-- What the tables of a batch are put in order by: the schema, and then the name. -/
def key (t : CompiledTable) : String ×ₗ String :=
  toLex (t.schema, t.name)

theorem le_eq_true {a b : CompiledTable} : a.le b = true ↔ a.key ≤ b.key := by
  unfold le key
  simp [Prod.Lex.toLex_le_toLex]

theorem trans_le (a b c : CompiledTable) (hab : a.le b = true) (hbc : b.le c = true) :
    a.le c = true := by
  rw [le_eq_true] at hab hbc ⊢
  exact hab.trans hbc

theorem total_le (a b : CompiledTable) : (a.le b || b.le a) = true := by
  rw [Bool.or_eq_true, le_eq_true, le_eq_true]
  exact le_total a.key b.key

theorem pairwise_mergeSort_le (tables : List CompiledTable) :
    (tables.mergeSort le).Pairwise (·.key ≤ ·.key) :=
  (List.pairwise_mergeSort trans_le total_le tables).imp le_eq_true.mp

end CompiledTable

namespace Batch

/-- The table that a document compiles to by itself, if it does. -/
def tableFrom (catalog : Collation.Catalog) (document : Document) : Option CompiledTable :=
  (resultOf catalog document).toOption.join

theorem tableOf?_eq (result : CompileResult) : tableOf? result = result.toOption.join := by
  cases result <;> rfl

theorem isSkipped_eq (result : CompileResult) :
    isSkipped result = decide (result.toOption = some none) := by
  match result with
  | .error _ => rfl
  | .ok none => rfl
  | .ok (some _) => rfl

theorem isFailed_eq (result : CompileResult) :
    isFailed result = decide (result.toOption = none) := by
  cases result <;> rfl

/-- A batch in which every document is accounted for. -/
structure Accounts (catalog : Collation.Catalog) (documents : List Document)
    (batch : Batch) : Prop where
  ascending : batch.tables.Pairwise (·.key ≤ ·.key)
  tables : batch.tables.Perm (documents.filterMap (tableFrom catalog))
  skipped : batch.skipped =
    documents.countP fun document => (resultOf catalog document).toOption = some none
  failed : batch.failed =
    documents.countP fun document => (resultOf catalog document).toOption = none
  total : batch.tables.length + batch.skipped + batch.failed = documents.length

theorem count_results (results : List CompileResult) :
    (results.filterMap tableOf?).length + results.countP isSkipped + results.countP isFailed =
      results.length := by
  induction results with
  | nil => rfl
  | cons result more ih =>
      simp only [List.filterMap_cons, List.countP_cons, List.length_cons, ← ih]
      match result with
      | .error _ => simp [tableOf?, isSkipped, isFailed]; omega
      | .ok none => simp [tableOf?, isSkipped, isFailed]; omega
      | .ok (some _) => simp [tableOf?, isSkipped, isFailed]; omega

section

variable {catalog : Collation.Catalog} {documents : List Document} {results : List CompileResult}

theorem Completion.tables_perm (h : Completion catalog documents results) :
    (results.filterMap tableOf?).Perm (documents.filterMap (tableFrom catalog)) := by
  refine (List.Perm.filterMap tableOf? h).trans (.of_eq ?_)
  rw [List.filterMap_map]
  exact List.filterMap_congr fun document _ => tableOf?_eq _

theorem Completion.countP_eq (h : Completion catalog documents results)
    (p : CompileResult → Bool) :
    results.countP p = documents.countP fun document => p (resultOf catalog document) := by
  rw [List.Perm.countP_eq p h, List.countP_map]
  rfl

theorem collect_accounts (h : Completion catalog documents results) :
    (collect results).Accounts catalog documents := by
  have hsorted : (collect results).tables.Perm (results.filterMap tableOf?) :=
    List.mergeSort_perm _ _
  have hskipped := h.countP_eq isSkipped
  simp only [isSkipped_eq] at hskipped
  have hfailed := h.countP_eq isFailed
  simp only [isFailed_eq] at hfailed
  have htotal : (collect results).tables.length + results.countP isSkipped +
      results.countP isFailed = documents.length := by
    rw [hsorted.length_eq, count_results, h.length_eq, List.length_map]
  exact ⟨CompiledTable.pairwise_mergeSort_le _, hsorted.trans h.tables_perm, hskipped, hfailed,
    htotal⟩

/-- Whatever order the results come in, a batch accounts for every document, and where some
documents are put in the place of others, be it none or several, the tables of the rest stay as
they compile by themselves. -/
theorem collect_accounts_isolated (h : Completion catalog documents results) :
    (collect results).Accounts catalog documents ∧
      ∀ before changed changed' after results', documents = before ++ changed ++ after →
        Completion catalog (before ++ changed' ++ after) results' →
        (collect results).tables.Perm
            (changed.filterMap (tableFrom catalog) ++
              (before ++ after).filterMap (tableFrom catalog)) ∧
          (collect results').tables.Perm
            (changed'.filterMap (tableFrom catalog) ++
              (before ++ after).filterMap (tableFrom catalog)) := by
  have hmoved (before changed after : List Document) :
      ((before ++ changed ++ after).filterMap (tableFrom catalog)).Perm
        (changed.filterMap (tableFrom catalog) ++
          (before ++ after).filterMap (tableFrom catalog)) := by
    rw [← List.filterMap_append, List.append_assoc]
    refine List.Perm.filterMap _ ?_
    rw [← List.append_assoc, ← List.append_assoc]
    exact List.perm_append_comm.append_right after
  refine ⟨collect_accounts h, ?_⟩
  rintro before changed changed' after results' rfl h'
  exact ⟨(collect_accounts h).tables.trans (hmoved before changed after),
    (collect_accounts h').tables.trans (hmoved before changed' after)⟩

end

end Batch

/-- A table `t` of the schema `shop` without columns. -/
def TableDefinition.bare (engine : String) : TableDefinition where
  schema := "shop"
  name := "t"
  engine
  rowFormat := .dynamic
  collationId := 45
  collation := .general
  autoIncrement := none
  columns := []
  indexes := []
  partitioning := {}
  foreignKeys := []
  options := {}

/-- Whether a record is one of a table `t` of the schema `shop` without columns. -/
def Sdi.Table.isBare (engine : String) (table : Sdi.Table) : Bool :=
  table.name == "t" && table.schema == "shop" && table.engine == engine &&
    table.collationId == 45 && table.rowFormat == 2 && table.options == "" &&
    table.privateData == "" && table.columns.isEmpty && table.indexes.isEmpty &&
    table.foreignKeys.isEmpty && table.partitionType == 0 && table.subpartitionType == 0

theorem TableDefinition.ofSdi_of_isBare {engine : String} {table : Sdi.Table}
    (h : table.isBare engine = true) : ofSdi (.ofList [.general]) table = .ok (bare engine) := by
  have hcolumns : Column.listOfSdi (.ofList [.general]) [] = .ok [] :=
    Column.listOfSdi_eq_ok_iff_perm.mpr ⟨rfl, [], rfl, .nil⟩
  cases table
  simp only [Sdi.Table.isBare, Bool.and_eq_true, beq_iff_eq, List.isEmpty_iff] at h
  obtain ⟨⟨⟨⟨⟨⟨⟨⟨⟨⟨⟨rfl, rfl⟩, rfl⟩, rfl⟩, rfl⟩, rfl⟩, rfl⟩, rfl⟩, rfl⟩, rfl⟩, rfl⟩, rfl⟩ := h
  unfold ofSdi
  rw [(Layout.ofSdi_eq_ok.mpr ⟨hcolumns, rfl, rfl, rfl⟩ : Layout.ofSdi _ _ = .ok ⟨[], [], [], {}⟩)]
  rfl

namespace Batch

/-- A document of a table without columns, its record given as the list of its fields. -/
def bareDocument (engine : String) : Document where
  database := "shop"
  path := ⟨"shop/t.sdi"⟩
  text := "\x7b\"dd_object\":[\"t\",\"shop\",\"" ++ engine ++
    "\",45,2,\"\",\"\",[],[],[],0,\"\",0,0,\"\",0,[]]\x7d"

/-- What `bareDocument` comes to. -/
def bareTable (engine : String) : CompiledTable :=
  .ofDefinition (.bare engine)

theorem resultOf_of_isBare {document : Document} {engine : String}
    (h : (Sdi.Table.read document.text).toOption.join.any (Sdi.Table.isBare engine) = true) :
    resultOf (.ofList [.general]) document = .ok (some (bareTable engine)) := by
  cases hread : Sdi.Table.read document.text with
  | error reason => simp [hread, Except.toOption] at h
  | ok table? =>
      cases table? with
      | none => simp [hread, Except.toOption] at h
      | some table =>
          have hbare : table.isBare engine = true := by simpa [hread, Except.toOption] using h
          unfold resultOf CompiledTable.ofText CompiledTable.readTable
          rw [hread]
          change (CompiledTable.ofSdi (.ofList [.general]) table).map some = _
          unfold CompiledTable.ofSdi
          rw [TableDefinition.ofSdi_of_isBare hbare]
          rfl

theorem resultOf_bareDocument_memory :
    resultOf (.ofList [.general]) (bareDocument "MEMORY") = .ok (some (bareTable "MEMORY")) :=
  resultOf_of_isBare (by decide +kernel)

/-- A document that ends before it begins. -/
def emptyDocument : Document :=
  ⟨"shop", ⟨"shop/u.sdi"⟩, ""⟩

/-- A document that describes nothing. -/
def blankDocument : Document :=
  ⟨"shop", ⟨"shop/u.sdi"⟩, "[]"⟩

theorem collect_accounts_isolated_emptyDocument :
    Completion (.ofList [.general]) [bareDocument "MEMORY", emptyDocument]
        [.error (.document .truncated), .ok (some (bareTable "MEMORY"))] ∧
      Completion (.ofList [.general]) [bareDocument "MEMORY", blankDocument]
        [.ok (some (bareTable "MEMORY")), .ok none] ∧
      (collect [.error (.document .truncated), .ok (some (bareTable "MEMORY"))]).Accounts
        (.ofList [.general]) [bareDocument "MEMORY", emptyDocument] ∧
      (collect [.error (.document .truncated), .ok (some (bareTable "MEMORY"))]).tables.Perm
        [bareTable "MEMORY"] ∧
      (collect [.ok (some (bareTable "MEMORY")), .ok none]).tables.Perm
        [bareTable "MEMORY"] := by
  have hempty : resultOf (.ofList [.general]) emptyDocument = .error (.document .truncated) := rfl
  have hblank : resultOf (.ofList [.general]) blankDocument = .ok none := rfl
  have hfirst : Completion (.ofList [.general]) [bareDocument "MEMORY", emptyDocument]
      [.error (.document .truncated), .ok (some (bareTable "MEMORY"))] := by
    unfold Completion
    rw [List.map_cons, List.map_singleton, resultOf_bareDocument_memory, hempty]
    exact .swap _ _ _
  have hsecond : Completion (.ofList [.general]) [bareDocument "MEMORY", blankDocument]
      [.ok (some (bareTable "MEMORY")), .ok none] := by
    unfold Completion
    rw [List.map_cons, List.map_singleton, resultOf_bareDocument_memory, hblank]
  obtain ⟨haccounts, hrest⟩ := collect_accounts_isolated hfirst
  obtain ⟨htables, htables'⟩ := hrest [bareDocument "MEMORY"] [emptyDocument] [blankDocument] []
    _ rfl hsecond
  have htable : tableFrom (.ofList [.general]) (bareDocument "MEMORY") =
      some (bareTable "MEMORY") := by
    unfold tableFrom
    rw [resultOf_bareDocument_memory]
    rfl
  have hnone : tableFrom (.ofList [.general]) emptyDocument = none ∧
      tableFrom (.ofList [.general]) blankDocument = none := by
    unfold tableFrom
    rw [hempty, hblank]
    exact ⟨rfl, rfl⟩
  simp only [List.filterMap_cons, List.filterMap_nil, List.append_nil, List.nil_append, htable,
    hnone] at htables htables'
  exact ⟨hfirst, hsecond, haccounts, htables, htables'⟩

end Batch

end DictionaryDdl
