import DictionaryDdl.Proofs.Batch.Accounts
import DictionaryDdl.Proofs.Files.Following
import DictionaryDdl.Scripts
import Mathlib.Data.List.Dedup

/-!
What is planned for some tables. The schemas come once and in ascending order, and so do the tables
of a schema where no two have one name; the plan then depends on the tables only, not on the order
in which they are given. Every write of a plan goes to a name below the root or to a name in the
folder of a schema, and ends in the extension of scripts.
-/

namespace DictionaryDdl.Scripts

variable {root : Path} {tables tables' : List CompiledTable} {schema name other : String}
  {names : List String}

/-! ### Schemas -/

theorem mem_insertName : other ∈ insertName name names ↔ other = name ∨ other ∈ names := by
  induction names with
  | nil => simp [insertName]
  | cons first more ih =>
      unfold insertName
      split_ifs with hless hsame
      · simp
      · subst hsame
        simp
      · rw [List.mem_cons, ih, List.mem_cons]
        tauto

theorem pairwise_insertName (h : names.Pairwise (· < ·)) :
    (insertName name names).Pairwise (· < ·) := by
  induction names with
  | nil => simp [insertName]
  | cons first more ih =>
      obtain ⟨hfirst, hmore⟩ := List.pairwise_cons.mp h
      unfold insertName
      split_ifs with hless hsame
      · refine List.pairwise_cons.mpr ⟨fun next hnext => ?_, h⟩
        rcases List.mem_cons.mp hnext with rfl | hnext
        · exact hless
        · exact hless.trans (hfirst next hnext)
      · exact h
      · refine List.pairwise_cons.mpr ⟨fun next hnext => ?_, ih hmore⟩
        rcases mem_insertName.mp hnext with rfl | hnext
        · exact lt_of_le_of_ne (not_lt.mp hless) (Ne.symm hsame)
        · exact hfirst next hnext

theorem schemas_spec (tables : List CompiledTable) :
    (schemas tables).Pairwise (· < ·) ∧
      ∀ schema, schema ∈ schemas tables ↔ schema ∈ tables.map (·.schema) := by
  have hfold (tables : List CompiledTable) (names : List String) (hnames : names.Pairwise (· < ·)) :
      (tables.foldl (fun names table => insertName table.schema names) names).Pairwise (· < ·) ∧
        ∀ schema, schema ∈ tables.foldl (fun names table => insertName table.schema names) names ↔
          schema ∈ names ∨ schema ∈ tables.map (·.schema) := by
    induction tables generalizing names with
    | nil => simpa using hnames
    | cons table more ih =>
        obtain ⟨hsorted, hmem⟩ := ih (insertName table.schema names) (pairwise_insertName hnames)
        refine ⟨hsorted, fun schema => ?_⟩
        rw [List.foldl_cons, hmem, mem_insertName, List.map_cons, List.mem_cons]
        tauto
  simpa [schemas] using hfold tables [] .nil

theorem mem_schemas : schema ∈ schemas tables ↔ schema ∈ tables.map (·.schema) :=
  (schemas_spec tables).2 schema

theorem nodup_schemas (tables : List CompiledTable) : (schemas tables).Nodup :=
  (schemas_spec tables).1.imp ne_of_lt

/-- The schemas are those of the tables without repetitions. -/
theorem schemas_perm_dedup (tables : List CompiledTable) :
    (schemas tables).Perm (tables.map (·.schema)).dedup := by
  rw [List.perm_ext_iff_of_nodup (nodup_schemas tables) (List.nodup_dedup _)]
  intro schema
  rw [mem_schemas, List.mem_dedup]

theorem schemas_eq_of_perm (h : tables.Perm tables') : schemas tables = schemas tables' := by
  have hperm : (schemas tables).Perm (schemas tables') := by
    rw [List.perm_ext_iff_of_nodup (nodup_schemas tables) (nodup_schemas tables')]
    intro schema
    rw [mem_schemas, mem_schemas, (h.map _).mem_iff]
  exact hperm.eq_of_pairwise (fun _ _ _ _ hlt hgt => absurd hgt hlt.asymm)
    (schemas_spec tables).1 (schemas_spec tables').1

/-! ### The tables of a schema -/

theorem tablesOf_perm (schema : String) (tables : List CompiledTable) :
    (tablesOf schema tables).Perm (tables.filter (·.schema = schema)) := by
  have hfilter : tables.filter (·.schema == schema) = tables.filter (·.schema = schema) := by
    refine List.filter_congr fun table _ => ?_
    rw [Bool.eq_iff_iff, beq_iff_eq, decide_eq_true_iff]
  unfold tablesOf
  rw [hfilter]
  exact List.mergeSort_perm _ _

theorem mem_tablesOf {table : CompiledTable} :
    table ∈ tablesOf schema tables ↔ table ∈ tables ∧ table.schema = schema := by
  rw [(tablesOf_perm schema tables).mem_iff, List.mem_filter, decide_eq_true_iff]

/-- Where schema and name tell the tables apart, those of a schema are in ascending order. -/
theorem pairwise_tablesOf (h : (tables.map (·.key)).Nodup) :
    (tablesOf schema tables).Pairwise (·.name < ·.name) := by
  have hsorted : (tablesOf schema tables).Pairwise (·.name ≤ ·.name) := by
    refine (List.pairwise_mergeSort ?_ ?_ _).imp of_decide_eq_true
    · intro a b c hab hbc
      rw [decide_eq_true_iff] at hab hbc ⊢
      exact hab.trans hbc
    · intro a b
      simpa using le_total a.name b.name
  have hkeys : (tables.Pairwise fun a b => a.key ≠ b.key) := List.pairwise_map.mp h
  have hdistinct : (tablesOf schema tables).Pairwise fun a b => a.key ≠ b.key :=
    (tablesOf_perm schema tables).symm.pairwise (hkeys.filter _) fun hab => hab.symm
  refine (hsorted.and hdistinct).imp_of_mem fun ha hb hab => ?_
  refine lt_of_le_of_ne hab.1 fun hname => hab.2 ?_
  rw [CompiledTable.key, CompiledTable.key, (mem_tablesOf.mp ha).2, (mem_tablesOf.mp hb).2, hname]

/-- The tables of a schema are the ones that have it, in ascending order. -/
theorem tablesOf_eq {own : List CompiledTable} (hkeys : (tables.map (·.key)).Nodup)
    (hperm : own.Perm (tables.filter (·.schema = schema)))
    (hsorted : own.Pairwise (·.name < ·.name)) : tablesOf schema tables = own :=
  ((tablesOf_perm schema tables).trans hperm.symm).eq_of_pairwise
    (fun _ _ _ _ hlt hgt => absurd hgt hlt.asymm) (pairwise_tablesOf hkeys) hsorted

theorem tablesOf_eq_of_perm (h : tables.Perm tables') (hkeys : (tables.map (·.key)).Nodup) :
    tablesOf schema tables = tablesOf schema tables' := by
  have hperm : (tablesOf schema tables').Perm (tables.filter (·.schema = schema)) :=
    (tablesOf_perm schema tables').trans (h.symm.filter _)
  exact tablesOf_eq hkeys hperm (pairwise_tablesOf ((h.map _).nodup hkeys))

/-! ### Plans -/

theorem plan_eq_of_perm (root : Path) (h : tables.Perm tables')
    (hkeys : (tables.map (·.key)).Nodup) : plan root tables = plan root tables' := by
  unfold plan
  rw [schemas_eq_of_perm h]
  exact List.flatMap_congr fun schema _ => by rw [tablesOf_eq_of_perm h hkeys]

theorem summary_eq_of_perm (h : tables.Perm tables') (hkeys : (tables.map (·.key)).Nodup) :
    summary tables = summary tables' := by
  unfold summary
  rw [schemas_eq_of_perm h, h.length_eq]
  congr 1
  exact List.countP_congr fun schema _ => by rw [tablesOf_eq_of_perm h hkeys]

theorem mem_foreignKeyScripts {folder path : Path} {text : String} :
    .write path text ∈ foreignKeyScripts folder schema tables ↔
      tables.filterMap (·.foreignKeys) ≠ [] ∧ path = folder.join foreignKeyScript ∧
        text = useStatement schema ++
          Text.joined "\n\n" (tables.filterMap (·.foreignKeys)) := by
  unfold foreignKeyScripts
  cases htexts : tables.filterMap (·.foreignKeys) with
  | nil => simp
  | cons first more => simp

/-- The names that lead from the root to what is written for a schema. -/
theorem names_of_mem_schemaPlan {path : Path} {text : String}
    (h : .write path text ∈ schemaPlan root schema tables) :
    ∃ names, path = root.below names ∧
      ((∃ table ∈ tables, names = [schema, table.name ++ ".sql"]) ∨
        names = [schema ++ ".sql"] ∨
        names = [schema, foreignKeyScript] ∧ tables.filterMap (·.foreignKeys) ≠ []) := by
  simp only [schemaPlan, List.mem_append, List.mem_cons, List.mem_map, reduceCtorEq, false_or]
    at h
  rcases h with ⟨table, htable, hscript⟩ | hscript | hscript
  · cases hscript
    exact ⟨_, rfl, .inl ⟨table, htable, rfl⟩⟩
  · cases hscript
    exact ⟨_, rfl, .inr (.inl rfl)⟩
  · obtain ⟨hsome, rfl, -⟩ := mem_foreignKeyScripts.mp hscript
    exact ⟨_, rfl, .inr (.inr ⟨rfl, hsome⟩)⟩

/-- The part of a plan for one schema, between the parts for the others. -/
theorem plan_eq_append (root : Path) (h : schema ∈ schemas tables) :
    ∃ (earlier : List Action) (later : List String),
      (∀ other ∈ later, other ≠ schema ∧ other ∈ schemas tables) ∧
      plan root tables =
        earlier ++ schemaPlan root schema (tablesOf schema tables) ++
          later.flatMap fun other => schemaPlan root other (tablesOf other tables) := by
  obtain ⟨earlier, later, hsplit⟩ := List.append_of_mem h
  have hnodup := nodup_schemas tables
  rw [hsplit, List.nodup_append] at hnodup
  have hlater := (List.nodup_cons.mp hnodup.2.1).1
  refine ⟨earlier.flatMap fun other => schemaPlan root other (tablesOf other tables), later,
    fun other hother => ⟨?_, by simp [hsplit, hother]⟩, ?_⟩
  · rintro rfl
    exact hlater hother
  · rw [plan, hsplit, List.flatMap_append, List.flatMap_cons, List.append_assoc]

end DictionaryDdl.Scripts
