import DictionaryDdl.Proofs.Scripts.Plan
import DictionaryDdl.Proofs.Scripts.Running

/-!
What the scripts hold after they were written. Where schemas and tables have plain names, the
scripts of a schema are read back as they were planned, whatever the tree held before: of the
writes that come later none leads to the same file.
-/

namespace DictionaryDdl

namespace Scripts

open DictionaryDdl.Tree

variable {root path : Path} {tables tables' : List CompiledTable} {schema name text : String}
  {names : List String} {tree final : Tree} {before after : List Action} {result : Summary}
  {reason : IoError}

theorem write_eq_ok : write root tables tree = .ok result final ↔
    (plan root tables).forM Action.run tree = .ok () final ∧ result = summary tables := by
  change EStateM.bind ((plan root tables).forM Action.run) (fun _ => EStateM.pure (summary tables))
    tree = _ ↔ _
  unfold EStateM.bind EStateM.pure
  cases (plan root tables).forM Action.run tree with
  | ok _ after => simp [and_comm, eq_comm]
  | error reason after => simp

theorem write_eq_error : write root tables tree = .error reason final ↔
    (plan root tables).forM Action.run tree = .error reason final := by
  change EStateM.bind ((plan root tables).forM Action.run) (fun _ => EStateM.pure (summary tables))
    tree = _ ↔ _
  unfold EStateM.bind EStateM.pure
  cases (plan root tables).forM Action.run tree <;> simp

/-- The text of a file that no later write leads to. -/
theorem readText_of_last_write (hnames : ∀ name ∈ names, Path.IsName name)
    (h : (before ++ .write (root.below names) text :: after).forM Action.run tree = .ok () final)
    (hafter : ∀ path text, .write path text ∈ after → ∃ others, path = root.below others ∧
      (∀ name ∈ others, Path.IsName name) ∧ others ≠ names) :
    final.readText (root.below names) = .ok text := by
  apply readText_of_readBytes
  apply readBytes_of_last_write h
  rintro location ⟨node, hplace⟩ ⟨path, other, hmem, child, hother⟩
  obtain ⟨others, rfl, hothers, hne⟩ := hafter path other hmem
  obtain ⟨above, found, habove, rfl⟩ := follow_below hnames (place_eq_ok.mp hplace).2
  obtain ⟨above', found', habove', hlocation⟩ := follow_below hothers (place_eq_ok.mp hother).2
  cases habove.symm.trans habove'
  exact hne (List.append_cancel_left hlocation).symm

/-- Whether the schemas and the tables have names of files. -/
def Named (tables : List CompiledTable) : Prop :=
  ∀ table ∈ tables, Path.IsName table.schema ∧ Path.IsName table.name

theorem Named.isName (hnamed : Named tables) (h : schema ∈ schemas tables) :
    Path.IsName schema := by
  obtain ⟨table, htable, rfl⟩ := List.mem_map.mp (mem_schemas.mp h)
  exact (hnamed table htable).1

theorem isName_foreignKeyScript : Path.IsName foreignKeyScript := by
  decide

/-- The writes of the plan for a schema lead to names. -/
theorem isName_of_mem_schemaPlan (hnamed : Named tables) (hschema : schema ∈ schemas tables)
    (h : .write path text ∈ schemaPlan root schema (tablesOf schema tables)) :
    ∃ names, path = root.below names ∧ (∀ name ∈ names, Path.IsName name) ∧
      ((∃ file, names = [schema, file]) ∨ names = [schema ++ ".sql"]) := by
  have hname := hnamed.isName hschema
  obtain ⟨names, rfl, ⟨table, htable, rfl⟩ | rfl | ⟨rfl, -⟩⟩ := names_of_mem_schemaPlan h
  · have htable := (hnamed table (mem_tablesOf.mp htable).1).2
    refine ⟨_, rfl, ?_, .inl ⟨_, rfl⟩⟩
    simpa using ⟨hname, Path.isName_append_sql htable.no_slash⟩
  · refine ⟨_, rfl, ?_, .inr rfl⟩
    simpa using Path.isName_append_sql hname.no_slash
  · refine ⟨_, rfl, ?_, .inl ⟨_, rfl⟩⟩
    simpa using ⟨hname, isName_foreignKeyScript⟩

/-- What is written for other schemas does not lead to the files of a schema. -/
theorem ne_of_mem_later (hnamed : Named tables) {later : List String}
    (hlater : ∀ other ∈ later, other ≠ schema ∧ other ∈ schemas tables)
    (h : .write path text ∈ later.flatMap fun other =>
      schemaPlan root other (tablesOf other tables)) :
    ∃ others, path = root.below others ∧ (∀ name ∈ others, Path.IsName name) ∧
      others ≠ [schema ++ ".sql"] ∧ ∀ file, others ≠ [schema, file] := by
  obtain ⟨other, hother, hmem⟩ := List.mem_flatMap.mp h
  obtain ⟨hne, hschema⟩ := hlater other hother
  obtain ⟨others, rfl, hnames, ⟨file, rfl⟩ | rfl⟩ := isName_of_mem_schemaPlan hnamed hschema hmem
  · exact ⟨_, rfl, hnames, by simp, by simp [hne]⟩
  · exact ⟨_, rfl, hnames, by simpa [String.append_left_inj] using hne, by simp⟩

/-- The script of a schema is its header and its tables. -/
theorem readText_schemaScript (hnamed : Named tables) (hschema : schema ∈ schemas tables)
    (h : (plan root tables).forM Action.run tree = .ok () final) :
    final.readText (root.below [schema ++ ".sql"]) =
      .ok (useStatement schema ++
        Text.joined "\n" ((tablesOf schema tables).map (·.createTable))) := by
  obtain ⟨earlier, later, hlater, hplan⟩ := plan_eq_append root hschema
  have hname := hnamed.isName hschema
  have hnames : ∀ name ∈ [schema ++ ".sql"], Path.IsName name := by
    simpa using Path.isName_append_sql hname.no_slash
  have hscript : schemaScript root schema (tablesOf schema tables) =
      .write (root.below [schema ++ ".sql"]) (useStatement schema ++
        Text.joined "\n" ((tablesOf schema tables).map (·.createTable))) := rfl
  rw [hplan, schemaPlan, hscript, ← List.append_assoc, List.append_assoc _ _ (later.flatMap _),
    List.cons_append] at h
  apply readText_of_last_write hnames h
  intro path text hmem
  rcases List.mem_append.mp hmem with hmem | hmem
  · obtain ⟨-, rfl, -⟩ := mem_foreignKeyScripts.mp hmem
    refine ⟨[schema, foreignKeyScript], rfl, ?_, by simp⟩
    simpa using ⟨hname, isName_foreignKeyScript⟩
  · obtain ⟨others, rfl, hothers, hne, -⟩ := ne_of_mem_later hnamed hlater hmem
    exact ⟨others, rfl, hothers, hne⟩

/-- The script of the foreign keys of a schema is its header and the foreign keys of its tables. -/
theorem readText_foreignKeyScript (hnamed : Named tables) (hschema : schema ∈ schemas tables)
    (hsome : (tablesOf schema tables).filterMap (·.foreignKeys) ≠ [])
    (h : (plan root tables).forM Action.run tree = .ok () final) :
    final.readText (root.below [schema, foreignKeyScript]) =
      .ok (useStatement schema ++
        Text.joined "\n\n" ((tablesOf schema tables).filterMap (·.foreignKeys))) := by
  obtain ⟨earlier, later, hlater, hplan⟩ := plan_eq_append root hschema
  have hnames : ∀ name ∈ [schema, foreignKeyScript], Path.IsName name := by
    simpa using ⟨hnamed.isName hschema, isName_foreignKeyScript⟩
  have hscripts : foreignKeyScripts (root.join schema) schema (tablesOf schema tables) =
      [.write (root.below [schema, foreignKeyScript]) (useStatement schema ++
        Text.joined "\n\n" ((tablesOf schema tables).filterMap (·.foreignKeys)))] := by
    unfold foreignKeyScripts
    cases htexts : (tablesOf schema tables).filterMap (·.foreignKeys) with
    | nil => exact absurd htexts hsome
    | cons first more => rfl
  rw [hplan, schemaPlan, hscripts, List.append_cons, ← List.append_assoc, List.append_assoc _ [_] _,
    List.singleton_append] at h
  apply readText_of_last_write hnames h
  intro path text hmem
  obtain ⟨others, rfl, hothers, -, hne⟩ := ne_of_mem_later hnamed hlater hmem
  exact ⟨others, rfl, hothers, hne _⟩

/-- The part of the plan for a schema that comes after the script of a table leads to other
files. -/
theorem ne_of_mem_rest {own rest : List CompiledTable} (hschema : Path.IsName schema)
    (hrest : ∀ other ∈ rest, '/' ∉ other.name.toList ∧ other.name ≠ name)
    (hown : name ++ ".sql" = foreignKeyScript → own.filterMap (·.foreignKeys) = [])
    (h : .write path text ∈ rest.map (tableScript (root.join schema)) ++
      schemaScript root schema own :: foreignKeyScripts (root.join schema) schema own) :
    ∃ others, path = root.below others ∧ (∀ other ∈ others, Path.IsName other) ∧
      others ≠ [schema, name ++ ".sql"] := by
  rcases List.mem_append.mp h with hscript | hscript
  · obtain ⟨other, hother, hwrite⟩ := List.mem_map.mp hscript
    cases hwrite
    obtain ⟨hslash, hne⟩ := hrest other hother
    refine ⟨[schema, other.name ++ ".sql"], rfl, ?_, by simpa [String.append_left_inj] using hne⟩
    simpa using ⟨hschema, Path.isName_append_sql hslash⟩
  rcases List.mem_cons.mp hscript with hwrite | hforeign
  · cases hwrite
    refine ⟨[schema ++ ".sql"], rfl, ?_, by simp⟩
    simpa using Path.isName_append_sql hschema.no_slash
  · obtain ⟨hsome, rfl, -⟩ := mem_foreignKeyScripts.mp hforeign
    refine ⟨[schema, foreignKeyScript], rfl, ?_, fun hsame => ?_⟩
    · simpa using ⟨hschema, isName_foreignKeyScript⟩
    · rw [List.cons_inj_right, List.singleton_inj] at hsame
      exact hsome (hown hsame.symm)

/-- The script of a table is its statement, unless the foreign keys have a script of that name. -/
theorem readText_tableScript {table : CompiledTable} (hnamed : Named tables)
    (hkeys : (tables.map (·.key)).Nodup) (htable : table ∈ tables)
    (hown : table.name ++ ".sql" = foreignKeyScript →
      (tablesOf table.schema tables).filterMap (·.foreignKeys) = [])
    (h : (plan root tables).forM Action.run tree = .ok () final) :
    final.readText (root.below [table.schema, table.name ++ ".sql"]) = .ok table.createTable := by
  have hschema : table.schema ∈ schemas tables := mem_schemas.mpr (List.mem_map_of_mem htable)
  have hname := hnamed.isName hschema
  obtain ⟨earlier, later, hlater, hplan⟩ := plan_eq_append root hschema
  obtain ⟨before, after, hsplit⟩ := List.append_of_mem (mem_tablesOf.mpr ⟨htable, rfl⟩)
  have hnames : ∀ name ∈ [table.schema, table.name ++ ".sql"], Path.IsName name := by
    simpa using ⟨hname, Path.isName_append_sql (hnamed table htable).2.no_slash⟩
  have hrest : ∀ other ∈ after, '/' ∉ other.name.toList ∧ other.name ≠ table.name := by
    have hsorted : (tablesOf table.schema tables).Pairwise (·.name < ·.name) :=
      pairwise_tablesOf hkeys
    rw [hsplit, List.pairwise_append, List.pairwise_cons] at hsorted
    intro other hother
    have hmem : other ∈ tablesOf table.schema tables := by simp [hsplit, hother]
    exact ⟨(hnamed other (mem_tablesOf.mp hmem).1).2.no_slash,
      (hsorted.2.1.1 other hother).ne'⟩
  have hscripts : schemaPlan root table.schema (tablesOf table.schema tables) =
      (.makeFolders (root.join table.schema) ::
          before.map (tableScript (root.join table.schema))) ++
        .write (root.below [table.schema, table.name ++ ".sql"]) table.createTable ::
          (after.map (tableScript (root.join table.schema)) ++
            schemaScript root table.schema (tablesOf table.schema tables) ::
              foreignKeyScripts (root.join table.schema) table.schema
                (tablesOf table.schema tables)) := by
    rw [schemaPlan, hsplit, List.map_append, List.map_cons]
    simp only [List.append_assoc, List.cons_append]
    rfl
  rw [hplan, hscripts, ← List.append_assoc, List.append_assoc _ _ (later.flatMap _),
    List.cons_append] at h
  apply readText_of_last_write hnames h
  intro path text hmem
  rcases List.mem_append.mp hmem with hmem | hmem
  · exact ne_of_mem_rest hname hrest hown hmem
  · obtain ⟨others, rfl, hothers, -, hne⟩ := ne_of_mem_later hnamed hlater hmem
    exact ⟨others, rfl, hothers, hne _⟩

/-- The scripts of foreign keys that are counted are those of the schemas that have some. -/
theorem summary_eq (tables : List CompiledTable) :
    summary tables = {
      databases := (tables.map (·.schema)).dedup.length
      tables := tables.length
      foreignKeyScripts :=
        ((tables.filter (·.foreignKeys.isSome)).map (·.schema)).dedup.length } := by
  have hscripts : ((schemas tables).filter fun schema =>
      (tablesOf schema tables).any (·.foreignKeys.isSome)).Perm
        ((tables.filter (·.foreignKeys.isSome)).map (·.schema)).dedup := by
    rw [List.perm_ext_iff_of_nodup ((nodup_schemas tables).filter _) (List.nodup_dedup _)]
    intro schema
    simp only [List.mem_filter, mem_schemas, List.any_eq_true, mem_tablesOf, List.mem_dedup,
      List.mem_map]
    constructor
    · rintro ⟨-, table, ⟨htable, rfl⟩, hsome⟩
      exact ⟨table, ⟨htable, hsome⟩, rfl⟩
    · rintro ⟨table, ⟨htable, hsome⟩, rfl⟩
      exact ⟨⟨table, htable, rfl⟩, table, ⟨htable, rfl⟩, hsome⟩
  unfold summary
  rw [(schemas_perm_dedup tables).length_eq, List.countP_eq_length_filter, hscripts.length_eq]

/-- What is written depends on the tables, not on their order. Where it could be written, the script
of a schema holds the tables of the schema and the script of its foreign keys theirs, each once and
in the order of their names. -/
theorem write_perm_and_contents (root : Path) (hkeys : (tables.map (·.key)).Nodup)
    (hnamed : Named tables) :
    (∀ tables', tables'.Perm tables → plan root tables' = plan root tables ∧
      ∀ tree, write root tables' tree = write root tables tree) ∧
    ∀ tree result final, write root tables tree = .ok result final →
      (∀ schema ∈ tables.map (·.schema), ∃ own : List CompiledTable,
        own.Perm (tables.filter (·.schema = schema)) ∧ own.Pairwise (·.name < ·.name) ∧
        final.readText (root.join (schema ++ ".sql")) =
          .ok ("USE " ++ Sql.identifier schema ++ ";\n\n" ++
            Text.joined "\n" (own.map (·.createTable))) ∧
        ((∃ table ∈ own, table.foreignKeys.isSome) →
          final.readText ((root.join schema).join foreignKeyScript) =
            .ok ("USE " ++ Sql.identifier schema ++ ";\n\n" ++
              Text.joined "\n\n" (own.filterMap (·.foreignKeys))))) ∧
      result = {
        databases := (tables.map (·.schema)).dedup.length
        tables := tables.length
        foreignKeyScripts :=
          ((tables.filter (·.foreignKeys.isSome)).map (·.schema)).dedup.length } := by
  constructor
  · intro tables' hperm
    have hkeys' : (tables'.map (·.key)).Nodup := (hperm.map _).nodup_iff.mpr hkeys
    have hplan := plan_eq_of_perm root hperm hkeys'
    refine ⟨hplan, fun tree => ?_⟩
    unfold write
    rw [hplan, summary_eq_of_perm hperm hkeys']
  · intro tree result final hwrite
    obtain ⟨hrun, rfl⟩ := write_eq_ok.mp hwrite
    refine ⟨fun schema hschema => ?_, summary_eq tables⟩
    rw [← mem_schemas] at hschema
    refine ⟨tablesOf schema tables, tablesOf_perm schema tables, pairwise_tablesOf hkeys,
      readText_schemaScript hnamed hschema hrun, ?_⟩
    rintro ⟨table, htable, hsome⟩
    refine readText_foreignKeyScript hnamed hschema ?_ hrun
    obtain ⟨statement, hstatement⟩ := Option.isSome_iff_exists.mp hsome
    exact List.ne_nil_of_mem (List.mem_filterMap.mpr ⟨table, htable, hstatement⟩)

/-- Two tables of a schema, of which the one that comes first by its name is given last. -/
def linkedTables : List CompiledTable :=
  [⟨"shop", "b", "CREATE TABLE `b`;", some "ALTER TABLE `b`;"⟩,
    ⟨"shop", "a", "CREATE TABLE `a`;", none⟩]

/-- A tree with an empty folder. -/
def emptyOut : Tree :=
  .folder [("out", .folder [])]

theorem keys_linkedTables : (linkedTables.map (·.key)).Nodup := by
  decide +kernel

theorem schemas_linkedTables : schemas linkedTables = ["shop"] := by
  decide +kernel

theorem tablesOf_linkedTables : tablesOf "shop" linkedTables = linkedTables.reverse := by
  have hall : linkedTables.filter (·.schema = "shop") = linkedTables := by decide +kernel
  refine tablesOf_eq keys_linkedTables ?_ (by decide +kernel)
  rw [hall]
  exact List.reverse_perm _

theorem plan_linkedTables : plan ⟨"out"⟩ linkedTables =
    [.makeFolders ⟨"out/shop"⟩,
      .write ⟨"out/shop/a.sql"⟩ "CREATE TABLE `a`;",
      .write ⟨"out/shop/b.sql"⟩ "CREATE TABLE `b`;",
      .write ⟨"out/shop.sql"⟩ "USE `shop`;\n\nCREATE TABLE `a`;\nCREATE TABLE `b`;",
      .write ⟨"out/shop/__foreign_keys.sql"⟩ "USE `shop`;\n\nALTER TABLE `b`;"] := by
  simp only [plan, schemas_linkedTables, List.flatMap_cons, List.flatMap_nil, List.append_nil,
    tablesOf_linkedTables]
  decide +kernel

theorem summary_linkedTables : summary linkedTables = ⟨1, 2, 1⟩ := by
  simp only [summary, schemas_linkedTables, List.countP_cons, List.countP_nil,
    tablesOf_linkedTables]
  decide +kernel

theorem write_linkedTables :
    ∃ final, write ⟨"out"⟩ linkedTables emptyOut = .ok ⟨1, 2, 1⟩ final := by
  have hrun : Disk.failure? ((plan ⟨"out"⟩ linkedTables).forM Action.run) emptyOut = none := by
    rw [plan_linkedTables]
    decide +kernel
  obtain ⟨⟨⟩, final, hfinal⟩ := Disk.failure?_eq_none.mp hrun
  exact ⟨final, write_eq_ok.mpr ⟨hfinal, summary_linkedTables.symm⟩⟩

theorem write_perm_and_contents_linkedTables :
    (linkedTables.map (·.key)).Nodup ∧ Named linkedTables ∧
      plan ⟨"out"⟩ linkedTables.reverse = plan ⟨"out"⟩ linkedTables ∧
      ∃ final, write ⟨"out"⟩ linkedTables.reverse emptyOut = .ok ⟨1, 2, 1⟩ final ∧
        final.readText ((Path.mk "out").join "shop.sql") =
          .ok "USE `shop`;\n\nCREATE TABLE `a`;\nCREATE TABLE `b`;" ∧
        final.readText (((Path.mk "out").join "shop").join "__foreign_keys.sql") =
          .ok "USE `shop`;\n\nALTER TABLE `b`;" := by
  have hnamed : Named linkedTables := by
    intro table htable
    have hall : linkedTables.all fun table => decide (Path.IsName table.schema ∧
        Path.IsName table.name) := by decide +kernel
    exact of_decide_eq_true (List.all_eq_true.mp hall table htable)
  obtain ⟨hperm, hcontents⟩ := write_perm_and_contents ⟨"out"⟩ keys_linkedTables hnamed
  obtain ⟨hplan, hwrite⟩ := hperm linkedTables.reverse (List.reverse_perm _)
  obtain ⟨final, hfinal⟩ := write_linkedTables
  obtain ⟨hschemas, -⟩ := hcontents emptyOut _ final hfinal
  obtain ⟨own, hown, hsorted, hscript, hforeignKeys⟩ := hschemas "shop" (by decide +kernel)
  obtain rfl : own = linkedTables.reverse := by
    rw [← tablesOf_linkedTables]
    exact (tablesOf_eq keys_linkedTables hown hsorted).symm
  exact ⟨keys_linkedTables, hnamed, hplan, final, (hwrite emptyOut).trans hfinal, hscript,
    hforeignKeys ⟨linkedTables.head (by decide), by decide, rfl⟩⟩

end Scripts

end DictionaryDdl
