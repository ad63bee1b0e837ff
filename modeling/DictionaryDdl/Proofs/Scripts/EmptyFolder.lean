import DictionaryDdl.Proofs.Scripts.Contents

/-!
Writing scripts into an empty folder. The folders of the schemas, the scripts of the schemas and
the scripts of the tables share one folder, so nothing stands in the way as long as no schema has
the name of another one's script. Then all scripts can be written, and every table is found in its
own one, unless the script of the foreign keys of its schema has the same name.
-/

namespace DictionaryDdl.Scripts

open DictionaryDdl.Tree

variable {root : Path} {base names dir : List String} {tables own : List CompiledTable}
  {schema name file text : String} {tree next final : Tree} {actions : List Action} {node : Tree}

/-- Whether no schema has the name of the script of another one. -/
def Apart (tables : List CompiledTable) : Prop :=
  ∀ a ∈ tables, ∀ b ∈ tables, a.schema ≠ b.schema ++ ".sql"

/-- The names of the folder of a schema. -/
def IsFolderOf (tables : List CompiledTable) (names : List String) : Prop :=
  ∃ schema ∈ schemas tables, names = [schema]

/-- The names of a script. -/
def IsScriptOf (tables : List CompiledTable) (names : List String) : Prop :=
  ∃ schema ∈ schemas tables, names = [schema ++ ".sql"] ∨ ∃ file, names = [schema, file]

theorem Apart.not_script_of_folder (hapart : Apart tables) (hfolder : IsFolderOf tables names) :
    ¬ IsScriptOf tables names := by
  rintro ⟨other, hother, hscript⟩
  obtain ⟨schema, hschema, rfl⟩ := hfolder
  obtain ⟨a, ha, rfl⟩ := List.mem_map.mp (mem_schemas.mp hschema)
  obtain ⟨b, hb, rfl⟩ := List.mem_map.mp (mem_schemas.mp hother)
  rcases hscript with hscript | ⟨file, hscript⟩
  · exact hapart a ha b hb (List.singleton_inj.mp hscript)
  · simp at hscript

/-- A tree in which the scripts of some tables can be written below a path: the path leads to a
folder, no file is in the place of a folder below it, and no folder in the place of a script. -/
structure Ready (root : Path) (base : List String) (tables : List CompiledTable) (tree : Tree) :
    Prop where
  root : ∃ entries, tree.place root = .ok (.taken base (.folder entries))
  folders : ∀ names, IsFolderOf tables names → tree.kindAt (base ++ names) ≠ some .file
  scripts : ∀ names, IsScriptOf tables names → tree.kindAt (base ++ names) ≠ some .folder

/-- Whether a file or a folder is what belongs to some names. -/
def Fits (tables : List CompiledTable) (names : List String) : Kind → Prop
  | .file => IsScriptOf tables names
  | .folder => IsFolderOf tables names

theorem Ready.put_leaf (hready : Ready root base tables tree) (hapart : Apart tables)
    (hroom : tree.Room (base ++ names)) (hleaf : node.IsLeaf)
    (hgrown : Grown (· = base ++ names) tree (put (base ++ names) node tree))
    (hfits : Fits tables names node.kind) :
    Ready root base tables (put (base ++ names) node tree) := by
  have hother (others : List String) (hne : others ≠ names) :
      (put (base ++ names) node tree).kindAt (base ++ others) = tree.kindAt (base ++ others) :=
    (hroom.put_leaf_of_ne hleaf fun heq => hne (List.append_cancel_left heq)).1
  have hself : (put (base ++ names) node tree).kindAt (base ++ names) = some node.kind := by
    rw [kindAt, at?_put_self]
    rfl
  obtain ⟨entries, hroot⟩ := hready.root
  refine ⟨place_folder_of_grown hgrown hroot, fun others hothers => ?_, fun others hothers => ?_⟩
  · by_cases hne : others = names
    · subst hne
      rw [hself]
      intro hfile
      rw [Option.some.inj hfile] at hfits
      exact hapart.not_script_of_folder hothers hfits
    · rw [hother others hne]
      exact hready.folders others hothers
  · by_cases hne : others = names
    · subst hne
      rw [hself]
      intro hfolder
      rw [Option.some.inj hfolder] at hfits
      exact hapart.not_script_of_folder hfits hothers
    · rw [hother others hne]
      exact hready.scripts others hothers

/-- A path of a folder or of a script that goes down from a folder. -/
theorem Ready.follow_below (hready : Ready root base tables tree)
    (hdir : ∀ name ∈ dir, IsEntryName name) (hfolder : tree.kindAt (base ++ dir) = some .folder) :
    ∃ entries, follow tree [] (root.below dir).pieces =
      .ok (.taken (base ++ dir) (.folder entries)) := by
  obtain ⟨entries, hroot⟩ := hready.root
  obtain ⟨inner, hinner⟩ := kindAt_eq_folder.mp hfolder
  have hbase := at?_of_place hroot
  rw [at?_append, hbase, Option.bind_some] at hinner
  exact ⟨inner, follow_below_of_at? hdir (place_eq_ok.mp hroot).2 hinner⟩

theorem Ready.run_write (text : String) (hready : Ready root base tables tree)
    (hapart : Apart tables) (hdir : ∀ name ∈ dir, IsEntryName name)
    (hfolder : tree.kindAt (base ++ dir) = some .folder)
    (hname : IsEntryName name) (hlegal : ((root.below dir).join name).IsLegal)
    (hscript : IsScriptOf tables (dir ++ [name])) :
    ∃ next, (Action.write ((root.below dir).join name) text).run tree = .ok () next ∧
      Ready root base tables next := by
  obtain ⟨entries, hplace⟩ := hready.follow_below hdir hfolder
  have hfree := hready.scripts _ hscript
  rw [← List.append_assoc] at hfree
  obtain ⟨hroom, hwrite⟩ := writeBytes_join (Text.octets text) hname hlegal hplace hfree
  have hgrown := hroom.grown_file (Text.octets text)
  rw [List.append_assoc] at hroom hgrown hwrite
  refine ⟨_, ?_, hready.put_leaf hapart hroom (isLeaf_file _) hgrown hscript⟩
  simp [Action.run, Disk.writeText, Disk.write, Disk.ofStep, hwrite]

theorem Ready.run_makeFolders (hready : Ready root base tables tree) (hapart : Apart tables)
    (hschema : schema ∈ schemas tables) (hname : IsEntryName schema)
    (hlegal : (root.join schema).IsLegal) :
    ∃ next, (Action.makeFolders (root.join schema)).run tree = .ok () next ∧
      Ready root base tables next ∧ next.kindAt (base ++ [schema]) = some .folder := by
  obtain ⟨entries, hroot⟩ := hready.root
  have hfits : IsFolderOf tables [schema] := ⟨schema, hschema, rfl⟩
  obtain ⟨next, hensure, hnext, hfolder⟩ :=
    ensureFolder_join hname hlegal (place_eq_ok.mp hroot).2 (hready.folders _ hfits)
  refine ⟨next, Disk.makeFolders_of_ensureFolder hensure, ?_, hfolder⟩
  rcases hnext with rfl | ⟨hfree, rfl⟩
  · exact hready
  · have hroom : tree.Room (base ++ [schema]) :=
      ⟨base, schema, rfl, kindAt_eq_folder.mpr ⟨entries, at?_of_place hroot⟩,
        by simp [hfree], fun _ => hname⟩
    exact hready.put_leaf hapart hroom isLeaf_empty
      ((hroom.grown_folder hfree).mono fun _ => False.elim) hfits

/-- A script of a schema that can be written once the folder of the schema is there. -/
def IsWritable (root : Path) (tables : List CompiledTable) (schema : String) (action : Action) :
    Prop :=
  ∃ dir name text, action = .write ((root.below dir).join name) text ∧ (dir = [] ∨ dir = [schema]) ∧
    IsEntryName name ∧ ((root.below dir).join name).IsLegal ∧ IsScriptOf tables (dir ++ [name])

theorem Ready.run_writes (hready : Ready root base tables tree) (hapart : Apart tables)
    (hschema : IsEntryName schema) (hfolder : tree.kindAt (base ++ [schema]) = some .folder)
    (hactions : ∀ action ∈ actions, IsWritable root tables schema action) :
    ∃ final, actions.forM Action.run tree = .ok () final ∧ Ready root base tables final := by
  induction actions generalizing tree with
  | nil => exact ⟨tree, rfl, hready⟩
  | cons action more ih =>
      obtain ⟨dir, name, text, rfl, hdir, hname, hlegal, hscript⟩ :=
        hactions action List.mem_cons_self
      have hdirs : (∀ name ∈ dir, IsEntryName name) ∧ tree.kindAt (base ++ dir) = some .folder := by
        rcases hdir with rfl | rfl
        · obtain ⟨entries, hroot⟩ := hready.root
          refine ⟨by simp, kindAt_eq_folder.mpr ⟨entries, ?_⟩⟩
          rw [List.append_nil]
          exact at?_of_place hroot
        · exact ⟨by simpa using hschema, hfolder⟩
      obtain ⟨next, hnext, hready'⟩ :=
        hready.run_write text hapart hdirs.1 hdirs.2 hname hlegal hscript
      have hkinds := (run_action_eq_ok hnext).1.grown.kinds
      obtain ⟨final, hfinal, hready''⟩ := ih hready' (hkinds _ _ hfolder)
        fun other hother => hactions other (List.mem_cons_of_mem _ hother)
      exact ⟨final, by rw [run_cons, hnext]; exact hfinal, hready''⟩

/-- A name that leaves room for the extension and for a path before it. -/
structure IsPlain (name : String) : Prop extends Path.IsName name where
  no_nul : '\x00' ∉ name.toList
  short : name.utf8ByteSize ≤ 200

instance (name : String) : Decidable (IsPlain name) :=
  decidable_of_iff (Path.IsName name ∧ '\x00' ∉ name.toList ∧ name.utf8ByteSize ≤ 200)
    ⟨fun ⟨hname, hnul, hshort⟩ => ⟨hname, hnul, hshort⟩, fun h => ⟨h.toIsName, h.no_nul, h.short⟩⟩

theorem IsPlain.isEntryName (h : IsPlain name) : IsEntryName name :=
  ⟨h.toIsName, h.no_nul, h.short.trans (by decide)⟩

theorem utf8ByteSize_append_sql (name : String) :
    (name ++ ".sql").utf8ByteSize = name.utf8ByteSize + 4 := by
  rw [String.utf8ByteSize_append]
  rfl

theorem IsPlain.isEntryName_sql (h : IsPlain name) : IsEntryName (name ++ ".sql") := by
  have hnul : '\x00' ∉ ".sql".toList := by decide
  refine ⟨Path.isName_append_sql h.no_slash, ?_, ?_⟩
  · rw [String.toList_append, List.mem_append, not_or]
    exact ⟨h.no_nul, hnul⟩
  · have hshort := h.short
    rw [utf8ByteSize_append_sql, longestName]
    omega

theorem isPlain_foreignKeys : IsPlain "__foreign_keys" :=
  ⟨by decide, by decide, by decide⟩

theorem Ready.isLegal (hready : Ready root base tables tree) : root.IsLegal := by
  obtain ⟨entries, hroot⟩ := hready.root
  exact (place_eq_ok.mp hroot).1

/-- Whether the schemas and tables have plain names, and the path of the folder that the scripts are
written to leaves room for two of them. -/
structure Plain (root : Path) (tables : List CompiledTable) : Prop where
  names : ∀ table ∈ tables, IsPlain table.schema ∧ IsPlain table.name
  room : root.text.utf8ByteSize + (1 + 200) + (1 + 204) ≤ longestPath

theorem Plain.isPlain (hplain : Plain root tables) (h : schema ∈ schemas tables) :
    IsPlain schema := by
  obtain ⟨table, htable, rfl⟩ := List.mem_map.mp (mem_schemas.mp h)
  exact (hplain.names table htable).1

theorem Plain.isLegal_folder (hplain : Plain root tables) (hroot : root.IsLegal)
    (hschema : IsPlain schema) : (root.join schema).IsLegal := by
  apply isLegal_join hroot hschema.isEntryName
  have hsize := utf8ByteSize_join_le root schema
  have hshort := hschema.short
  have hroom := hplain.room
  omega

theorem Plain.isLegal_script (hplain : Plain root tables) (hroot : root.IsLegal)
    (hschema : IsPlain schema) (hname : IsPlain name) :
    ((root.join schema).join (name ++ ".sql")).IsLegal ∧ (root.join (name ++ ".sql")).IsLegal := by
  have hfolder := utf8ByteSize_join_le root schema
  have hscript := utf8ByteSize_join_le (root.join schema) (name ++ ".sql")
  have hscript' := utf8ByteSize_join_le root (name ++ ".sql")
  have hsize := utf8ByteSize_append_sql name
  have hshort := hschema.short
  have hshort' := hname.short
  have hroom := hplain.room
  constructor
  · apply isLegal_join (hplain.isLegal_folder hroot hschema) hname.isEntryName_sql
    omega
  · apply isLegal_join hroot hname.isEntryName_sql
    omega

theorem Plain.isWritable {path : Path} (hplain : Plain root tables) (hroot : root.IsLegal)
    (hschema : schema ∈ schemas tables)
    (h : .write path text ∈ schemaPlan root schema (tablesOf schema tables)) :
    IsWritable root tables schema (.write path text) := by
  have hname := hplain.isPlain hschema
  obtain ⟨names, rfl, ⟨table, htable, rfl⟩ | rfl | ⟨rfl, -⟩⟩ := names_of_mem_schemaPlan h
  · have htable := (hplain.names table (mem_tablesOf.mp htable).1).2
    exact ⟨[schema], table.name ++ ".sql", text, rfl, .inr rfl, htable.isEntryName_sql,
      (hplain.isLegal_script hroot hname htable).1, schema, hschema, .inr ⟨_, rfl⟩⟩
  · exact ⟨[], schema ++ ".sql", text, rfl, .inl rfl, hname.isEntryName_sql,
      (hplain.isLegal_script hroot hname hname).2, schema, hschema, .inl rfl⟩
  · exact ⟨[schema], foreignKeyScript, text, rfl, .inr rfl, isPlain_foreignKeys.isEntryName_sql,
      (hplain.isLegal_script hroot hname isPlain_foreignKeys).1, schema, hschema, .inr ⟨_, rfl⟩⟩

theorem exists_write_of_mem {folder : Path} {action : Action}
    (h : action ∈ own.map (tableScript folder) ++
      schemaScript root schema own :: foreignKeyScripts folder schema own) :
    ∃ path text, action = .write path text := by
  cases action with
  | write path text => exact ⟨path, text, rfl⟩
  | makeFolders path =>
      rcases List.mem_append.mp h with h | h
      · obtain ⟨table, -, hscript⟩ := List.mem_map.mp h
        cases hscript
      · rcases List.mem_cons.mp h with h | h
        · cases h
        · unfold foreignKeyScripts at h
          split at h
          · simp at h
          · simp at h

theorem Ready.run_schemaPlan (hready : Ready root base tables tree) (hapart : Apart tables)
    (hplain : Plain root tables) (hschema : schema ∈ schemas tables) :
    ∃ final, (schemaPlan root schema (tablesOf schema tables)).forM Action.run tree =
      .ok () final ∧ Ready root base tables final := by
  have hname := hplain.isPlain hschema
  obtain ⟨next, hnext, hready', hfolder⟩ := hready.run_makeFolders hapart hschema
    hname.isEntryName (hplain.isLegal_folder hready.isLegal hname)
  have hwritable : ∀ action ∈ (tablesOf schema tables).map (tableScript (root.join schema)) ++
      schemaScript root schema (tablesOf schema tables) ::
        foreignKeyScripts (root.join schema) schema (tablesOf schema tables),
      IsWritable root tables schema action := by
    intro action haction
    obtain ⟨path, text, rfl⟩ := exists_write_of_mem haction
    exact hplain.isWritable hready.isLegal hschema (List.mem_cons_of_mem _ haction)
  obtain ⟨final, hfinal, hready''⟩ :=
    hready'.run_writes hapart hname.isEntryName hfolder hwritable
  refine ⟨final, ?_, hready''⟩
  rw [schemaPlan, List.cons_append, run_cons, hnext]
  exact hfinal

theorem Ready.run_plan (hready : Ready root base tables tree) (hapart : Apart tables)
    (hplain : Plain root tables) :
    ∃ final, (plan root tables).forM Action.run tree = .ok () final ∧
      Ready root base tables final := by
  have hrun (names : List String) (hnames : ∀ schema ∈ names, schema ∈ schemas tables) :
      ∃ final, (names.flatMap fun schema =>
          schemaPlan root schema (tablesOf schema tables)).forM Action.run tree = .ok () final ∧
        Ready root base tables final := by
    induction names generalizing tree with
    | nil => exact ⟨tree, rfl, hready⟩
    | cons schema more ih =>
        obtain ⟨next, hnext, hready'⟩ :=
          hready.run_schemaPlan hapart hplain (hnames schema List.mem_cons_self)
        obtain ⟨final, hfinal, hready''⟩ :=
          ih hready' fun other hother => hnames other (List.mem_cons_of_mem schema hother)
        exact ⟨final, by rw [List.flatMap_cons, run_append_of_eq_ok hnext]; exact hfinal, hready''⟩
  exact hrun (schemas tables) fun _ => id

theorem ready_of_empty (h : tree.place root = .ok (.taken base (.folder []))) :
    Ready root base tables tree := by
  have hnone (names : List String) (hne : names ≠ []) : tree.kindAt (base ++ names) = none := by
    rw [kindAt_append_of_at? (at?_of_place h), kindAt]
    exact congrArg (Option.map kind) (at?_empty_of_ne_nil hne)
  refine ⟨⟨[], h⟩, ?_, ?_⟩
  · rintro names ⟨schema, -, rfl⟩
    simp [hnone]
  · rintro names ⟨schema, -, rfl | ⟨file, rfl⟩⟩
    · simp [hnone]
    · simp [hnone]

/-- The scripts of tables with plain names that are apart are all written into an empty folder, and
a table is found in its own one, unless it has the name of the script of the foreign keys of its
schema. -/
theorem write_into_empty (hroot : tree.entriesAt root = .ok []) (hplain : Plain root tables)
    (hkeys : (tables.map (·.key)).Nodup) (hapart : Apart tables) :
    ∃ final, write root tables tree = .ok (summary tables) final ∧
      ∀ table ∈ tables, (table.name = "__foreign_keys" →
          ∀ other ∈ tables, other.schema = table.schema → other.foreignKeys = none) →
        final.readText ((root.join table.schema).join (table.name ++ ".sql")) =
          .ok table.createTable := by
  obtain ⟨base, hbase⟩ := entriesAt_eq_ok.mp hroot
  obtain ⟨final, hfinal, -⟩ := (ready_of_empty hbase).run_plan hapart hplain
  refine ⟨final, write_eq_ok.mpr ⟨hfinal, rfl⟩, fun table htable hown => ?_⟩
  have hnamed : Named tables := fun other hother =>
    ⟨(hplain.names other hother).1.toIsName, (hplain.names other hother).2.toIsName⟩
  refine readText_tableScript hnamed hkeys htable (fun hname => ?_) hfinal
  rw [List.filterMap_eq_nil_iff]
  intro other hother
  obtain ⟨hmem, hschema⟩ := mem_tablesOf.mp hother
  exact hown ((String.append_left_inj ".sql").mp hname) other hmem hschema

theorem write_into_empty_linkedTables :
    emptyOut.entriesAt ⟨"out"⟩ = .ok [] ∧ Plain ⟨"out"⟩ linkedTables ∧
      (linkedTables.map (·.key)).Nodup ∧ Apart linkedTables ∧
      ∃ final, write ⟨"out"⟩ linkedTables emptyOut = .ok (summary linkedTables) final ∧
        final.readText (((Path.mk "out").join "shop").join "a.sql") = .ok "CREATE TABLE `a`;" := by
  have hroot : emptyOut.entriesAt ⟨"out"⟩ = .ok [] := by rfl
  have hplain : Plain ⟨"out"⟩ linkedTables := ⟨by decide +kernel, by decide +kernel⟩
  have hapart : Apart linkedTables := by
    unfold Apart
    decide +kernel
  obtain ⟨final, hfinal, hscripts⟩ := write_into_empty hroot hplain keys_linkedTables hapart
  exact ⟨hroot, hplain, keys_linkedTables, hapart, final, hfinal,
    hscripts ⟨"shop", "a", "CREATE TABLE `a`;", none⟩ (by decide +kernel) (by decide +kernel)⟩

/-- A schema with the name of the script of another one. -/
def nestedSchemas : List CompiledTable :=
  [⟨"a", "t", "CREATE TABLE `t`;", none⟩, ⟨"a.sql", "t", "CREATE TABLE `t`;", none⟩]

theorem keys_nestedSchemas : (nestedSchemas.map (·.key)).Nodup := by
  decide +kernel

theorem plan_nestedSchemas : plan ⟨"out"⟩ nestedSchemas =
    [.makeFolders ⟨"out/a"⟩, .write ⟨"out/a/t.sql"⟩ "CREATE TABLE `t`;",
      .write ⟨"out/a.sql"⟩ "USE `a`;\n\nCREATE TABLE `t`;", .makeFolders ⟨"out/a.sql"⟩,
      .write ⟨"out/a.sql/t.sql"⟩ "CREATE TABLE `t`;",
      .write ⟨"out/a.sql.sql"⟩ "USE `a.sql`;\n\nCREATE TABLE `t`;"] := by
  have hschemas : schemas nestedSchemas = ["a", "a.sql"] := by decide +kernel
  have hfirst : tablesOf "a" nestedSchemas = [nestedSchemas.head (by decide)] :=
    tablesOf_eq keys_nestedSchemas (.of_eq (by decide +kernel)) (List.pairwise_singleton _ _)
  have hlast : tablesOf "a.sql" nestedSchemas = [nestedSchemas.getLast (by decide)] :=
    tablesOf_eq keys_nestedSchemas (.of_eq (by decide +kernel)) (List.pairwise_singleton _ _)
  simp only [plan, hschemas, List.flatMap_cons, List.flatMap_nil, List.append_nil, hfirst, hlast]
  decide +kernel

theorem write_nestedSchemas :
    ∃ final, write ⟨"out"⟩ nestedSchemas emptyOut = .error .alreadyExists final := by
  have hrun : Disk.failure? ((plan ⟨"out"⟩ nestedSchemas).forM Action.run) emptyOut =
      some .alreadyExists := by
    rw [plan_nestedSchemas]
    decide +kernel
  obtain ⟨final, hfinal⟩ := Disk.failure?_eq_some.mp hrun
  exact ⟨final, write_eq_error.mpr hfinal⟩

/-- A table with the name of the script of the foreign keys of its schema. -/
def hiddenTable : List CompiledTable :=
  [⟨"shop", "__foreign_keys", "CREATE TABLE `__foreign_keys`;", none⟩,
    ⟨"shop", "t", "CREATE TABLE `t`;", some "ALTER TABLE `t`;"⟩]

theorem keys_hiddenTable : (hiddenTable.map (·.key)).Nodup := by
  decide +kernel

theorem write_hiddenTable (hplain : Plain ⟨"out"⟩ hiddenTable) :
    ∃ final, write ⟨"out"⟩ hiddenTable emptyOut = .ok (summary hiddenTable) final ∧
      final.readText (((Path.mk "out").join "shop").join "__foreign_keys.sql") =
        .ok "USE `shop`;\n\nALTER TABLE `t`;" := by
  have hroot : emptyOut.place ⟨"out"⟩ = .ok (.taken ["out"] (.folder [])) := by rfl
  have hapart : Apart hiddenTable := by
    unfold Apart
    decide +kernel
  have htables : tablesOf "shop" hiddenTable = hiddenTable :=
    tablesOf_eq keys_hiddenTable (.of_eq (by decide +kernel)) (by decide +kernel)
  obtain ⟨final, hfinal, -⟩ := (ready_of_empty hroot).run_plan hapart hplain
  have hnamed : Named hiddenTable := fun table htable =>
    ⟨(hplain.names table htable).1.toIsName, (hplain.names table htable).2.toIsName⟩
  have hschema : "shop" ∈ schemas hiddenTable := by decide +kernel
  have hscript := readText_foreignKeyScript hnamed hschema (by rw [htables]; decide) hfinal
  rw [htables] at hscript
  exact ⟨final, write_eq_ok.mpr ⟨hfinal, rfl⟩, hscript⟩

/-- Without those two conditions a table may be missing or its script may hold another text. -/
theorem write_into_empty_of_clash :
    Plain ⟨"out"⟩ nestedSchemas ∧ (nestedSchemas.map (·.key)).Nodup ∧
      (∃ final, write ⟨"out"⟩ nestedSchemas emptyOut = .error .alreadyExists final) ∧
      Plain ⟨"out"⟩ hiddenTable ∧ (hiddenTable.map (·.key)).Nodup ∧
      ∃ final, write ⟨"out"⟩ hiddenTable emptyOut = .ok (summary hiddenTable) final ∧
        final.readText (((Path.mk "out").join "shop").join "__foreign_keys.sql") =
          .ok "USE `shop`;\n\nALTER TABLE `t`;" := by
  have hplain : Plain ⟨"out"⟩ hiddenTable := ⟨by decide +kernel, by decide +kernel⟩
  exact ⟨⟨by decide +kernel, by decide +kernel⟩, keys_nestedSchemas, write_nestedSchemas, hplain,
    keys_hiddenTable, write_hiddenTable hplain⟩

end DictionaryDdl.Scripts
