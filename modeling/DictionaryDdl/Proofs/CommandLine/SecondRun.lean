import DictionaryDdl.CommandLine.Run
import DictionaryDdl.Proofs.Batch.CompletionOrder
import DictionaryDdl.Proofs.Documents.EachOnce
import DictionaryDdl.Proofs.Documents.Rereading
import DictionaryDdl.Proofs.Scripts.Contents

/-!
Writing the scripts of all documents twice. What is written has the extension of scripts, so no
file of a document is touched, and the second time the same documents are read, the same is
written and it ends in the same way. What the name of a database leads to may change by that,
where it goes up from a folder that was not there before; then other documents are read. Nothing is
said of runs that make a folder which is taken for a document afterwards, because it has the
extension of documents and, seen from a database, a path that is too long to be followed.
-/

namespace DictionaryDdl.Run

open DictionaryDdl.Tree Document Scripts

variable {tree : Tree} {base output path : Path} {name text : String} {location : List String}
  {databases : List String} {tables : List CompiledTable} {catalog : Collation.Catalog}
  {jobs : Nat} {documents : List Document}

/-! ### What is written -/

theorem isNamed_append_sql (name : String) : isNamed (name ++ ".sql") = false := by
  have hcut : Text.cutAt '.' (name ++ ".sql").toList.reverse =
      some (['l', 'q', 's'], name.toList.reverse) := by
    simp [String.toList_append, Text.cutAt]
  unfold isNamed Path.cutName
  rw [hcut]
  cases name.toList.reverse with
  | nil => rfl
  | cons c more =>
      change (Text.asciiLowerCase "sql".toList == Text.asciiLowerCase "sdi".toList) = false
      decide +kernel

theorem path_of_mem_plan (h : .write path text ∈ plan output tables) :
    ∃ (base : Path) (name : String), path = base.join (name ++ ".sql") := by
  obtain ⟨schema, -, hschema⟩ := List.mem_flatMap.mp h
  obtain ⟨names, rfl, hnames⟩ := names_of_mem_schemaPlan hschema
  rcases hnames with ⟨table, -, rfl⟩ | rfl | ⟨rfl, -⟩
  · exact ⟨output.join schema, table.name, rfl⟩
  · exact ⟨output, schema, rfl⟩
  · exact ⟨output.join schema, "__foreign_keys", rfl⟩

theorem last_of_reaches (h : tree.Reaches (base.join (name ++ ".sql")) location) :
    ∃ above last, location = above ++ [last ++ ".sql"] := by
  obtain ⟨node, hplace⟩ := h
  obtain ⟨first, hjoined⟩ := Path.pieces_join base (name ++ ".sql")
  obtain ⟨before, last, hpieces, hlast⟩ := Path.pieces_append_sql name
  have hfollow := (place_eq_ok.mp hplace).2
  rw [hjoined, hpieces, ← List.append_assoc] at hfollow
  obtain ⟨above, entries, habove, hname⟩ := folder_of_follow_append hfollow (by simp)
  obtain ⟨-, hfound⟩ := (follow_singleton_eq_ok (at?_of_follow habove) hlast.ne_empty
    hlast.ne_here hlast.ne_up).mp hname
  refine ⟨above, last, ?_⟩
  split at hfound
  · cases hfound
    rfl
  · cases hfound

/-- Writing the scripts of some tables leaves the files of documents alone. -/
theorem spares_plan (output : Path) (tables : List CompiledTable) (tree : Tree) :
    Spares (Touches (plan output tables) tree) := by
  rintro location name ⟨path, text, hmem, hreaches⟩
  obtain ⟨base, first, rfl⟩ := path_of_mem_plan hmem
  obtain ⟨above, last, hlast⟩ := last_of_reaches hreaches
  rw [List.singleton_inj.mp (List.append_inj' hlast rfl).2]
  exact isNamed_append_sql last

/-! ### One run -/

theorem generate_of_error {reason : AccessError} (compile : List Document → Batch)
    (h : inDatabases tree output databases = .error reason) :
    generate output databases compile tree = .error (.access reason) tree := by
  simp [generate, Disk.look, h, bind, EStateM.bind, Except.mapError]

theorem generate_of_ok (compile : List Document → Batch)
    (h : inDatabases tree output databases = .ok documents) :
    generate output databases compile tree =
      match (plan output (compile documents).tables).forM Action.run tree with
      | .error reason after => .error (.io reason) after
      | .ok _ after =>
          if 0 < (compile documents).failed then
            .error (.compileFailures (compile documents).failed) after
          else .ok "" after := by
  -- The step that writes is seen first, with the summary that it gives back left out.
  have hwrite : (discard <| (write output (compile documents).tables).mapError RunError.io) tree =
      match (plan output (compile documents).tables).forM Action.run tree with
      | .error reason after => .error (.io reason) after
      | .ok _ after => .ok () after := by
    cases hrun : (plan output (compile documents).tables).forM Action.run tree with
    | error reason after =>
        simp [discard, Functor.discard, Functor.mapConst, EStateM.map, Disk.mapError,
          write_eq_error.mpr hrun]
    | ok _ after =>
        simp [discard, Functor.discard, Functor.mapConst, EStateM.map, Disk.mapError,
          write_eq_ok.mpr ⟨hrun, rfl⟩]
  simp only [generate, Disk.look, h, bind, EStateM.bind, Except.mapError, hwrite]
  cases (plan output (compile documents).tables).forM Action.run tree with
  | error reason after => rfl
  | ok _ after =>
      dsimp only
      split_ifs <;> rfl

/-- A run that reads some documents leaves what the actions for their tables leave. -/
theorem treeAfter_generate (compile : List Document → Batch)
    (h : inDatabases tree output databases = .ok documents) :
    Disk.treeAfter (generate output databases compile) tree =
      Disk.treeAfter ((plan output (compile documents).tables).forM Action.run) tree := by
  unfold Disk.treeAfter
  rw [generate_of_ok compile h]
  cases (plan output (compile documents).tables).forM Action.run tree with
  | error reason after => rfl
  | ok _ after =>
      dsimp only
      split_ifs <;> rfl

/-! ### Two runs -/

/-- Documents whose tables are apart come to one batch, in whatever order they are finished. -/
theorem collect_eq_of_yields {results results' : List CompileResult}
    (hkeys : ((documents.filterMap (Batch.tableFrom catalog)).map (·.key)).Nodup)
    (h : Batch.Pool.Yields catalog jobs documents results)
    (h' : Batch.Pool.Yields catalog jobs documents results') :
    Batch.collect results = Batch.collect results' := by
  have hcompletion := Batch.Pool.completion_of_yields h
  have hcompletion' := Batch.Pool.completion_of_yields h'
  refine (Batch.collect_alike hcompletion hcompletion').eq (Batch.collect_tables_eq_iff.mpr ?_)
  intro key
  refine Batch.tablesOf_eq_of_forall hcompletion hcompletion' fun a ha b hb hkey => ?_
  exact List.inj_on_of_nodup_map hkeys ha hb hkey

/-- The same documents are read and no file of a document is touched, where no name of a database
goes up from a folder that is not there. -/
theorem inDatabases_treeAfter (compile : List Document → Batch) (hwf : tree.WellFormed)
    (hanchored : ∀ database ∈ databases, tree.Anchored (output.join database))
    (hnew : TakesNoNewFolders tree (Disk.treeAfter (generate output databases compile) tree) output
      databases)
    (h : inDatabases tree output databases = .ok documents) :
    let first := Disk.treeAfter (generate output databases compile) tree
    (∀ location name content, isNamed name = true →
      (first.at? (location ++ [name]) = some (.file content) ↔
        tree.at? (location ++ [name]) = some (.file content))) ∧
      inDatabases first output databases = .ok documents := by
  intro first
  have hwritten := written_run (plan output (compile documents).tables) tree
  rw [← treeAfter_generate compile h] at hwritten
  have hspares := spares_plan output (compile documents).tables first
  refine ⟨fun location name content hnamed => ?_,
    inDatabases_of_written hspares hwritten hwf hanchored hnew h⟩
  refine hwritten.grown.files _ (fun htouched => ?_) content
  rw [hspares location name htouched] at hnamed
  cases hnamed

/-- A second run right after a first one reads the same documents, leaves the tree as the first run
left it and ends in the same way; the first run has touched no file of a document. The documents
may be finished in different orders, as long as their tables are apart. -/
theorem generate_twice {order order' : List Document → List CompileResult}
    (hwf : tree.WellFormed)
    (hanchored : ∀ database ∈ databases, tree.Anchored (output.join database))
    (hnew : TakesNoNewFolders tree
      (Disk.treeAfter (generate output databases (Batch.collect ∘ order)) tree) output databases)
    (hkeys : ∀ documents, inDatabases tree output databases = .ok documents →
      ((documents.filterMap (Batch.tableFrom catalog)).map (·.key)).Nodup)
    (horder : ∀ documents, Batch.Pool.Yields catalog jobs documents (order documents))
    (horder' : ∀ documents, Batch.Pool.Yields catalog jobs documents (order' documents)) :
    let run := generate output databases (Batch.collect ∘ order)
    let again := generate output databases (Batch.collect ∘ order')
    let first := Disk.treeAfter run tree
    (∀ location name content, isNamed name = true →
      (first.at? (location ++ [name]) = some (.file content) ↔
        tree.at? (location ++ [name]) = some (.file content))) ∧
      inDatabases first output databases = inDatabases tree output databases ∧
      ((∃ text, run tree = .ok text first ∧ again first = .ok text first) ∨
        (∃ reason, run tree = .error reason first ∧ again first = .error reason first) ∨
        ∃ reason reason', run tree = .error (.io reason) first ∧
          again first = .error (.io reason') first) := by
  intro run again first
  cases hread : inDatabases tree output databases with
  | error reason =>
      have hrun : run tree = .error (.access reason) tree := generate_of_error _ hread
      have hfirst : first = tree := by
        change Disk.treeAfter run tree = tree
        rw [Disk.treeAfter, hrun]
      rw [hfirst]
      exact ⟨fun _ _ _ _ => Iff.rfl, hread,
        .inr (.inl ⟨.access reason, hrun, generate_of_error _ hread⟩)⟩
  | ok documents =>
      have hsame : Batch.collect (order' documents) = Batch.collect (order documents) :=
        collect_eq_of_yields (hkeys documents hread) (horder' documents) (horder documents)
      obtain ⟨hspared, hread'⟩ :=
        inDatabases_treeAfter (Batch.collect ∘ order) hwf hanchored hnew hread
      have hrun := generate_of_ok (Batch.collect ∘ order) hread
      have hagain := generate_of_ok (Batch.collect ∘ order') hread'
      have hfirst := treeAfter_generate (Batch.collect ∘ order) hread
      simp only [Function.comp_apply, hsame] at hrun hagain hfirst
      refine ⟨hspared, hread', ?_⟩
      have hactions := run_twice (plan output (Batch.collect (order documents)).tables) tree
      rw [← hfirst] at hactions
      rcases hactions with ⟨hdone, hdone'⟩ | ⟨reason, reason', hfailed, hfailed'⟩
      · rw [hdone] at hrun
        rw [hdone'] at hagain
        by_cases hcount : 0 < (Batch.collect (order documents)).failed
        · exact .inr (.inl ⟨_, hrun.trans (if_pos hcount), hagain.trans (if_pos hcount)⟩)
        · exact .inl ⟨_, hrun.trans (if_neg hcount), hagain.trans (if_neg hcount)⟩
      · rw [hfailed] at hrun
        rw [hfailed'] at hagain
        exact .inr (.inr ⟨reason, reason', hrun, hagain⟩)

/-- The results of some documents in their own order. -/
def inOrder (catalog : Collation.Catalog) (documents : List Document) : List CompileResult :=
  documents.map (Batch.resultOf catalog)

theorem keys_twoDocuments : (([⟨"shop", ⟨"out/shop/a.sdi"⟩, "[]"⟩, secondDocument].filterMap
    (Batch.tableFrom (.ofList [.general]))).map (·.key)).Nodup := by
  have hfirst : Batch.tableFrom (.ofList [.general]) ⟨"shop", ⟨"out/shop/a.sdi"⟩, "[]"⟩ = none :=
    rfl
  rw [List.filterMap_cons_none hfirst, List.filterMap_cons_some tableFrom_secondDocument]
  exact List.nodup_singleton _

theorem plan_bareTable : plan ⟨"out"⟩ [Batch.bareTable "MEMORY"] =
    [.makeFolders ⟨"out/shop"⟩,
      .write ⟨"out/shop/t.sql"⟩ (Batch.bareTable "MEMORY").createTable,
      .write ⟨"out/shop.sql"⟩ (useStatement "shop" ++ (Batch.bareTable "MEMORY").createTable)] := by
  have hschemas : schemas [Batch.bareTable "MEMORY"] = ["shop"] := rfl
  have htables : Scripts.tablesOf "shop" [Batch.bareTable "MEMORY"] =
      [Batch.bareTable "MEMORY"] := List.mergeSort_singleton _
  simp only [plan, hschemas, List.flatMap_cons, List.flatMap_nil, List.append_nil, htables]
  rfl

theorem collect_of_filterMap {results : List CompileResult} {table : CompiledTable}
    (h : results.filterMap Batch.tableOf? = [table]) :
    Batch.collect results =
      ⟨[table], results.countP Batch.isSkipped, results.countP Batch.isFailed⟩ := by
  rw [Batch.collect, h, List.mergeSort_singleton]

/-- The actions for one table, if each does what it is to do. -/
theorem run_scripts {folder table schema : Path} {tableText schemaText : String}
    {made written final : Tree} (hfolder : (Action.makeFolders folder).run tree = .ok () made)
    (htable : made.writeBytes table (Text.octets tableText) = .ok written)
    (hschema : written.writeBytes schema (Text.octets schemaText) = .ok final) :
    [Action.makeFolders folder, .write table tableText, .write schema schemaText].forM Action.run
      tree = .ok () final := by
  rw [run_cons, hfolder]
  dsimp only
  rw [run_cons, run_write_of_writeBytes htable]
  dsimp only
  rw [run_cons, run_write_of_writeBytes hschema]
  rfl

/-- What `twoDocuments` become by the scripts of a table `t` of the schema `shop`. -/
def twoDocumentsAfter (table schema : ByteArray) : Tree :=
  .folder [("out", .folder
    [("shop", .folder
      [("a.sdi", .file (Text.octets "[]")),
        ("b.sdi", .file (Text.octets (Batch.bareDocument "MEMORY").text)),
        ("t.sql", .file table)]),
      ("shop.sql", .file schema)])]

theorem run_twoDocuments (table schema : String) :
    [Action.makeFolders ⟨"out/shop"⟩, .write ⟨"out/shop/t.sql"⟩ table,
        .write ⟨"out/shop.sql"⟩ schema].forM Action.run twoDocuments =
      .ok () (twoDocumentsAfter (Text.octets table) (Text.octets schema)) := by
  have hfolder : (Action.makeFolders ⟨"out/shop"⟩).run twoDocuments = .ok () twoDocuments := by rfl
  have htable (script : ByteArray) : twoDocuments.writeBytes ⟨"out/shop/t.sql"⟩ script =
      .ok (put ["out", "shop", "t.sql"] (.file script) twoDocuments) := by rfl
  have hschema (script last : ByteArray) :
      (put ["out", "shop", "t.sql"] (.file script) twoDocuments).writeBytes ⟨"out/shop.sql"⟩ last =
        .ok (twoDocumentsAfter script last) := by rfl
  exact run_scripts hfolder (htable _) (hschema _ _)

theorem tables_twoDocuments : (Batch.collect (inOrder (.ofList [.general])
    [⟨"shop", ⟨"out/shop/a.sdi"⟩, "[]"⟩, secondDocument])).tables = [Batch.bareTable "MEMORY"] := by
  have hfirst : Batch.resultOf (.ofList [.general]) ⟨"shop", ⟨"out/shop/a.sdi"⟩, "[]"⟩ = .ok none :=
    rfl
  have hsecond : Batch.resultOf (.ofList [.general]) secondDocument =
      .ok (some (Batch.bareTable "MEMORY")) := Batch.resultOf_bareDocument_memory
  have hresults : inOrder (.ofList [.general])
      [⟨"shop", ⟨"out/shop/a.sdi"⟩, "[]"⟩, secondDocument] =
        [.ok none, .ok (some (Batch.bareTable "MEMORY"))] := by
    rw [inOrder, List.map_cons, List.map_singleton, hfirst, hsecond]
  have hcollect : Batch.collect [.ok none, .ok (some (Batch.bareTable "MEMORY"))] =
      ⟨[Batch.bareTable "MEMORY"], _, _⟩ := collect_of_filterMap rfl
  rw [hresults, hcollect]

theorem treeAfter_twoDocuments :
    Disk.treeAfter (generate ⟨"out"⟩ ["shop"] (Batch.collect ∘ inOrder (.ofList [.general])))
        twoDocuments =
      twoDocumentsAfter (Text.octets (Batch.bareTable "MEMORY").createTable)
        (Text.octets (useStatement "shop" ++ (Batch.bareTable "MEMORY").createTable)) := by
  rw [treeAfter_generate _ inDatabases_twoDocuments, Function.comp_apply, tables_twoDocuments,
    plan_bareTable, Disk.treeAfter, run_twoDocuments]

theorem takesNoNewFolders_twoDocuments (table schema : ByteArray) :
    TakesNoNewFolders twoDocuments (twoDocumentsAfter table schema) ⟨"out"⟩ ["shop"] := by
  intro folders hfolders folder hfolder
  have hthere := Discovery.isFolder_of_mem_databaseFolders hfolders hfolder
  have hlisted : Discovery.databaseFolders (twoDocumentsAfter table schema) ⟨"out"⟩ ["shop"] =
      .ok [⟨"out/shop"⟩] := by rfl
  rw [hlisted] at hfolders
  cases hfolders
  obtain rfl := List.mem_singleton.mp hfolder
  have hplace : ∃ entries, (twoDocumentsAfter table schema).place ⟨"out/shop"⟩ =
        .ok (.taken ["out", "shop"] (.folder entries)) ∧
      ∀ entry ∈ entries, entry.2.kind = .file :=
    ⟨_, rfl, by simp [kind]⟩
  obtain ⟨entries, hplace, hfiles⟩ := hplace
  exact takesNoNewFolder_of_followsBelow (followsBelow_of_files hplace hfiles) hthere

theorem generate_twice_twoDocuments :
    twoDocuments.WellFormed ∧
      (∀ database ∈ ["shop"], twoDocuments.Anchored ((Path.mk "out").join database)) ∧
      inDatabases twoDocuments ⟨"out"⟩ ["shop"] =
        .ok [⟨"shop", ⟨"out/shop/a.sdi"⟩, "[]"⟩, secondDocument] ∧
      inDatabases (Disk.treeAfter (generate ⟨"out"⟩ ["shop"]
          (Batch.collect ∘ inOrder (.ofList [.general]))) twoDocuments) ⟨"out"⟩ ["shop"] =
        .ok [⟨"shop", ⟨"out/shop/a.sdi"⟩, "[]"⟩, secondDocument] := by
  have hanchored : ∀ database ∈ ["shop"],
      twoDocuments.Anchored ((Path.mk "out").join database) := by
    simp only [List.forall_mem_singleton]
    exact anchored_of_not_mem (by decide +kernel) _
  have hkeys (documents : List Document)
      (hread : inDatabases twoDocuments ⟨"out"⟩ ["shop"] = .ok documents) :
      ((documents.filterMap (Batch.tableFrom (.ofList [.general]))).map (·.key)).Nodup := by
    rw [inDatabases_twoDocuments] at hread
    cases hread
    exact keys_twoDocuments
  have horder (documents : List Document) :
      Batch.Pool.Yields (.ofList [.general]) 1 documents (inOrder (.ofList [.general]) documents) :=
    Batch.Pool.yields_in_order
  have hnew : TakesNoNewFolders twoDocuments (Disk.treeAfter (generate ⟨"out"⟩ ["shop"]
      (Batch.collect ∘ inOrder (.ofList [.general]))) twoDocuments) ⟨"out"⟩ ["shop"] := by
    rw [treeAfter_twoDocuments]
    exact takesNoNewFolders_twoDocuments _ _
  obtain ⟨-, hread, -⟩ :=
    generate_twice wellFormed_twoDocuments hanchored hnew hkeys horder horder
  exact ⟨wellFormed_twoDocuments, hanchored, inDatabases_twoDocuments,
    hread.trans inDatabases_twoDocuments⟩

/-! ### A name that goes up from a new folder -/

/-- A document in one folder and an empty one in another. -/
def apartFolders (content : ByteArray) : Tree :=
  .folder [("out", .folder
    [("a", .folder [("t.sdi", .file content)]),
      ("b", .folder [("u.sdi", .file (Text.octets ""))])])]

/-- What `apartFolders` become by the scripts of a table `t` of the schema `shop`. -/
def apartFoldersAfter (content table schema : ByteArray) : Tree :=
  .folder [("out", .folder
    [("a", .folder [("t.sdi", .file content)]),
      ("b", .folder [("u.sdi", .file (Text.octets ""))]),
      ("shop", .folder [("t.sql", .file table)]),
      ("shop.sql", .file schema)])]

theorem run_apartFolders (content : ByteArray) (table schema : String) :
    [Action.makeFolders ⟨"out/shop"⟩, .write ⟨"out/shop/t.sql"⟩ table,
        .write ⟨"out/shop.sql"⟩ schema].forM Action.run (apartFolders content) =
      .ok () (apartFoldersAfter content (Text.octets table) (Text.octets schema)) := by
  have hfolder : (Action.makeFolders ⟨"out/shop"⟩).run (apartFolders content) =
      .ok () (put ["out", "shop"] Tree.empty (apartFolders content)) := by rfl
  have htable (script : ByteArray) :
      (put ["out", "shop"] Tree.empty (apartFolders content)).writeBytes ⟨"out/shop/t.sql"⟩ script =
        .ok (put ["out", "shop", "t.sql"] (.file script)
          (put ["out", "shop"] Tree.empty (apartFolders content))) := by rfl
  have hschema (script last : ByteArray) :
      (put ["out", "shop", "t.sql"] (.file script)
        (put ["out", "shop"] Tree.empty (apartFolders content))).writeBytes ⟨"out/shop.sql"⟩ last =
          .ok (apartFoldersAfter content script last) := by rfl
  exact run_scripts hfolder (htable _) (hschema _ _)

/-- The document in a folder that has no other file. -/
theorem inFolder_of_single
    (hplace : tree.place path = .ok (.taken location (.folder [(name, .file (Text.octets text))])))
    (hwanted : Discovery.isWanted extension (path.join name) = true)
    (hfile : tree.readText (path.join name) = .ok text) :
    inFolder tree path = .ok [⟨Discovery.databaseName path, path.join name, text⟩] := by
  have hlisted : (Discovery.filesAmong tree.isFolder path
      [(name, .file (Text.octets text))]).filter (Discovery.isWanted extension) =
        [path.join name] := by
    simp [Discovery.filesAmong, Discovery.filesBelow, hwanted]
  have hdocument : ofFile tree (Discovery.databaseName path) (path.join name) =
      .ok ⟨Discovery.databaseName path, path.join name, text⟩ :=
    ofFile_eq_ok.mpr ⟨text, hfile, rfl⟩
  refine bind_eq_ok.mpr ⟨[path.join name], ?_, mapM_eq_ok.mpr (.cons hdocument .nil)⟩
  rw [Discovery.filesWithExtension_eq hplace, hlisted, Path.sort, List.mergeSort_singleton]

/-- A document of a table, in the first of `apartFolders`. -/
def tableDocument : Document :=
  ⟨"a", ⟨"out/a/t.sdi"⟩, (Batch.bareDocument "MEMORY").text⟩

/-- The document in the second of `apartFolders`, as it is found from the folder of the schema. -/
def lateDocument : Document :=
  ⟨"b", ⟨"out/shop/../b/u.sdi"⟩, ""⟩

theorem inFolder_tableDocument {content : ByteArray}
    (hplace : tree.place ⟨"out/a"⟩ = .ok (.taken ["out", "a"] (.folder [("t.sdi", .file content)])))
    (hfile : tree.place ⟨"out/a/t.sdi"⟩ = .ok (.taken ["out", "a", "t.sdi"] (.file content)))
    (hcontent : content = Text.octets tableDocument.text) :
    inFolder tree ⟨"out/a"⟩ = .ok [tableDocument] := by
  subst hcontent
  exact inFolder_of_single hplace (by decide +kernel)
    (readText_eq_ok.mpr ⟨_, _, hfile, Text.strictText?_octets _⟩)

theorem inDatabases_apartFolders {content : ByteArray}
    (hcontent : content = Text.octets tableDocument.text) :
    inDatabases (apartFolders content) ⟨"out"⟩ ["a", "shop/../b"] = .ok [tableDocument] := by
  have hfolders : Discovery.databaseFolders (apartFolders content) ⟨"out"⟩ ["a", "shop/../b"] =
      .ok [⟨"out/a"⟩] := by rfl
  have hfirst : inFolder (apartFolders content) ⟨"out/a"⟩ = .ok [tableDocument] :=
    inFolder_tableDocument rfl rfl hcontent
  exact bind_eq_ok.mpr ⟨_, hfolders, bind_eq_ok.mpr ⟨_, mapM_eq_ok.mpr (.cons hfirst .nil), rfl⟩⟩

theorem inDatabases_apartFoldersAfter {content : ByteArray}
    (hcontent : content = Text.octets tableDocument.text) (table schema : ByteArray) :
    inDatabases (apartFoldersAfter content table schema) ⟨"out"⟩ ["a", "shop/../b"] =
      .ok [tableDocument, lateDocument] := by
  have hfolders : Discovery.databaseFolders (apartFoldersAfter content table schema) ⟨"out"⟩
      ["a", "shop/../b"] = .ok [⟨"out/a"⟩, ⟨"out/shop/../b"⟩] := by rfl
  have hfirst : inFolder (apartFoldersAfter content table schema) ⟨"out/a"⟩ =
      .ok [tableDocument] := inFolder_tableDocument rfl rfl hcontent
  have hplace : (apartFoldersAfter content table schema).place ⟨"out/shop/../b"⟩ =
      .ok (.taken ["out", "b"] (.folder [("u.sdi", .file (Text.octets ""))])) := by rfl
  have hlast : inFolder (apartFoldersAfter content table schema) ⟨"out/shop/../b"⟩ =
      .ok [lateDocument] :=
    inFolder_of_single hplace (by decide +kernel) (readText_eq_ok.mpr
      ⟨["out", "b", "u.sdi"], _, rfl, Text.strictText?_octets ""⟩)
  exact bind_eq_ok.mpr ⟨_, hfolders,
    bind_eq_ok.mpr ⟨_, mapM_eq_ok.mpr (.cons hfirst (.cons hlast .nil)), rfl⟩⟩

theorem resultOf_tableDocument :
    Batch.resultOf (.ofList [.general]) tableDocument = .ok (some (Batch.bareTable "MEMORY")) :=
  Batch.resultOf_bareDocument_memory

theorem compile_tableDocument : Batch.compile (.ofList [.general]) [tableDocument] =
    ⟨[Batch.bareTable "MEMORY"], 0, 0⟩ := by
  change Batch.collect [Batch.resultOf (.ofList [.general]) tableDocument] = _
  rw [resultOf_tableDocument]
  exact collect_of_filterMap rfl

theorem compile_lateDocument : Batch.compile (.ofList [.general]) [tableDocument, lateDocument] =
    ⟨[Batch.bareTable "MEMORY"], 0, 1⟩ := by
  have hfailure : Batch.resultOf (.ofList [.general]) lateDocument =
      .error (.document .truncated) := rfl
  change Batch.collect [Batch.resultOf (.ofList [.general]) tableDocument,
    Batch.resultOf (.ofList [.general]) lateDocument] = _
  rw [resultOf_tableDocument, hfailure]
  exact collect_of_filterMap rfl

theorem keys_tableDocument :
    (([tableDocument].filterMap (Batch.tableFrom (.ofList [.general]))).map (·.key)).Nodup := by
  have htable : Batch.tableFrom (.ofList [.general]) tableDocument =
      some (Batch.bareTable "MEMORY") := by
    rw [Batch.tableFrom, resultOf_tableDocument]
    rfl
  rw [List.filterMap_cons_some htable]
  exact List.nodup_singleton _

theorem wellFormed_apartFolders (content : ByteArray) : (apartFolders content).WellFormed := by
  simp only [apartFolders, wellFormed_folder, List.forall_mem_cons, List.not_mem_nil,
    false_implies, implies_true, and_true, wellFormed_file, List.map_cons, List.map_nil]
  decide +kernel

/-- The first of `apartFolders` has a table of a schema without a folder yet. Once its scripts are
written, the second one is found by going up from the folder of that schema, and its document
fails. -/
theorem generate_finds_more :
    let tree := apartFolders (Text.octets tableDocument.text)
    let run := generate ⟨"out"⟩ ["a", "shop/../b"] (Batch.compile (.ofList [.general]))
    tree.WellFormed ∧
      inDatabases tree ⟨"out"⟩ ["a", "shop/../b"] = .ok [tableDocument] ∧
      (([tableDocument].filterMap (Batch.tableFrom (.ofList [.general]))).map (·.key)).Nodup ∧
      ∃ after, run tree = .ok "" after ∧
        inDatabases after ⟨"out"⟩ ["a", "shop/../b"] = .ok [tableDocument, lateDocument] ∧
        run after = .error (.compileFailures 1) after := by
  intro tree run
  have hread : inDatabases tree ⟨"out"⟩ ["a", "shop/../b"] = .ok [tableDocument] :=
    inDatabases_apartFolders rfl
  have hwritten := run_apartFolders (Text.octets tableDocument.text)
    (Batch.bareTable "MEMORY").createTable
    (useStatement "shop" ++ (Batch.bareTable "MEMORY").createTable)
  rw [← plan_bareTable] at hwritten
  have hread' := inDatabases_apartFoldersAfter rfl
    (Text.octets (Batch.bareTable "MEMORY").createTable)
    (Text.octets (useStatement "shop" ++ (Batch.bareTable "MEMORY").createTable))
  have hrun := generate_of_ok (Batch.compile (.ofList [.general])) hread
  have hagain := generate_of_ok (Batch.compile (.ofList [.general])) hread'
  rw [compile_tableDocument, hwritten] at hrun
  rw [compile_lateDocument, run_again hwritten (.refl _ _)] at hagain
  exact ⟨wellFormed_apartFolders _, hread, keys_tableDocument, _, hrun, hread', hagain⟩

end DictionaryDdl.Run
