import DictionaryDdl.Proofs.Documents.Isolation
import DictionaryDdl.Proofs.Files.Finding

/-!
How often a file is read. A folder is read as often as it is named, and the files below it with it,
so a file is read at most once exactly when no two of the folders that are read have a document in
common. Where no database is named the folders are found in one folder and have nothing in common.
That the names given differ is not enough, because one may lead into the folder of another.
-/

namespace DictionaryDdl.Document

open DictionaryDdl.Tree Discovery

variable {tree : Tree} {root folder folder' : Path} {databases : List String}
  {folders : List Path} {document document' : Document} {documents : List Document}

/-- A document that is read is in a file found below its folder, and its path leads there. -/
theorem finds_of_mem_inFolder (hwf : tree.WellFormed) (h : inFolder tree folder = .ok documents)
    (hdocument : document ∈ documents) :
    ∃ location, Finds extension tree folder document.path location ∧
      tree.Reaches document.path location := by
  obtain ⟨files, hfiles, hread⟩ := bind_eq_ok.mp h
  obtain ⟨path, hpath, hfile⟩ := exists_of_mem_mapM hread hdocument
  obtain ⟨text, htext, rfl⟩ := ofFile_eq_ok.mp hfile
  obtain ⟨place, content, hplace, -⟩ := readText_eq_ok.mp htext
  obtain ⟨location, hfinds⟩ := (mem_filesWithExtension hwf hfiles).mp hpath
  obtain ⟨found, hfound⟩ := hfinds.1.place hwf (place_eq_ok.mp hplace).1
  exact ⟨location, hfinds, _, hfound⟩

/-- Every file found below a folder is read. -/
theorem exists_of_finds {path : Path} {location : List String} (hwf : tree.WellFormed)
    (h : inFolder tree folder = .ok documents)
    (hfinds : Finds extension tree folder path location) :
    ∃ document ∈ documents, document.path = path ∧ tree.Reaches document.path location := by
  obtain ⟨files, hfiles, hread⟩ := bind_eq_ok.mp h
  have hpath := (mem_filesWithExtension hwf hfiles).mpr ⟨location, hfinds⟩
  have hpaths : documents.map (·.path) = files.map id := by
    refine map_of_mapM_eq_ok (fun path document hfile => ?_) hread
    obtain ⟨text, -, rfl⟩ := ofFile_eq_ok.mp hfile
    rfl
  rw [List.map_id] at hpaths
  rw [← hpaths] at hpath
  obtain ⟨document, hdocument, rfl⟩ := List.mem_map.mp hpath
  obtain ⟨found, hfound, hreaches⟩ := finds_of_mem_inFolder hwf h hdocument
  rw [hfound.1.unique hwf hfinds.1] at hreaches
  exact ⟨document, hdocument, rfl, hreaches⟩

/-- In one folder every file is read once. -/
theorem pairwise_inFolder (hwf : tree.WellFormed) (h : inFolder tree folder = .ok documents) :
    documents.Pairwise fun document document' =>
      ¬ tree.SameFile document.path document'.path := by
  have hpaths : (documents.map (·.path)).Nodup := by
    obtain ⟨files, hfiles, hread⟩ := bind_eq_ok.mp h
    rw [map_of_mapM_eq_ok (g := id) (fun path document hfile => ?_) hread, List.map_id]
    · exact nodup_filesWithExtension hwf hfiles
    · obtain ⟨text, -, rfl⟩ := ofFile_eq_ok.mp hfile
      rfl
  refine (List.pairwise_map.mp hpaths).imp_of_mem ?_
  rintro document document' hdocument hdocument' hne ⟨location, hfirst, hsecond⟩
  obtain ⟨place, hfinds, hreaches⟩ := finds_of_mem_inFolder hwf h hdocument
  obtain ⟨place', hfinds', hreaches'⟩ := finds_of_mem_inFolder hwf h hdocument'
  obtain rfl := hfirst.unique hreaches
  obtain rfl := hsecond.unique hreaches'
  exact hne (hfinds.1.path_unique hfinds'.1)

/-- Two folders have a document in common when the same file is read in both. -/
theorem shares_iff_sameFile {documents' : List Document} (hwf : tree.WellFormed)
    (h : inFolder tree folder = .ok documents) (h' : inFolder tree folder' = .ok documents') :
    Shares extension tree folder folder' ↔ ∃ document ∈ documents, ∃ document' ∈ documents',
      tree.SameFile document.path document'.path := by
  constructor
  · rintro ⟨path, path', location, hfinds, hfinds'⟩
    obtain ⟨document, hdocument, -, hreaches⟩ := exists_of_finds hwf h hfinds
    obtain ⟨document', hdocument', -, hreaches'⟩ := exists_of_finds hwf h' hfinds'
    exact ⟨document, hdocument, document', hdocument', location, hreaches, hreaches'⟩
  · rintro ⟨document, hdocument, document', hdocument', location, hfirst, hsecond⟩
    obtain ⟨place, hfinds, hreaches⟩ := finds_of_mem_inFolder hwf h hdocument
    obtain ⟨place', hfinds', hreaches'⟩ := finds_of_mem_inFolder hwf h' hdocument'
    obtain rfl := hfirst.unique hreaches
    obtain rfl := hsecond.unique hreaches'
    exact ⟨document.path, document'.path, location, hfinds, hfinds'⟩

theorem forall_iff_of_forall₂ {α β : Type} {P : α → Prop} {Q : β → Prop} {R : α → β → Prop}
    {xs : List α} {ys : List β} (h : List.Forall₂ R xs ys) (hitem : ∀ x y, R x y → (P x ↔ Q y)) :
    (∀ x ∈ xs, P x) ↔ ∀ y ∈ ys, Q y := by
  induction h with
  | nil => simp
  | cons hxy _ ih => rw [List.forall_mem_cons, List.forall_mem_cons, hitem _ _ hxy, ih]

theorem pairwise_iff_of_forall₂ {α β : Type} {P : α → α → Prop} {Q : β → β → Prop}
    {R : α → β → Prop} {xs : List α} {ys : List β} (h : List.Forall₂ R xs ys)
    (hpair : ∀ x y x' y', R x y → R x' y' → (P x x' ↔ Q y y')) :
    xs.Pairwise P ↔ ys.Pairwise Q := by
  induction h with
  | nil => simp
  | cons hxy hrest ih =>
      rw [List.pairwise_cons, List.pairwise_cons, ih,
        forall_iff_of_forall₂ hrest fun x' y' => hpair _ _ x' y' hxy]

/-- No file is read twice exactly when no two of the folders have a document in common, which is so
where no database is named and where no folder that is named leads into another one. -/
theorem inDatabases_pairwise_iff (hwf : tree.WellFormed)
    (hfolders : databaseFolders tree root databases = .ok folders)
    (hread : inDatabases tree root databases = .ok documents) :
    (documents.Pairwise (fun document document' =>
        ¬ tree.SameFile document.path document'.path) ↔
      folders.Pairwise fun folder folder' => ¬ Shares extension tree folder folder') ∧
    (databases = [] ∨ folders.Pairwise (fun folder folder' => ¬ tree.Overlap folder folder') →
      documents.Pairwise fun document document' =>
        ¬ tree.SameFile document.path document'.path) := by
  have hiff : documents.Pairwise (fun document document' =>
        ¬ tree.SameFile document.path document'.path) ↔
      folders.Pairwise fun folder folder' => ¬ Shares extension tree folder folder' := by
    obtain ⟨found, hfound, hrest⟩ := bind_eq_ok.mp hread
    obtain ⟨groups, hgroups, hflat⟩ := bind_eq_ok.mp hrest
    cases hflat
    rw [hfolders] at hfound
    cases hfound
    have hgroups := mapM_eq_ok.mp hgroups
    have hinner : ∀ group ∈ groups, group.Pairwise fun document document' =>
        ¬ tree.SameFile document.path document'.path := by
      intro group hgroup
      obtain ⟨folder, -, hfolder⟩ := exists_of_mem_mapM (mapM_eq_ok.mpr hgroups) hgroup
      exact pairwise_inFolder hwf hfolder
    rw [List.pairwise_flatten, and_iff_right hinner]
    refine (pairwise_iff_of_forall₂ hgroups fun folder group folder' group' h h' => ?_).symm
    rw [shares_iff_sameFile hwf h h']
    push Not
    rfl
  refine ⟨hiff, fun happart => hiff.mpr ?_⟩
  suffices hnone : folders.Pairwise fun folder folder' => ¬ tree.Overlap folder folder' from
    hnone.imp fun hover hshares => hover hshares.overlap
  rcases happart with rfl | happart
  · exact pairwise_databaseFolders_nil hwf hfolders
  · exact happart

theorem wellFormed_twoDocuments : twoDocuments.WellFormed := by
  simp only [twoDocuments, wellFormed_folder, List.forall_mem_cons, List.not_mem_nil,
    false_implies, implies_true, and_true, wellFormed_file]
  decide +kernel

theorem databaseFolders_twoDocuments :
    databaseFolders twoDocuments ⟨"out"⟩ ["shop"] = .ok [⟨"out/shop"⟩] := rfl

theorem inDatabases_pairwise_iff_twoDocuments :
    twoDocuments.WellFormed ∧
      databaseFolders twoDocuments ⟨"out"⟩ ["shop"] = .ok [⟨"out/shop"⟩] ∧
      inDatabases twoDocuments ⟨"out"⟩ ["shop"] =
        .ok [⟨"shop", ⟨"out/shop/a.sdi"⟩, "[]"⟩, secondDocument] ∧
      ¬ twoDocuments.SameFile ⟨"out/shop/a.sdi"⟩ secondDocument.path := by
  have honce := (inDatabases_pairwise_iff wellFormed_twoDocuments databaseFolders_twoDocuments
    inDatabases_twoDocuments).2 (.inr (List.pairwise_singleton _ _))
  exact ⟨wellFormed_twoDocuments, databaseFolders_twoDocuments, inDatabases_twoDocuments,
    (List.pairwise_cons.mp honce).1 _ List.mem_cons_self⟩

/-- A database that is named twice is read twice. -/
theorem inDatabases_named_twice :
    inDatabases twoDocuments ⟨"out"⟩ ["shop", "shop"] =
        .ok [⟨"shop", ⟨"out/shop/a.sdi"⟩, "[]"⟩, secondDocument,
          ⟨"shop", ⟨"out/shop/a.sdi"⟩, "[]"⟩, secondDocument] ∧
      twoDocuments.SameFile secondDocument.path secondDocument.path ∧
      Batch.tableFrom (.ofList [.general]) secondDocument =
        some (Batch.bareTable "MEMORY") := by
  have hsame : twoDocuments.SameFile secondDocument.path secondDocument.path :=
    ⟨["out", "shop", "b.sdi"], ⟨_, rfl⟩, ⟨_, rfl⟩⟩
  refine ⟨?_, hsame, tableFrom_secondDocument⟩
  exact bind_eq_ok.mpr ⟨[⟨"out/shop"⟩, ⟨"out/shop"⟩], rfl,
    bind_eq_ok.mpr ⟨_, mapM_eq_ok.mpr
      (.cons inFolder_twoDocuments (.cons inFolder_twoDocuments .nil)), rfl⟩⟩

end DictionaryDdl.Document
