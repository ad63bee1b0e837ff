import DictionaryDdl.Proofs.Documents.Isolation
import DictionaryDdl.Proofs.Files.Finding
import DictionaryDdl.Proofs.Files.NewFolders

/-!
Reading the documents again after something was written into their tree. As long as no file with
the extension of documents was touched and no new folder is taken for a document, the same documents
are found: an old folder has the same ones, and a new folder has none. Among the folders of
databases there may be new ones, because a name may lead to a folder now that led to none before.
-/

namespace DictionaryDdl.Document

open DictionaryDdl.Tree Discovery

variable {touched : List String → Prop} {before after : Tree} {root folder path : Path}
  {databases : List String} {database name : String} {location above : List String}
  {entries entries' : List (String × Tree)} {documents : List Document}

/-- Whether a file of a name is one of those that documents are looked for in. -/
def isNamed (name : String) : Bool :=
  (Path.cutName name).2.any fun found =>
    Text.asciiLowerCase found.toList == Text.asciiLowerCase extension.toList

/-- Whether what is written leaves the files of documents alone. -/
def Spares (touched : List String → Prop) : Prop :=
  ∀ location name, touched (location ++ [name]) → isNamed name = false

/-- Whether every folder that is taken for a document below another one was there before. A folder
is taken for a document if it has the extension and a path that is too long to be followed. -/
def TakesNoNewFolder (before after : Tree) (folder : Path) : Prop :=
  ∀ path location, Finds extension after folder path location →
    after.kindAt location = some .folder → before.kindAt location = some .folder

/-- Whether every folder that is taken for a document below a folder of the databases was there
before. -/
def TakesNoNewFolders (before after : Tree) (root : Path) (databases : List String) : Prop :=
  ∀ folders, databaseFolders after root databases = .ok folders →
    ∀ folder ∈ folders, TakesNoNewFolder before after folder

/-- Where every folder has a path that can be followed, none is taken for a document. -/
theorem takesNoNewFolder_of_followsBelow (hfollows : after.FollowsBelow folder)
    (hfolder : after.isFolder folder = true) : TakesNoNewFolder before after folder := by
  intro path location hfinds hkind
  obtain ⟨above, names, content, -, -, rfl, hfile⟩ :=
    (listedBelow_iff hfollows hfolder).mp hfinds.1
  rw [kindAt, hfile] at hkind
  cases hkind

theorem isNamed_of_isWanted (hname : path.fileName? = some name)
    (h : isWanted extension path = true) : isNamed name = true := by
  rw [isWanted, Bool.and_eq_true, Path.extension?, hname] at h
  exact h.2

/-- Where a document is found, the same files stand as before the writing. -/
theorem at?_of_finds {tree : Tree} (hspares : Spares touched) (hgrown : Grown touched before after)
    (hwf : tree.WellFormed) (h : Finds extension tree folder path location)
    (content : ByteArray) :
    after.at? location = some (.file content) ↔ before.at? location = some (.file content) := by
  obtain ⟨name, -, hname, hlast⟩ := h.fileName? hwf
  have hnamed := isNamed_of_isWanted hname h.2
  refine hgrown.files _ (fun htouched => ?_) content
  rw [← List.dropLast_append_getLast? name hlast] at htouched
  rw [hspares _ _ htouched] at hnamed
  cases hnamed

/-- The same documents are found below a folder that was there. -/
theorem finds_iff_of_grown (hspares : Spares touched) (hgrown : Grown touched before after)
    (hwf : after.WellFormed) (hreaches : before.Reaches folder above)
    (hnew : TakesNoNewFolder before after folder) :
    Finds extension after folder path location ↔ Finds extension before folder path location := by
  have hreaches' := hreaches.of_grown hgrown
  constructor
  · intro h
    have hfiles := at?_of_finds hspares hgrown hwf h
    have hfolder := hnew path location h
    obtain ⟨⟨above', names, name, hreaches'', rfl, rfl, hheld, hleaf⟩, hwanted⟩ := h
    obtain rfl := hreaches''.unique hreaches'
    refine ⟨⟨above', names, name, hreaches, rfl, rfl, hheld, ?_⟩, hwanted⟩
    refine hleaf.imp (fun hfile => ?_) (And.imp_left hfolder)
    obtain ⟨content, hcontent⟩ := kindAt_eq_file.mp hfile
    exact kindAt_eq_file.mpr ⟨content, (hfiles content).mp hcontent⟩
  · rintro ⟨⟨above', names, name, hreaches'', rfl, rfl, hheld, hleaf⟩, hwanted⟩
    obtain rfl := hreaches''.unique hreaches
    exact ⟨⟨above', names, name, hreaches', rfl, rfl, hheld,
      hleaf.imp (hgrown.kinds _ _) (And.imp_left (hgrown.kinds _ _))⟩, hwanted⟩

/-- The same document is read where nothing was written into its file. -/
theorem ofFile_of_written (hspares : Spares touched) (hgrown : Grown touched before after)
    (hwf : before.WellFormed) (hfinds : Finds extension before folder path location)
    {document : Document} (h : ofFile before database path = .ok document) :
    ofFile after database path = .ok document := by
  obtain ⟨text, htext, rfl⟩ := ofFile_eq_ok.mp h
  obtain ⟨place, content, hplace, hcontent⟩ := readText_eq_ok.mp htext
  obtain ⟨found, hfound⟩ := hfinds.1.place hwf (place_eq_ok.mp hplace).1
  cases hplace.symm.trans hfound
  obtain ⟨content', hplace'⟩ := place_file_of_grown hgrown hplace
  have hsame := (at?_of_finds hspares hgrown hwf hfinds content').mp (at?_of_place hplace')
  rw [at?_of_place hplace] at hsame
  cases hsame
  exact ofFile_eq_ok.mpr ⟨text, readText_eq_ok.mpr ⟨_, content, hplace', hcontent⟩, rfl⟩

/-- A folder that was there has the same documents. -/
theorem inFolder_of_written (hspares : Spares touched) (hwritten : Written touched before after)
    (hwf : before.WellFormed) (hnew : TakesNoNewFolder before after folder)
    (h : inFolder before folder = .ok documents) : inFolder after folder = .ok documents := by
  have hwf' := hwf.of_written hwritten
  obtain ⟨files, hfiles, hread⟩ := bind_eq_ok.mp h
  obtain ⟨above, entries, hplace, -⟩ := exists_of_filesWithExtension hfiles
  obtain ⟨entries', hplace'⟩ := place_folder_of_grown hwritten.grown hplace
  have hsame := filesWithExtension_congr hwf hwf' hfiles (filesWithExtension_eq hplace')
    fun path location => finds_iff_of_grown hspares hwritten.grown hwf' ⟨_, hplace⟩ hnew
  unfold inFolder
  rw [filesWithExtension_eq hplace', hsame]
  refine bind_eq_ok.mpr ⟨files, rfl, mapM_eq_ok.mpr ?_⟩
  have hlisted := (List.forall₂_and_left _ _).mpr
    ⟨fun _ => (mem_filesWithExtension hwf hfiles).mp, mapM_eq_ok.mp hread⟩
  refine hlisted.imp fun path document hdocument => ?_
  obtain ⟨⟨location, hfinds⟩, hdocument⟩ := hdocument
  exact ofFile_of_written hspares hwritten.grown hwf hfinds hdocument

/-- A folder with nothing in its place before has no documents. -/
theorem inFolder_of_new (hspares : Spares touched) (hwritten : Written touched before after)
    (hwf : before.WellFormed)
    (hplace : after.place folder = .ok (.taken above (.folder entries)))
    (hfree : before.at? above = none) (hnew : TakesNoNewFolder before after folder) :
    inFolder after folder = .ok [] := by
  have hwf' := hwf.of_written hwritten
  have hnone (rest : List String) : before.at? (above ++ rest) = none := by
    rw [at?_append, hfree, Option.bind_none]
  have hfiles : filesWithExtension after folder extension = .ok [] := by
    have hlist : filesWithExtension after folder extension = .ok _ := filesWithExtension_eq hplace
    rw [hlist, Except.ok.injEq, List.eq_nil_iff_forall_not_mem]
    intro path hpath
    obtain ⟨location, hfinds⟩ := (mem_filesWithExtension hwf' hlist).mp hpath
    have hfile := at?_of_finds hspares hwritten.grown hwf' hfinds
    have hfolder := hnew path location hfinds
    obtain ⟨⟨above', names, name, hreaches, -, rfl, -, hleaf⟩, -⟩ := hfinds
    obtain rfl := hreaches.unique ⟨_, hplace⟩
    rcases hleaf with hkind | ⟨hkind, -⟩
    · obtain ⟨content, hcontent⟩ := kindAt_eq_file.mp hkind
      rw [hfile, hnone] at hcontent
      cases hcontent
    · have hold := hfolder hkind
      rw [kindAt, hnone] at hold
      cases hold
  unfold inFolder
  rw [hfiles]
  rfl

/-! ### The folders of databases -/

/-- Among the folders that are found in a tree that has grown are those that were found before,
in the same order. -/
theorem foldersIn_of_written (hwritten : Written touched before after) (hwf : before.WellFormed)
    {folders : List Path} (h : foldersIn before root = .ok folders) :
    ∃ folders', foldersIn after root = .ok folders' ∧
      folders'.filter before.isFolder = folders ∧
      ∀ folder ∈ folders', after.isFolder folder = true ∧ before.Anchored folder := by
  obtain ⟨location, entries, hplace, rfl⟩ := foldersIn_eq_ok.mp h
  obtain ⟨entries', hplace'⟩ := place_folder_of_grown hwritten.grown hplace
  have hwf' := hwf.of_written hwritten
  have hmem := mem_foldersIn hwf hplace
  have hmem' := mem_foldersIn hwf' hplace'
  have hsteps' : ∀ p ∈ (entries'.map (root.join ·.1)).filter after.isFolder,
      ∀ q ∈ (entries'.map (root.join ·.1)).filter after.isFolder, p.steps = q.steps → p = q := by
    intro p hp q hq hsteps
    obtain ⟨name, hname, rfl, -⟩ := (hmem' p).mp hp
    obtain ⟨other, hother, rfl, -⟩ := (hmem' q).mp hq
    rw [eq_of_steps_join hname hother hsteps]
  refine ⟨_, foldersIn_eq_ok.mpr ⟨location, entries', hplace', rfl⟩, ?_, fun folder hfolder => ?_⟩
  · rw [Path.filter_sort _ _ hsteps']
    refine Path.sort_eq_of_perm ?_ fun p hp q hq =>
      hsteps' p (List.mem_filter.mp hp).1 q (List.mem_filter.mp hq).1
    rw [List.perm_ext_iff_of_nodup ((nodup_foldersIn hwf' hplace').filter _)
      (nodup_foldersIn hwf hplace)]
    intro path
    rw [List.mem_filter, hmem', hmem]
    constructor
    · rintro ⟨⟨name, hname, rfl, -⟩, hfolder⟩
      exact ⟨name, hname, rfl, hfolder⟩
    · rintro ⟨name, hname, rfl, hfolder⟩
      exact ⟨⟨name, hname, rfl, isFolder_of_grown hwritten.grown hfolder⟩, hfolder⟩
  · have hfound := (Path.sort_perm _).mem_iff.mp hfolder
    obtain ⟨name, hname, rfl, hisfolder⟩ := (hmem' folder).mp hfound
    exact ⟨hisfolder, anchored_join (isFolder_iff.mpr ⟨location, entries, hplace⟩) hname⟩

theorem databaseFolders_of_written (hwritten : Written touched before after)
    (hwf : before.WellFormed)
    (hanchored : ∀ database ∈ databases, before.Anchored (root.join database))
    {folders : List Path} (h : databaseFolders before root databases = .ok folders) :
    ∃ folders', databaseFolders after root databases = .ok folders' ∧
      folders'.filter before.isFolder = folders ∧
      ∀ folder ∈ folders', after.isFolder folder = true ∧ before.Anchored folder := by
  unfold databaseFolders at h ⊢
  split_ifs at h ⊢ with hempty
  · cases hfolders : foldersIn before root with
    | error reason =>
        rw [hfolders] at h
        cases h
    | ok found =>
        rw [hfolders] at h
        cases h
        obtain ⟨folders', hfolders', hkept, hall⟩ := foldersIn_of_written hwritten hwf hfolders
        rw [hfolders']
        exact ⟨folders', rfl, hkept, hall⟩
  · cases h
    refine ⟨_, rfl, ?_, fun folder hfolder => ?_⟩
    · rw [namedFolders, List.filter_filter]
      refine List.filter_congr fun folder _ => ?_
      cases hfolder : before.isFolder folder with
      | false => rfl
      | true => exact isFolder_of_grown hwritten.grown hfolder
    · obtain ⟨hnamed, hisfolder⟩ := List.mem_filter.mp hfolder
      obtain ⟨database, hdatabase, rfl⟩ := List.mem_map.mp hnamed
      exact ⟨hisfolder, hanchored database hdatabase⟩

/-- The same documents are found again where no file of a document was touched and no new folder is
taken for one, as long as no name of a database goes up from a folder that was not there. -/
theorem inDatabases_of_written (hspares : Spares touched) (hwritten : Written touched before after)
    (hwf : before.WellFormed)
    (hanchored : ∀ database ∈ databases, before.Anchored (root.join database))
    (hnew : TakesNoNewFolders before after root databases)
    (h : inDatabases before root databases = .ok documents) :
    inDatabases after root databases = .ok documents := by
  obtain ⟨folders, hfolders, hrest⟩ := bind_eq_ok.mp h
  obtain ⟨groups, hgroups, hflat⟩ := bind_eq_ok.mp hrest
  cases hflat
  obtain ⟨folders', hfolders', rfl, hall⟩ :=
    databaseFolders_of_written hwritten hwf hanchored hfolders
  have hsame := hnew folders' hfolders'
  have hold : (folders'.filter before.isFolder).mapM (inFolder after) = .ok groups := by
    have hlisted := (List.forall₂_and_left _ _).mpr
      ⟨fun _ hfolder => hsame _ (List.mem_filter.mp hfolder).1, mapM_eq_ok.mp hgroups⟩
    exact mapM_eq_ok.mpr (hlisted.imp fun _ _ hgroup =>
      inFolder_of_written hspares hwritten hwf hgroup.1 hgroup.2)
  have hfresh : ∀ folder ∈ folders', before.isFolder folder = false →
      inFolder after folder = .ok [] := by
    intro folder hfolder hmissing
    obtain ⟨hisfolder, hup⟩ := hall folder hfolder
    obtain ⟨location, entries, hplace⟩ := isFolder_iff.mp hisfolder
    exact inFolder_of_new hspares hwritten hwf hplace
      (at?_of_new_folder hwritten.grown hup hplace hmissing) (hsame folder hfolder)
  obtain ⟨groups', hgroups', hflat⟩ := exists_mapM_of_filter hfresh hold
  rw [← hflat]
  exact bind_eq_ok.mpr ⟨folders', hfolders', bind_eq_ok.mpr ⟨groups', hgroups', rfl⟩⟩

end DictionaryDdl.Document
