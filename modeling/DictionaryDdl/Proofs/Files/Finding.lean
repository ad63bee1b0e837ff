import DictionaryDdl.Proofs.Files.Listing
import DictionaryDdl.Proofs.Table.Success

/-!
Which files are found below a folder. A file is found by its extension under the one path that goes
down to it from the folder, and where its path leads depends on nothing else. A folder with a path
that is too long to be followed is found as if it were a file, and nothing below it is found; where
every folder has a path that can be followed, the files are found and nothing else. Two folders of
which neither lies in the other have no file in common.
-/

namespace DictionaryDdl

namespace Tree

variable {tree before after : Tree} {folder folder' path path' : Path}
  {location location' above : List String}

/-- Whether a path goes down from a folder to the file at a location. -/
def FileBelow (folder path : Path) (location : List String) (tree : Tree) : Prop :=
  ∃ above names content, tree.Reaches folder above ∧ path = folder.below names ∧
    location = above ++ names ∧ tree.at? location = some (.file content)

/-- Whether a path goes down from a folder to what is listed at a location: a file, or a folder
that the path is too long to lead to. What holds it has a path that can be followed. -/
def ListedBelow (folder path : Path) (location : List String) (tree : Tree) : Prop :=
  ∃ above names name, tree.Reaches folder above ∧ path = folder.below (names ++ [name]) ∧
    location = above ++ (names ++ [name]) ∧ (folder.below names).IsLegal ∧
    tree.NotEntered path location

/-- Whether every folder below a folder, at any depth, has a path that can be followed. -/
def FollowsBelow (folder : Path) (tree : Tree) : Prop :=
  ∀ above names, tree.Reaches folder above → tree.kindAt (above ++ names) = some .folder →
    (folder.below names).IsLegal

/-- Whether two paths lead to the same file or folder. -/
def SameFile (first second : Path) (tree : Tree) : Prop :=
  ∃ location, tree.Reaches first location ∧ tree.Reaches second location

/-- Whether one of two paths leads to what the other one leads to, or to something below it. -/
def Overlap (first second : Path) (tree : Tree) : Prop :=
  ∃ above below, tree.Reaches first above ∧ tree.Reaches second below ∧
    (above <+: below ∨ below <+: above)

theorem ListedBelow.follow (hwf : tree.WellFormed) (h : tree.ListedBelow folder path location) :
    ∃ node, follow tree [] path.pieces = .ok (.taken location node) ∧
      tree.at? location = some node := by
  obtain ⟨above, names, name, ⟨node, hplace⟩, rfl, rfl, -, hleaf⟩ := h
  obtain ⟨child, hchild⟩ := hleaf.exists_at?
  have hnode := at?_of_place hplace
  have hbelow : node.at? (names ++ [name]) = some child := by
    rwa [at?_append, hnode, Option.bind_some] at hchild
  have hnames := Discovery.isEntryName_of_at? (hwf.at? hnode) hbelow
  exact ⟨child, follow_below_of_at? hnames (place_eq_ok.mp hplace).2 hbelow, hchild⟩

theorem ListedBelow.unique (hwf : tree.WellFormed) (h : tree.ListedBelow folder path location)
    (h' : tree.ListedBelow folder' path location') : location = location' := by
  obtain ⟨node, hfollow, -⟩ := h.follow hwf
  obtain ⟨node', hfollow', -⟩ := h'.follow hwf
  cases hfollow.symm.trans hfollow'
  rfl

/-- A path that can be followed leads to the file it goes down to. -/
theorem ListedBelow.place (hwf : tree.WellFormed) (hlegal : path.IsLegal)
    (h : tree.ListedBelow folder path location) :
    ∃ content, tree.place path = .ok (.taken location (.file content)) := by
  obtain ⟨node, hfollow, hnode⟩ := h.follow hwf
  obtain ⟨above, names, name, -, -, -, -, hleaf⟩ := h
  rcases hleaf with hfile | ⟨-, hlong⟩
  · obtain ⟨content, hcontent⟩ := kindAt_eq_file.mp hfile
    rw [hnode] at hcontent
    cases hcontent
    exact ⟨content, place_eq_ok.mpr ⟨hlegal, hfollow⟩⟩
  · exact absurd hlegal hlong

/-- From one folder, one path goes down to what is listed at a location. -/
theorem ListedBelow.path_unique (h : tree.ListedBelow folder path location)
    (h' : tree.ListedBelow folder path' location) : path = path' := by
  obtain ⟨above, names, name, hreaches, rfl, rfl, -⟩ := h
  obtain ⟨above', names', name', hreaches', rfl, hlocation, -⟩ := h'
  obtain rfl := hreaches.unique hreaches'
  rw [List.append_cancel_left hlocation]

theorem ListedBelow.overlap (h : tree.ListedBelow folder path location)
    (h' : tree.ListedBelow folder' path' location) : tree.Overlap folder folder' := by
  obtain ⟨above, names, name, hreaches, -, rfl, -⟩ := h
  obtain ⟨above', names', name', hreaches', -, hlocation, -⟩ := h'
  refine ⟨above, above', hreaches, hreaches', ?_⟩
  exact List.prefix_or_prefix_of_prefix ⟨_, rfl⟩ ⟨_, hlocation.symm⟩

/-- Where every folder has a path that can be followed, the files are listed. -/
theorem listedBelow_iff (hfollows : tree.FollowsBelow folder)
    (hfolder : tree.isFolder folder = true) :
    tree.ListedBelow folder path location ↔ tree.FileBelow folder path location := by
  constructor
  · rintro ⟨above, names, name, hreaches, rfl, rfl, -, hleaf⟩
    rcases hleaf with hfile | ⟨hfolder, hlong⟩
    · obtain ⟨content, hcontent⟩ := kindAt_eq_file.mp hfile
      exact ⟨above, _, content, hreaches, rfl, rfl, hcontent⟩
    · exact absurd (hfollows above _ hreaches hfolder) hlong
  · rintro ⟨above, names, content, hreaches, rfl, rfl, hfile⟩
    rcases List.eq_nil_or_concat names with rfl | ⟨more, name, rfl⟩
    · obtain ⟨place, entries, hplace⟩ := isFolder_iff.mp hfolder
      obtain rfl := hreaches.unique ⟨_, hplace⟩
      rw [List.append_nil, at?_of_place hplace] at hfile
      cases hfile
    · rw [List.concat_eq_append] at hfile ⊢
      have hheld : ∃ entries, tree.at? (above ++ more) = some (.folder entries) := by
        rw [← List.append_assoc] at hfile
        obtain ⟨entries, hentries, -⟩ := folder_of_at?_append_cons hfile
        exact ⟨entries, hentries⟩
      exact ⟨above, more, name, hreaches, rfl, rfl,
        hfollows above more hreaches (kindAt_eq_folder.mpr hheld),
        .inl (kindAt_eq_file.mpr ⟨content, hfile⟩)⟩

/-- Below a folder that holds nothing but files there is no other folder. -/
theorem followsBelow_of_files {entries : List (String × Tree)}
    (hplace : tree.place folder = .ok (.taken location (.folder entries)))
    (hfiles : ∀ entry ∈ entries, entry.2.kind = .file) : tree.FollowsBelow folder := by
  intro above names hreaches hkind
  obtain rfl := hreaches.unique ⟨_, hplace⟩
  cases names with
  | nil => exact (place_eq_ok.mp hplace).1
  | cons name rest =>
      rw [kindAt_append_of_at? (at?_of_place hplace)] at hkind
      obtain ⟨inner, hinner⟩ := kindAt_eq_folder.mp hkind
      obtain ⟨child, hchild, hrest⟩ := Option.bind_eq_some_iff.mp hinner
      obtain ⟨front, back, rfl, -⟩ := List.lookup_eq_some_iff.mp hchild
      have hfile : child.kind = .file := hfiles (name, child) (by simp)
      cases child with
      | file content =>
          cases rest with
          | nil => cases hrest
          | cons next more => cases hrest
      | folder found => cases hfile

/-- What is listed below a folder depends on what kinds of things are there. -/
theorem listedBelow_congr (hbefore : before.Reaches folder above)
    (hafter : after.Reaches folder above)
    (hkinds : ∀ names, after.kindAt (above ++ names) = before.kindAt (above ++ names)) :
    after.ListedBelow folder path location ↔ before.ListedBelow folder path location := by
  constructor
  · rintro ⟨above', names, name, hreaches, rfl, rfl, hheld, hleaf⟩
    obtain rfl := hreaches.unique hafter
    rw [NotEntered, hkinds] at hleaf
    exact ⟨above', names, name, hbefore, rfl, rfl, hheld, hleaf⟩
  · rintro ⟨above', names, name, hreaches, rfl, rfl, hheld, hleaf⟩
    obtain rfl := hreaches.unique hbefore
    rw [NotEntered, ← hkinds] at hleaf
    exact ⟨above', names, name, hafter, rfl, rfl, hheld, hleaf⟩

end Tree

namespace Discovery

open DictionaryDdl.Tree

variable {tree : Tree} {root folder path first second : Path} {extension name : String}
  {files folders : List Path} {location : List String} {entries : List (String × Tree)}

/-- Whether something at a location is found below a folder by its extension, and under which
path. -/
def Finds (extension : String) (tree : Tree) (folder path : Path) (location : List String) : Prop :=
  tree.ListedBelow folder path location ∧ isWanted extension path = true

/-- The wanted files below a folder, by what stands in the tree. -/
theorem mem_wanted (hwf : tree.WellFormed)
    (hplace : tree.place folder = .ok (.taken location (.folder entries))) :
    path ∈ (filesAmong tree.isFolder folder entries).filter (isWanted extension) ↔
      ∃ location, Finds extension tree folder path location := by
  have hkind (names : List String) :
      tree.kindAt (location ++ names) = (Tree.folder entries).kindAt names :=
    kindAt_append_of_at? (at?_of_place hplace)
  rw [List.mem_filter, mem_filesAmong hwf hplace]
  constructor
  · rintro ⟨⟨names, name, rfl, hheld, hleaf⟩, hwanted⟩
    rw [NotEntered, ← hkind] at hleaf
    exact ⟨_, ⟨location, names, name, ⟨_, hplace⟩, rfl, rfl, hheld, hleaf⟩, hwanted⟩
  · rintro ⟨place, ⟨above, names, name, hreaches, rfl, rfl, hheld, hleaf⟩, hwanted⟩
    obtain rfl := hreaches.unique ⟨_, hplace⟩
    rw [NotEntered, hkind] at hleaf
    exact ⟨⟨names, name, rfl, hheld, hleaf⟩, hwanted⟩

theorem filesWithExtension_eq
    (h : tree.place folder = .ok (.taken location (.folder entries))) :
    filesWithExtension tree folder extension =
      .ok (Path.sort ((filesAmong tree.isFolder folder entries).filter (isWanted extension))) := by
  unfold filesWithExtension
  rw [entriesAt_eq_ok.mpr ⟨location, h⟩]
  rfl

/-- Files that are found in ascending order are listed as they are found. -/
theorem filesWithExtension_of_ascending
    (hplace : tree.place folder = .ok (.taken location (.folder entries)))
    (hfiles : (filesAmong tree.isFolder folder entries).filter (isWanted extension) = files)
    (hascending : files.Pairwise fun p q => p.le q = true) :
    filesWithExtension tree folder extension = .ok files := by
  rw [filesWithExtension_eq hplace, hfiles, Path.sort, List.mergeSort_of_pairwise hascending]

theorem exists_of_filesWithExtension (h : filesWithExtension tree folder extension = .ok files) :
    ∃ location entries, tree.place folder = .ok (.taken location (.folder entries)) ∧
      files = Path.sort
        ((filesAmong tree.isFolder folder entries).filter (isWanted extension)) := by
  cases hentries : tree.entriesAt folder with
  | error reason =>
      rw [filesWithExtension, hentries] at h
      cases h
  | ok entries =>
      obtain ⟨location, hplace⟩ := entriesAt_eq_ok.mp hentries
      rw [filesWithExtension_eq hplace] at h
      cases h
      exact ⟨location, entries, hplace, rfl⟩

theorem mem_filesWithExtension (hwf : tree.WellFormed)
    (h : filesWithExtension tree folder extension = .ok files) :
    path ∈ files ↔ ∃ location, Finds extension tree folder path location := by
  obtain ⟨above, entries, hplace, rfl⟩ := exists_of_filesWithExtension h
  rw [(Path.sort_perm _).mem_iff, mem_wanted hwf hplace]

theorem nodup_filesWithExtension (hwf : tree.WellFormed)
    (h : filesWithExtension tree folder extension = .ok files) : files.Nodup := by
  obtain ⟨location, entries, hplace, rfl⟩ := exists_of_filesWithExtension h
  exact (Path.sort_perm _).nodup_iff.mpr ((nodup_filesAmong hwf hplace).filter _)

/-- Wanted files with the same steps have the same path. -/
theorem eq_of_mem_wanted (hwf : tree.WellFormed)
    (hplace : tree.place folder = .ok (.taken location (.folder entries))) (extension : String) :
    ∀ p ∈ (filesAmong tree.isFolder folder entries).filter (isWanted extension),
      ∀ q ∈ (filesAmong tree.isFolder folder entries).filter (isWanted extension),
        p.steps = q.steps → p = q :=
  fun _ hp _ hq =>
    eq_of_mem_filesAmong hwf hplace (List.mem_filter.mp hp).1 (List.mem_filter.mp hq).1

/-- Whether two folders have a file in common that is found by an extension. -/
def Shares (extension : String) (tree : Tree) (first second : Path) : Prop :=
  ∃ path path' location, Finds extension tree first path location ∧
    Finds extension tree second path' location

theorem Shares.overlap (h : Shares extension tree first second) : tree.Overlap first second := by
  obtain ⟨path, path', location, hfirst, hsecond⟩ := h
  exact hfirst.1.overlap hsecond.1

/-- The lists of two trees are in the same order. -/
theorem filesWithExtension_eq_filter {before after : Tree} {files' : List Path}
    (hwf : before.WellFormed) (hwf' : after.WellFormed)
    (h : filesWithExtension before folder extension = .ok files)
    (h' : filesWithExtension after folder extension = .ok files') (kept : Path → Bool)
    (hsame : ∀ path, path ∈ files' ↔ path ∈ files ∧ kept path = true) :
    files' = files.filter kept := by
  have hnodup := nodup_filesWithExtension hwf h
  have hnodup' := nodup_filesWithExtension hwf' h'
  obtain ⟨location, entries, hplace, rfl⟩ := exists_of_filesWithExtension h
  obtain ⟨location', entries', -, rfl⟩ := exists_of_filesWithExtension h'
  have hsteps := eq_of_mem_wanted hwf hplace extension
  rw [Path.filter_sort _ _ hsteps]
  refine (Path.sort_eq_of_perm ?_ fun p hp q hq =>
    hsteps p (List.mem_filter.mp hp).1 q (List.mem_filter.mp hq).1).symm
  rw [List.perm_ext_iff_of_nodup
    (((Path.sort_perm _).nodup_iff.mp hnodup).filter _) ((Path.sort_perm _).nodup_iff.mp hnodup')]
  intro path
  rw [List.mem_filter, ← (Path.sort_perm _).mem_iff, ← hsame path, (Path.sort_perm _).mem_iff]

theorem filesWithExtension_congr {before after : Tree} {files' : List Path}
    (hwf : before.WellFormed) (hwf' : after.WellFormed)
    (h : filesWithExtension before folder extension = .ok files)
    (h' : filesWithExtension after folder extension = .ok files')
    (hsame : ∀ path location, Finds extension after folder path location ↔
      Finds extension before folder path location) : files' = files := by
  have hfilter := filesWithExtension_eq_filter hwf hwf' h h' (fun _ => true) fun path => by
    rw [mem_filesWithExtension hwf h, mem_filesWithExtension hwf' h', and_iff_left rfl]
    exact exists_congr fun location => hsame path location
  rwa [List.filter_true] at hfilter

/-- What is found has a name that can stand in a folder. -/
theorem Finds.fileName? (hwf : tree.WellFormed) (h : Finds extension tree folder path location) :
    ∃ name, IsEntryName name ∧ path.fileName? = some name ∧
      location.getLast? = some name := by
  obtain ⟨⟨above, names, name, ⟨node, hplace⟩, rfl, rfl, -, hleaf⟩, -⟩ := h
  obtain ⟨child, hchild⟩ := hleaf.exists_at?
  have hnode := at?_of_place hplace
  rw [at?_append, hnode, Option.bind_some] at hchild
  have hnames := isEntryName_of_at? (hwf.at? hnode) hchild
  exact ⟨name, hnames name (by simp),
    Path.fileName?_below fun other hother => (hnames other hother).toIsName, by simp⟩

/-! ### The folders of databases -/

theorem foldersIn_eq_ok :
    foldersIn tree root = .ok folders ↔
      ∃ location entries, tree.place root = .ok (.taken location (.folder entries)) ∧
        folders = Path.sort ((entries.map (root.join ·.1)).filter tree.isFolder) := by
  unfold foldersIn
  rw [bind_eq_ok]
  constructor
  · rintro ⟨entries, hentries, hfolders⟩
    obtain ⟨location, hplace⟩ := entriesAt_eq_ok.mp hentries
    cases hfolders
    exact ⟨location, entries, hplace, rfl⟩
  · rintro ⟨location, entries, hplace, rfl⟩
    exact ⟨entries, entriesAt_eq_ok.mpr ⟨location, hplace⟩, rfl⟩

/-- The folders in a folder, seen by the names of its entries. -/
theorem mem_foldersIn (hwf : tree.WellFormed)
    (hplace : tree.place root = .ok (.taken location (.folder entries))) (path : Path) :
    path ∈ (entries.map (root.join ·.1)).filter tree.isFolder ↔
      ∃ name, Path.IsName name ∧ path = root.join name ∧ tree.isFolder path = true := by
  rw [List.mem_filter, List.mem_map]
  constructor
  · rintro ⟨⟨entry, hentry, rfl⟩, hfolder⟩
    have hname := (hwf location entries (at?_of_place hplace)).2 entry.1
      (List.mem_map_of_mem hentry)
    exact ⟨entry.1, hname.toIsName, rfl, hfolder⟩
  · rintro ⟨name, hname, rfl, hfolder⟩
    refine ⟨?_, hfolder⟩
    obtain ⟨place, inner, hinner⟩ := isFolder_iff.mp hfolder
    obtain ⟨above, found, habove, -, hfound⟩ :=
      (follow_join_eq_ok hname).mp (place_eq_ok.mp hinner).2
    rw [(place_eq_ok.mp hplace).2] at habove
    cases habove
    cases hlookup : entries.lookup name with
    | none =>
        rw [hlookup] at hfound
        cases hfound
    | some node =>
        obtain ⟨front, back, rfl, -⟩ := List.lookup_eq_some_iff.mp hlookup
        exact ⟨(name, node), by simp, rfl⟩

theorem databaseFolders_nil :
    databaseFolders tree root [] = .ok folders ↔ foldersIn tree root = .ok folders := by
  change (foldersIn tree root).mapError (AccessError.io root) = .ok folders ↔ _
  cases foldersIn tree root with
  | error reason => simp [Except.mapError]
  | ok found => simp [Except.mapError]

theorem isFolder_of_mem_databaseFolders {databases : List String}
    (h : databaseFolders tree root databases = .ok folders) (hfolder : folder ∈ folders) :
    tree.isFolder folder = true := by
  cases databases with
  | nil =>
      obtain ⟨location, entries, -, rfl⟩ := foldersIn_eq_ok.mp (databaseFolders_nil.mp h)
      exact (List.mem_filter.mp ((Path.sort_perm _).mem_iff.mp hfolder)).2
  | cons database more =>
      cases h
      exact (List.mem_filter.mp hfolder).2

theorem eq_of_steps_join {other : String} (hname : Path.IsName name) (hother : Path.IsName other)
    (h : (root.join name).steps = (root.join other).steps) : name = other := by
  rwa [Path.steps_join hname, Path.steps_join hother, List.append_cancel_left_eq,
    List.singleton_inj] at h

theorem nodup_foldersIn (hwf : tree.WellFormed)
    (hplace : tree.place root = .ok (.taken location (.folder entries))) :
    ((entries.map (root.join ·.1)).filter tree.isFolder).Nodup := by
  obtain ⟨hnodup, hnames⟩ := hwf location entries (at?_of_place hplace)
  have hsplit : entries.map (root.join ·.1) = (entries.map (·.1)).map root.join := by simp
  rw [hsplit]
  refine List.Nodup.filter _ (List.Nodup.map_on (fun name hname other hother hjoin => ?_) hnodup)
  exact eq_of_steps_join (hnames name hname).toIsName (hnames other hother).toIsName
    (congrArg Path.steps hjoin)

/-- Two folders that are found in a folder have nothing in common. -/
theorem not_overlap_of_mem_foldersIn (hwf : tree.WellFormed)
    (h : foldersIn tree root = .ok folders) (hfirst : first ∈ folders) (hsecond : second ∈ folders)
    (hne : first ≠ second) : ¬ tree.Overlap first second := by
  obtain ⟨location, entries, hplace, rfl⟩ := foldersIn_eq_ok.mp h
  have hreaches : ∀ folder ∈ Path.sort ((entries.map (root.join ·.1)).filter tree.isFolder),
      ∃ name, folder = root.join name ∧ tree.Reaches folder (location ++ [name]) := by
    intro folder hfolder
    have hlisted := (Path.sort_perm _).mem_iff.mp hfolder
    obtain ⟨name, hname, rfl, hisfolder⟩ := (mem_foldersIn hwf hplace folder).mp hlisted
    obtain ⟨place, inner, hinner⟩ := isFolder_iff.mp hisfolder
    obtain ⟨above, found, habove, -, hfound⟩ :=
      (follow_join_eq_ok hname).mp (place_eq_ok.mp hinner).2
    rw [(place_eq_ok.mp hplace).2] at habove
    cases habove
    split at hfound
    · cases hfound
      exact ⟨name, rfl, _, hinner⟩
    · cases hfound
  obtain ⟨name, rfl, hfirst⟩ := hreaches first hfirst
  obtain ⟨other, rfl, hsecond⟩ := hreaches second hsecond
  have hnames : name ≠ other := fun hname => hne (hname ▸ rfl)
  rintro ⟨above, below, habove, hbelow, hover⟩
  obtain rfl := habove.unique hfirst
  obtain rfl := hbelow.unique hsecond
  rcases hover with hover | hover
  · have hsame : name = other := by simpa using hover
    exact hnames hsame
  · have hsame : other = name := by simpa using hover
    exact hnames hsame.symm

/-- Where no database is named, no two folders have anything in common. -/
theorem pairwise_databaseFolders_nil (hwf : tree.WellFormed)
    (h : databaseFolders tree root [] = .ok folders) :
    folders.Pairwise fun first second => ¬ tree.Overlap first second := by
  have hlisted := databaseFolders_nil.mp h
  have hnodup : folders.Nodup := by
    obtain ⟨location, entries, hplace, rfl⟩ := foldersIn_eq_ok.mp hlisted
    exact (Path.sort_perm _).nodup_iff.mpr (nodup_foldersIn hwf hplace)
  exact hnodup.pairwise_of_forall_ne fun first hfirst second hsecond =>
    not_overlap_of_mem_foldersIn hwf hlisted hfirst hsecond

end Discovery

end DictionaryDdl
