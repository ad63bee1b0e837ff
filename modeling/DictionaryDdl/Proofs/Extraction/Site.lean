import DictionaryDdl.Extraction
import DictionaryDdl.Proofs.Files.Finding
import DictionaryDdl.Proofs.Files.Folders

/-!
Where an extraction writes. Its output is an empty folder or a free place, apart from the folders
that it reads. Whatever the folders are called, a document goes into the output or into a folder
right below it, so two documents come to the same file only if they are written by the same path.
All that is new stands in the output, so it changes nothing of what is found and read. The backup
may lie anywhere else; nothing is assumed of what the extracting program does.
-/

namespace DictionaryDdl.Extraction.Job

open DictionaryDdl.Tree Discovery

variable {job : Job} {tree now : Tree} {folders : List Path} {folder folder' path : Path}
  {site location location' above : List String} {touched : List String → Prop}
  {name name' extension : String} {entries : List (String × Tree)} {files : List Path}

/-- The folder for the documents of a database. -/
def outputPath (job : Job) (folder : Path) : Path :=
  job.output.join (databaseName folder)

/-- An output that is empty or not there yet, apart from the folders that are read. -/
structure Sited (job : Job) (tree : Tree) (folders : List Path) (site : List String) : Prop where
  output : tree.place job.output = .ok (.taken site (.folder [])) ∨
    tree.place job.output = .ok (.free site)
  apart : ∀ folder ∈ folders, ∀ above, tree.Reaches folder above →
    ¬ above <+: site ∧ ¬ site <+: above

/-! ### Places in the output -/

theorem Sited.output_ne_empty (hsited : job.Sited tree folders site) : job.output.text ≠ "" := by
  rcases hsited.output with hplace | hplace
  · exact (place_eq_ok.mp hplace).1.ne_empty
  · exact (place_eq_ok.mp hplace).1.ne_empty

/-- In the beginning there are no files in the output. -/
theorem Sited.no_file (hsited : job.Sited tree folders site) (hbelow : site <+: location)
    (content : ByteArray) : tree.at? location ≠ some (.file content) := by
  obtain ⟨rest, rfl⟩ := hbelow
  rw [at?_append]
  rcases hsited.output with hplace | hplace
  · rw [at?_of_place hplace, Option.bind_some]
    cases rest with
    | nil => simp [at?]
    | cons name more => simp [at?]
  · have hnone := kindAt_of_follow_free (place_eq_ok.mp hplace).2
    rw [kindAt, Option.map_eq_none_iff] at hnone
    rw [hnone]
    simp

/-- The steps of the output lead to its place, as long as they lead anywhere. -/
theorem Sited.follow_steps (hsited : job.Sited tree folders site) (hgrown : Grown touched tree now)
    {found : Place} (h : follow now [] job.output.steps = .ok found) :
    found = .free site ∨ ∃ node, found = .taken site node := by
  rcases hsited.output with hplace | hplace
  · have hsteps := follow_filter (place_eq_ok.mp hplace).2
    obtain ⟨child, hchild, -⟩ := follow_of_grown hgrown.kinds hsteps
    exact .inr ⟨child, Except.ok.inj (h.symm.trans hchild)⟩
  · have hsteps := follow_filter (place_eq_ok.mp hplace).2
    obtain ⟨before, name, above, inner, hpieces, rfl, habove, -, hempty, hhere, hup, -⟩ :=
      follow_eq_free hsteps
    obtain ⟨child, hchild, hkind⟩ := follow_of_grown hgrown.kinds habove
    cases child with
    | file content => cases hkind
    | folder entries =>
        rw [Path.steps, hpieces, follow_append hchild,
          follow_singleton_eq_ok (at?_of_follow hchild) hempty hhere hup] at h
        obtain ⟨-, hfound⟩ := h
        split at hfound
        · exact .inr ⟨_, hfound⟩
        · exact .inl hfound

/-- The path of the output leads to its place as soon as there is a folder. -/
theorem Sited.follow_output (hsited : job.Sited tree folders site)
    (hgrown : Grown touched tree now)
    (h : follow now [] job.output.pieces = .ok (.taken location (.folder entries))) :
    location = site := by
  rcases hsited.follow_steps hgrown (follow_filter h) with hfree | ⟨node, htaken⟩
  · cases hfree
  · cases htaken
    rfl

theorem isName_of_fileName? (h : path.fileName? = some name) : Path.IsName name := by
  obtain ⟨hlast, hup⟩ := Option.filter_eq_some_iff.mp h
  obtain ⟨hpiece, hempty, hhere⟩ := Path.mem_steps.mp (List.mem_of_getLast? hlast)
  exact ⟨hempty, hhere, by simpa using hup, (Path.mem_pieces hpiece).1⟩

theorem Sited.follow_outputPath (hsited : job.Sited tree folders site)
    (hgrown : Grown touched tree now)
    (h : follow now [] (job.outputPath folder).pieces = .ok (.taken location (.folder entries))) :
    location = site ++ folder.fileName?.toList := by
  unfold outputPath databaseName at h
  cases hname : folder.fileName? with
  | none =>
      rw [hname] at h
      rw [hsited.follow_output hgrown (follow_join_empty hsited.output_ne_empty h)]
      simp
  | some name =>
      rw [hname] at h
      obtain ⟨above, inner, habove, -, hfound⟩ :=
        (follow_join_eq_ok (isName_of_fileName? hname)).mp h
      rw [hsited.follow_output hgrown habove] at hfound
      split at hfound
      · cases hfound
        rfl
      · cases hfound

/-- Where a document goes that is written for a folder by a name. -/
theorem Sited.location_eq (hsited : job.Sited tree folders site) (hgrown : Grown touched tree now)
    (hname : Path.IsName name)
    (h : now.Reaches ((job.outputPath folder).join name) location) :
    location = site ++ folder.fileName?.toList ++ [name] := by
  obtain ⟨node, hplace⟩ := h
  obtain ⟨above, inner, habove, -, hfound⟩ :=
    (follow_join_eq_ok hname).mp (place_eq_ok.mp hplace).2
  rw [hsited.follow_outputPath hgrown habove] at hfound
  split at hfound
  · cases hfound
    rfl
  · cases hfound

/-- Documents that go to the same place are written by the same path. -/
theorem target_eq_of_location_eq
    (h : site ++ folder.fileName?.toList ++ [name] = site ++ folder'.fileName?.toList ++ [name']) :
    (job.outputPath folder).join name = (job.outputPath folder').join name' := by
  obtain ⟨hfolders, hnames⟩ := List.append_inj' h rfl
  have hsame : folder.fileName? = folder'.fileName? :=
    by simpa using congrArg List.head? (List.append_cancel_left hfolders)
  rw [outputPath, outputPath, databaseName, databaseName, hsame, List.singleton_inj.mp hnames]

/-! ### What is made -/

/-- Whether all that is new in a tree stands in the output. -/
structure Confined (site : List String) (tree now : Tree) : Prop where
  written : Written (site <+: ·) tree now
  kinds : ∀ location, ¬ site <+: location → now.kindAt location = tree.kindAt location

theorem Confined.refl (site : List String) (tree : Tree) : Confined site tree tree :=
  ⟨.refl, fun _ _ => rfl⟩

theorem Confined.grown (h : Confined site tree now) : Grown (site <+: ·) tree now :=
  h.written.grown

/-- Nothing changes outside the output when a file or an empty folder is put into it. -/
theorem Confined.kindAt_put (h : Confined site tree now) (hroom : now.Room location)
    (hbelow : site <+: location) {leaf : Tree} (hleaf : leaf.IsLeaf) {place : List String}
    (houtside : ¬ site <+: place) : (put location leaf now).kindAt place = tree.kindAt place := by
  have hne : place ≠ location := by
    rintro rfl
    exact houtside hbelow
  rw [(hroom.put_leaf_of_ne hleaf hne).1, h.kinds place houtside]

theorem Confined.put_file (h : Confined site tree now) (hroom : now.Room location)
    (hbelow : site <+: location) (content : ByteArray) :
    Confined site tree (put location (.file content) now) :=
  ⟨h.written.file hroom hbelow, fun _ => h.kindAt_put hroom hbelow (isLeaf_file content)⟩

theorem Confined.put_folder (h : Confined site tree now) (hroom : now.Room location)
    (hfree : now.kindAt location = none) (hbelow : site <+: location) :
    Confined site tree (put location Tree.empty now) :=
  ⟨h.written.folder hroom hfree, fun _ => h.kindAt_put hroom hbelow isLeaf_empty⟩

theorem steps_outputPath (hne : job.output.text ≠ "") (folder : Path) :
    (job.outputPath folder).steps = job.output.steps ++ folder.fileName?.toList := by
  unfold outputPath databaseName
  cases hname : folder.fileName? with
  | some name => exact Path.steps_join (isName_of_fileName? hname)
  | none =>
      rw [Option.getD_none, Option.toList_none, List.append_nil, Path.join]
      split_ifs with hempty hslash
      · simp [hne] at hempty
      · rw [String.append_empty]
      · rw [Path.steps, Path.pieces_append_slash, List.filter_append]
        exact List.append_nil _

/-- Where nothing stands yet on the way to a folder in the output, that is in the output. -/
theorem Sited.prefix_of_free (hsited : job.Sited tree folders site)
    (hgrown : Grown touched tree now) (hsteps : path.steps <+: (job.outputPath folder).steps)
    (h : follow now [] path.trimmedPieces = .ok (.free location)) : site <+: location := by
  have hfollow := follow_filter h
  rw [filter_trimmedPieces] at hfollow
  have hsite (hsame : path.steps = job.output.steps) : site <+: location := by
    rw [hsame] at hfollow
    rcases hsited.follow_steps hgrown hfollow with hfree | ⟨node, htaken⟩
    · cases hfree
      exact List.prefix_rfl
    · cases htaken
  rw [steps_outputPath hsited.output_ne_empty] at hsteps
  obtain ⟨rest, hrest⟩ := hsteps
  rcases List.append_eq_append_iff.mp hrest with ⟨more, houtput, -⟩ | ⟨more, houtput, hname⟩
  · by_cases hmore : more = []
    · rw [hmore, List.append_nil] at houtput
      exact hsite houtput.symm
    · -- A folder above the output is there from the beginning.
      obtain ⟨found, hfound⟩ : ∃ found, follow tree [] job.output.steps = .ok found := by
        rcases hsited.output with hplace | hplace
        · exact ⟨_, follow_filter (place_eq_ok.mp hplace).2⟩
        · exact ⟨_, follow_filter (place_eq_ok.mp hplace).2⟩
      rw [houtput] at hfound
      obtain ⟨above, entries, habove, -⟩ := folder_of_follow_append hfound hmore
      obtain ⟨child, hchild, -⟩ := follow_of_grown hgrown.kinds habove
      cases hfollow.symm.trans hchild
  · by_cases hmore : more = []
    · rw [hmore, List.append_nil] at houtput
      exact hsite houtput
    · obtain ⟨name, hfile, rfl⟩ : ∃ name, folder.fileName? = some name ∧ more = [name] := by
        cases hfile : folder.fileName? with
        | none => simp [hfile, hmore] at hname
        | some name =>
            have hsingle : more = [name] ∧ rest = [] := by
              simpa [hfile, List.singleton_eq_append_iff, hmore] using hname
            exact ⟨name, rfl, hsingle.1⟩
      have hentry := isName_of_fileName? hfile
      rw [houtput] at hfollow
      obtain ⟨above, entries, habove, hlast⟩ := folder_of_follow_append hfollow hmore
      rw [follow_singleton_eq_ok (at?_of_follow habove) hentry.ne_empty hentry.ne_here
        hentry.ne_up] at hlast
      rcases hsited.follow_steps hgrown habove with hfree | ⟨node, htaken⟩
      · cases hfree
      · cases htaken
        obtain ⟨-, hfound⟩ := hlast
        split at hfound
        · cases hfound
        · cases hfound
          exact List.prefix_append site [name]

/-- A folder for the documents of a database is made in the output, and what is missing above it as
well. -/
theorem Sited.confined_makeFolders (hsited : job.Sited tree folders site) {next : Tree}
    (h : Confined site tree now)
    (hmake : Disk.makeFolders (job.outputPath folder) now = .ok () next) :
    Confined site tree next := by
  refine Disk.makeFolders_keeps (Confined site tree) h
    (fun above habove now next hnow hensure => ?_) hmake
  have hsteps : above.steps <+: (job.outputPath folder).steps := by
    rcases List.mem_cons.mp habove with rfl | hparent
    · exact List.prefix_rfl
    · exact Path.steps_prefix_of_mem_parents hparent
  rcases ensureFolder_cases hensure with ⟨rfl, -⟩ | ⟨location, hlegal, hfree, rfl⟩
  · exact hnow
  · exact hnow.put_folder (room_of_trimmedPieces hlegal hfree) (kindAt_of_follow_free hfree)
      (hsited.prefix_of_free hnow.grown hsteps hfree)

/-! ### What is read -/

theorem Sited.not_below (hsited : job.Sited tree folders site) (hfolder : folder ∈ folders)
    (hreaches : tree.Reaches folder above) (names : List String) : ¬ site <+: above ++ names := by
  intro hbelow
  obtain ⟨habove, hsite⟩ := hsited.apart folder hfolder above hreaches
  rcases List.prefix_or_prefix_of_prefix hbelow (List.prefix_append above names) with h | h
  · exact hsite h
  · exact habove h

theorem Sited.finds_iff (hsited : job.Sited tree folders site) (h : Confined site tree now)
    (hfolder : folder ∈ folders) (hthere : tree.isFolder folder = true) :
    Finds extension now folder path location ↔ Finds extension tree folder path location := by
  obtain ⟨above, entries, hplace⟩ := isFolder_iff.mp hthere
  have hreaches : tree.Reaches folder above := ⟨_, hplace⟩
  exact and_congr_left fun _ => listedBelow_congr hreaches (hreaches.of_grown h.grown)
    fun names => h.kinds _ (hsited.not_below hfolder hreaches names)

/-- The same files are found below a folder whatever was written. -/
theorem Sited.filesWithExtension_eq (hsited : job.Sited tree folders site) (hwf : tree.WellFormed)
    (h : Confined site tree now) (hfolder : folder ∈ folders)
    (hthere : tree.isFolder folder = true) :
    filesWithExtension now folder extension = filesWithExtension tree folder extension := by
  obtain ⟨above, entries, hplace⟩ := isFolder_iff.mp hthere
  obtain ⟨entries', hplace'⟩ := place_folder_of_grown h.grown hplace
  obtain ⟨files, hlist⟩ : ∃ files, filesWithExtension tree folder extension = .ok files :=
    ⟨_, Discovery.filesWithExtension_eq hplace⟩
  obtain ⟨files', hlist'⟩ : ∃ files, filesWithExtension now folder extension = .ok files :=
    ⟨_, Discovery.filesWithExtension_eq hplace'⟩
  rw [hlist, hlist', filesWithExtension_congr hwf (hwf.of_written h.written) hlist hlist'
    fun path location => hsited.finds_iff h hfolder hthere]

/-- A file that is found is read as it was, whatever was written. -/
theorem Sited.readBytes_eq (hsited : job.Sited tree folders site) (hwf : tree.WellFormed)
    (hgrown : Grown (site <+: ·) tree now) (hfolder : folder ∈ folders)
    (h : tree.ListedBelow folder path location) : now.readBytes path = tree.readBytes path := by
  by_cases hlegal : path.IsLegal
  · obtain ⟨content, hplace⟩ := h.place hwf hlegal
    obtain ⟨content', hplace'⟩ := place_file_of_grown hgrown hplace
    obtain ⟨above, names, name, hreaches, -, rfl, -⟩ := h
    have hsame := (hgrown.files _ (hsited.not_below hfolder hreaches _) content').mp
      (at?_of_place hplace')
    rw [at?_of_place hplace] at hsame
    cases hsame
    rw [readBytes_eq_ok.mpr ⟨_, hplace⟩, readBytes_eq_ok.mpr ⟨_, hplace'⟩]
  · exact readBytes_of_not_legal hlegal now tree

theorem Sited.documentAt_eq (hsited : job.Sited tree folders site) (hwf : tree.WellFormed)
    (hgrown : Grown (site <+: ·) tree now) (hfolder : folder ∈ folders)
    (h : tree.ListedBelow folder path location) :
    job.documentAt now path = job.documentAt tree path := by
  unfold documentAt
  rw [hsited.readBytes_eq hwf hgrown hfolder h]

end DictionaryDdl.Extraction.Job
