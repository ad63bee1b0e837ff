import DictionaryDdl.Proofs.Extraction.Steps

/-!
What a run of an extraction comes to. The folders are gone through twice, first for the documents
that are copied and then for the tablespaces, and each time the files below a folder are found and
read as they were in the beginning. So the run is the list of its steps, and the summary a count of
the outcomes of its files.
-/

namespace DictionaryDdl.Extraction.Job

open DictionaryDdl.Tree Discovery

variable {job : Job} {tree now final : Tree} {folders : List Path} {folder path source : Path}
  {site location : List String} {summary summary' : Summary}
  {plan : List Step} {name extension : String}

/-- The files that are found below a folder. -/
def listed (tree : Tree) (folder : Path) (extension : String) : List Path :=
  (filesWithExtension tree folder extension).toOption.getD []

/-- The copy of a document. -/
def copyOf (tree : Tree) (output source : Path) : Option Delivery :=
  source.fileName?.bind fun name =>
    (tree.readBytes source).toOption.map fun content => ⟨output.join name, content⟩

/-- What becomes of a tablespace. -/
def outcomeOf (job : Job) (tree : Tree) (path : Path) : Outcome :=
  if Tablespace.isFullTextAuxiliary (path.fileName?.getD "") then .passed
  else
    match job.documentAt tree path with
    | .error _ => .failed
    | .ok none => .empty
    | .ok (some _) => .extracted

/-- The document of a tablespace, if it has one. -/
def extractOf (job : Job) (tree : Tree) (output path : Path) : Option Delivery :=
  if Tablespace.isFullTextAuxiliary (path.fileName?.getD "") then none
  else
    match job.documentAt tree path with
    | .ok (some text) =>
        some ⟨output.join (Tablespace.tableName (path.stem?.getD "") ++ ".sdi"), Text.octets text⟩
    | _ => none

/-- The steps for the files below a folder. -/
def stepsFor (job : Job) (tree : Tree) (extension : String)
    (deliver : Path → Path → Option Delivery) (folder : Path) : List Step :=
  .folder (job.outputPath folder) ::
    (listed tree folder extension).flatMap fun path =>
      (deliver (job.outputPath folder) path).toList.map .deliver

/-- All steps of a run, the copies first. -/
def steps (job : Job) (tree : Tree) (folders : List Path) : List Step :=
  folders.flatMap (job.stepsFor tree Document.extension (copyOf tree)) ++
    folders.flatMap (job.stepsFor tree "ibd" (job.extractOf tree))

/-- The files that are found below some folders. -/
def filesOf (tree : Tree) (extension : String) (folders : List Path) : List Path :=
  folders.flatMap (listed tree · extension)

/-- What the files come to, the copies first. -/
def outcomes (job : Job) (tree : Tree) (folders : List Path) : List Outcome :=
  ((filesOf tree Document.extension folders).map fun _ => .copied) ++
    (filesOf tree "ibd" folders).map (job.outcomeOf tree)

/-- Whether a step makes the folder of a database or puts a document into it by some name. -/
def Aims (job : Job) : Step → Prop
  | .folder path => ∃ folder, path = job.outputPath folder
  | .deliver delivery =>
      ∃ folder name, Path.IsName name ∧ delivery.target = (job.outputPath folder).join name

/-! ### The files of a folder -/

theorem filesWithExtension_listed (hthere : tree.isFolder folder = true) :
    filesWithExtension tree folder extension = .ok (listed tree folder extension) := by
  obtain ⟨above, entries, hplace⟩ := isFolder_iff.mp hthere
  unfold listed
  rw [Discovery.filesWithExtension_eq hplace]
  rfl

theorem listed_eq_of_ascending {entries : List (String × Tree)} {paths : List Path}
    (hplace : tree.place folder = .ok (.taken location (.folder entries)))
    (hfiles : (filesAmong tree.isFolder folder entries).filter (isWanted extension) = paths)
    (hascending : paths.Pairwise fun p q => p.le q = true) :
    listed tree folder extension = paths := by
  unfold listed
  rw [filesWithExtension_of_ascending hplace hfiles hascending]
  rfl

theorem mem_listed (hwf : tree.WellFormed) (hthere : tree.isFolder folder = true) :
    path ∈ listed tree folder extension ↔
      ∃ location, Finds extension tree folder path location :=
  mem_filesWithExtension hwf (filesWithExtension_listed hthere)

theorem aims_of_copyOf {delivery : Delivery}
    (h : copyOf tree (job.outputPath folder) source = some delivery) :
    job.Aims (.deliver delivery) := by
  obtain ⟨name, hname, hread⟩ := Option.bind_eq_some_iff.mp h
  obtain ⟨content, -, rfl⟩ := Option.map_eq_some_iff.mp hread
  exact ⟨folder, name, isName_of_fileName? hname, rfl⟩

theorem beforePartitionMark_subset (cs : List Char) :
    Tablespace.beforePartitionMark cs ⊆ cs := by
  induction cs with
  | nil => exact List.Subset.refl []
  | cons c rest ih =>
      unfold Tablespace.beforePartitionMark
      split_ifs
      · exact List.nil_subset _
      · exact List.cons_subset_cons c ih

/-- The document of a tablespace is written by a name. -/
theorem isName_tableName (path : Path) :
    Path.IsName (Tablespace.tableName (path.stem?.getD "") ++ ".sdi") := by
  refine Path.isName_append ?_ (by decide) (by decide)
  unfold Tablespace.tableName
  rw [String.toList_ofList]
  intro hslash
  have hstem := beforePartitionMark_subset _ hslash
  cases hname : path.fileName? with
  | none => simp [Path.stem?, hname] at hstem
  | some name =>
      simp only [Path.stem?, hname, Option.map_some, Option.getD_some] at hstem
      exact (isName_of_fileName? hname).no_slash (Path.mem_of_mem_stem hstem)

theorem aims_of_extractOf {delivery : Delivery}
    (h : job.extractOf tree (job.outputPath folder) path = some delivery) :
    job.Aims (.deliver delivery) := by
  unfold extractOf at h
  split_ifs at h
  split at h
  · rw [Option.some.injEq] at h
    refine ⟨folder, Tablespace.tableName (path.stem?.getD "") ++ ".sdi", isName_tableName path, ?_⟩
    rw [← h]
  · cases h

theorem aims_of_mem_deliver {found : Option Delivery} {step : Step}
    (haims : ∀ delivery, found = some delivery → job.Aims (.deliver delivery))
    (h : step ∈ found.toList.map Step.deliver) : job.Aims step := by
  obtain ⟨delivery, hfound, rfl⟩ := List.mem_map.mp h
  exact haims delivery (Option.mem_toList.mp hfound)

theorem aims_of_mem_stepsFor {deliver : Path → Path → Option Delivery} {step : Step}
    (haims : ∀ path delivery, deliver (job.outputPath folder) path = some delivery →
      job.Aims (.deliver delivery))
    (h : step ∈ job.stepsFor tree extension deliver folder) : job.Aims step := by
  rcases List.mem_cons.mp h with rfl | h
  · exact ⟨folder, rfl⟩
  · obtain ⟨path, -, hpath⟩ := List.mem_flatMap.mp h
    exact aims_of_mem_deliver (haims path) hpath

theorem aims_of_mem_steps {step : Step} (h : step ∈ job.steps tree folders) : job.Aims step := by
  rcases List.mem_append.mp h with h | h
  · obtain ⟨folder, -, hfolder⟩ := List.mem_flatMap.mp h
    exact aims_of_mem_stepsFor (fun _ _ => aims_of_copyOf) hfolder
  · obtain ⟨folder, -, hfolder⟩ := List.mem_flatMap.mp h
    exact aims_of_mem_stepsFor (fun _ _ => aims_of_extractOf) hfolder

theorem Sited.location_of_accepts (hsited : job.Sited tree folders site)
    (hgrown : Grown (site <+: ·) tree now) (hname : Path.IsName name)
    (h : now.Accepts ((job.outputPath folder).join name) location) :
    location = site ++ folder.fileName?.toList ++ [name] := by
  have hlater : Grown (fun _ => True) tree (put location (.file .empty) now) :=
    (hgrown.mono fun _ _ => trivial).trans ((h.room.grown_file .empty).mono fun _ _ => trivial)
  exact hsited.location_eq hlater hname ⟨_, h.place_put .empty⟩

/-- A step makes new things in the output only. -/
theorem Sited.confined_of_run (hsited : job.Sited tree folders site) {step : Step}
    (haims : job.Aims step) (h : Confined site tree now) (hrun : step.run now = .ok () final) :
    Confined site tree final := by
  cases step with
  | folder path =>
      obtain ⟨folder, rfl⟩ := haims
      exact hsited.confined_makeFolders h (Disk.mapError_eq_ok.mp hrun)
  | deliver delivery =>
      obtain ⟨folder, name, hname, htarget⟩ := haims
      obtain ⟨location, haccepts, rfl⟩ := writeBytes_iff.mp (Step.run_deliver_eq_ok.mp hrun)
      refine h.put_file haccepts.room ?_ _
      rw [htarget] at haccepts
      rw [hsited.location_of_accepts h.grown hname haccepts, List.append_assoc]
      exact List.prefix_append site _

theorem Sited.confined_of_forM (hsited : job.Sited tree folders site)
    (haims : ∀ step ∈ plan, job.Aims step) (h : Confined site tree now)
    (hrun : plan.forM Step.run now = .ok () final) : Confined site tree final := by
  induction plan generalizing now with
  | nil =>
      cases hrun
      exact h
  | cons step more ih =>
      rw [List.forall_mem_cons] at haims
      obtain ⟨next, hstep, hmore⟩ := Disk.forM_cons_eq_ok.mp hrun
      exact ih haims.2 (hsited.confined_of_run haims.1 h hstep) hmore

/-! ### The run -/

/-- A source that is found is apart from where its copy goes. -/
theorem Sited.not_accepts (hsited : job.Sited tree folders site) (hwf : tree.WellFormed)
    (hgrown : Grown (site <+: ·) tree now) (hfolder : folder ∈ folders)
    (h : tree.ListedBelow folder source location) (hname : Path.IsName name)
    {place : List String} (hreaches : now.Reaches source place) :
    ¬ now.Accepts ((job.outputPath folder).join name) place := by
  intro haccepts
  obtain ⟨found, hfollow, -⟩ := h.follow hwf
  obtain ⟨child, hchild, -⟩ := follow_of_grown hgrown.kinds hfollow
  obtain ⟨node, hnode⟩ := hreaches
  rw [(place_eq_ok.mp hnode).2] at hchild
  cases hchild
  have hplace := hsited.location_of_accepts hgrown hname haccepts
  obtain ⟨above, names, last, habove, -, hsplit, -⟩ := h
  refine hsited.not_below hfolder habove (names ++ [last]) ?_
  rw [← hsplit, hplace, List.append_assoc]
  exact List.prefix_append site _

theorem Sited.copyDocument_eq_ok (hsited : job.Sited tree folders site) (hwf : tree.WellFormed)
    (hgrown : Grown (site <+: ·) tree now) (hfolder : folder ∈ folders)
    (h : Finds extension tree folder source location) :
    copyDocument (job.outputPath folder) summary source now = .ok summary' final ↔
      (∃ content, tree.readBytes source = .ok content) ∧
        ((copyOf tree (job.outputPath folder) source).toList.map Step.deliver).forM Step.run now =
          .ok () final ∧
        summary' = [Outcome.copied].foldl Summary.after summary := by
  obtain ⟨name, hname, hfile, -⟩ := h.fileName? hwf
  have happart : ∀ place, now.Reaches source place →
      ¬ now.Accepts ((job.outputPath folder).join name) place := fun place =>
    hsited.not_accepts hwf hgrown hfolder h.1 hname.toIsName
  have hread := hsited.readBytes_eq hwf hgrown hfolder h.1
  unfold copyDocument copyOf
  rw [hfile]
  dsimp only
  rw [Disk.bind_pure_eq_ok, Disk.mapError_eq_ok, Disk.copy_eq_ok happart, hread]
  cases tree.readBytes source with
  | error reason => simp
  | ok content =>
      simp only [Option.bind_some, Except.toOption, Option.map_some, Option.toList_some,
        List.map_singleton, Disk.forM_singleton_eq_ok, Step.run_deliver_eq_ok, Except.ok.injEq,
        exists_eq_left', exists_eq', true_and]
      rfl

theorem Sited.extractDocument_eq_ok (hsited : job.Sited tree folders site) (hwf : tree.WellFormed)
    (hgrown : Grown (site <+: ·) tree now) (hfolder : folder ∈ folders)
    (h : tree.ListedBelow folder path location) :
    job.extractDocument (job.outputPath folder) summary path now = .ok summary' final ↔
      ((job.extractOf tree (job.outputPath folder) path).toList.map Step.deliver).forM Step.run
          now = .ok () final ∧
        summary' = [job.outcomeOf tree path].foldl Summary.after summary := by
  have hdocument := hsited.documentAt_eq hwf hgrown hfolder h
  unfold extractDocument extractOf outcomeOf
  split_ifs
  · exact Disk.pure_eq_ok_iff_forM_nil
  · rw [Disk.look_bind_eq_ok]
    simp only [hdocument, Except.ok.injEq, exists_eq_left']
    cases job.documentAt tree path with
    | error reason => exact Disk.pure_eq_ok_iff_forM_nil
    | ok found =>
        cases found with
        | none => exact Disk.pure_eq_ok_iff_forM_nil
        | some text =>
            rw [Disk.bind_pure_eq_ok, Step.mapError_writeText_eq_run, Option.toList_some,
              List.map_singleton, Disk.forM_singleton_eq_ok]
            rfl

theorem outputFolder_eq_ok {output : Path} :
    job.outputFolder folder now = .ok output final ↔
      (Step.folder (job.outputPath folder)).run now = .ok () final ∧
        output = job.outputPath folder :=
  Disk.bind_pure_eq_ok

/-- What is gathered below a folder, if each file is gathered by its own steps. -/
theorem Sited.gatherFolder_eq_ok (hsited : job.Sited tree folders site) (hwf : tree.WellFormed)
    (hnow : Confined site tree now) (hfolder : folder ∈ folders)
    (hthere : tree.isFolder folder = true)
    {gather : Path → Summary → Path → Disk AccessError Summary}
    {deliver : Path → Path → Option Delivery} {ready : Path → Prop} {outcome : Path → Outcome}
    (haims : ∀ path delivery, deliver (job.outputPath folder) path = some delivery →
      job.Aims (.deliver delivery))
    (hitem : ∀ path ∈ listed tree folder extension, ∀ now, Confined site tree now →
      ∀ summary summary' next, gather (job.outputPath folder) summary path now = .ok summary' next ↔
        ready path ∧
          ((deliver (job.outputPath folder) path).toList.map Step.deliver).forM Step.run now =
            .ok () next ∧
          summary' = [outcome path].foldl Summary.after summary) :
    (do
      let output ← job.outputFolder folder
      let files ← Disk.look (filesWithExtension · folder extension)
      files.foldlM (gather output) summary : Disk AccessError Summary) now = .ok summary' final ↔
      (∀ path ∈ listed tree folder extension, ready path) ∧
        (job.stepsFor tree extension deliver folder).forM Step.run now = .ok () final ∧
        summary' = ((listed tree folder extension).flatMap fun path => [outcome path]).foldl
          Summary.after summary := by
  have hlist (next : Tree) (hnext : Confined site tree next) :
      filesWithExtension next folder extension = .ok (listed tree folder extension) := by
    rw [hsited.filesWithExtension_eq hwf hnext hfolder hthere, filesWithExtension_listed hthere]
  have hmade (next : Tree) (hrun : (Step.folder (job.outputPath folder)).run now = .ok () next) :
      Confined site tree next :=
    hsited.confined_makeFolders hnow (Disk.mapError_eq_ok.mp hrun)
  have hfiles (next : Tree) (hnext : Confined site tree next) :
      (listed tree folder extension).foldlM (gather (job.outputPath folder)) summary next =
          .ok summary' final ↔ _ :=
    Step.foldlM_eq_ok hnext hitem fun path _ tree' next' hkept hrun =>
      hsited.confined_of_forM (fun step => aims_of_mem_deliver (haims path)) hkept hrun
  constructor
  · intro h
    obtain ⟨output, next, houtput, h⟩ := Disk.bind_eq_ok.mp h
    obtain ⟨hrun, rfl⟩ := outputFolder_eq_ok.mp houtput
    obtain ⟨files, hfound, h⟩ := Disk.look_bind_eq_ok.mp h
    rw [hlist next (hmade next hrun)] at hfound
    cases hfound
    obtain ⟨hready, hsteps, hsummary⟩ := (hfiles next (hmade next hrun)).mp h
    exact ⟨hready, Disk.forM_cons_eq_ok.mpr ⟨next, hrun, hsteps⟩, hsummary⟩
  · rintro ⟨hready, hsteps, hsummary⟩
    obtain ⟨next, hrun, hsteps⟩ := Disk.forM_cons_eq_ok.mp hsteps
    refine Disk.bind_eq_ok.mpr ⟨_, next, outputFolder_eq_ok.mpr ⟨hrun, rfl⟩, ?_⟩
    refine Disk.look_bind_eq_ok.mpr ⟨_, hlist next (hmade next hrun), ?_⟩
    exact (hfiles next (hmade next hrun)).mpr ⟨hready, hsteps, hsummary⟩

theorem Sited.copies_eq_ok (hsited : job.Sited tree folders site) (hwf : tree.WellFormed)
    (hthere : ∀ folder ∈ folders, tree.isFolder folder = true)
    (hnow : Confined site tree now) :
    folders.foldlM job.copyFolder summary now = .ok summary' final ↔
      (∀ folder ∈ folders, ∀ source ∈ listed tree folder Document.extension,
        ∃ content, tree.readBytes source = .ok content) ∧
      (folders.flatMap (job.stepsFor tree Document.extension (copyOf tree))).forM Step.run now =
        .ok () final ∧
      summary' = (folders.flatMap fun folder =>
        (listed tree folder Document.extension).flatMap fun _ => [Outcome.copied]).foldl
          Summary.after summary := by
  refine Step.foldlM_eq_ok hnow (fun folder hfolder now hnow summary summary' next => ?_)
    fun folder _ now next hnow hrun => ?_
  · refine hsited.gatherFolder_eq_ok hwf hnow hfolder (hthere folder hfolder)
      (fun _ _ => aims_of_copyOf) fun source hsource now hnow summary summary' next => ?_
    obtain ⟨location, hfinds⟩ := (mem_listed hwf (hthere folder hfolder)).mp hsource
    exact hsited.copyDocument_eq_ok hwf hnow.grown hfolder hfinds
  · exact hsited.confined_of_forM
      (fun step => aims_of_mem_stepsFor fun _ _ => aims_of_copyOf) hnow hrun

theorem Sited.extracts_eq_ok (hsited : job.Sited tree folders site) (hwf : tree.WellFormed)
    (hthere : ∀ folder ∈ folders, tree.isFolder folder = true)
    (hnow : Confined site tree now) :
    folders.foldlM job.extractFolder summary now = .ok summary' final ↔
      (folders.flatMap (job.stepsFor tree "ibd" (job.extractOf tree))).forM Step.run now =
        .ok () final ∧
      summary' = (folders.flatMap fun folder =>
        (listed tree folder "ibd").flatMap fun path => [job.outcomeOf tree path]).foldl
          Summary.after summary := by
  have hready : (∀ folder ∈ folders, ∀ path ∈ listed tree folder "ibd", True) := by simp
  rw [← and_iff_right hready (b := _ ∧ _)]
  refine Step.foldlM_eq_ok hnow (fun folder hfolder now hnow summary summary' next => ?_)
    fun folder _ now next hnow hrun => ?_
  · refine hsited.gatherFolder_eq_ok hwf hnow hfolder (hthere folder hfolder)
      (fun _ _ => aims_of_extractOf) fun path hpath now hnow summary summary' next => ?_
    obtain ⟨location, hfinds⟩ := (mem_listed hwf (hthere folder hfolder)).mp hpath
    rw [true_and]
    exact hsited.extractDocument_eq_ok hwf hnow.grown hfolder hfinds.1
  · exact hsited.confined_of_forM
      (fun step => aims_of_mem_stepsFor fun _ _ => aims_of_extractOf) hnow hrun

/-- A run goes well if all documents can be read and all steps can be done, and the summary counts
what the files come to. -/
theorem Sited.run_eq_ok (hsited : job.Sited tree folders site) (hwf : tree.WellFormed)
    (hfolders : databaseFolders tree job.backup job.databases = .ok folders) :
    job.run tree = .ok summary final ↔
      (∀ folder ∈ folders, ∀ source ∈ listed tree folder Document.extension,
        ∃ content, tree.readBytes source = .ok content) ∧
      (job.steps tree folders).forM Step.run tree = .ok () final ∧
      summary = (job.outcomes tree folders).foldl Summary.after {} := by
  have hthere : ∀ folder ∈ folders, tree.isFolder folder = true := fun folder =>
    isFolder_of_mem_databaseFolders hfolders
  have hkept {next : Tree} (hrun : (folders.flatMap (job.stepsFor tree Document.extension
      (copyOf tree))).forM Step.run tree = .ok () next) : Confined site tree next :=
    hsited.confined_of_forM (fun step hmem =>
      aims_of_mem_steps (List.mem_append_left _ hmem)) (.refl site tree) hrun
  unfold run steps outcomes filesOf
  rw [List.foldl_append, Disk.forM_append_eq_ok, List.map_flatMap, List.map_flatMap]
  simp only [List.map_eq_flatMap]
  constructor
  · intro h
    obtain ⟨found, hfound, h⟩ := Disk.look_bind_eq_ok.mp h
    rw [hfolders] at hfound
    cases hfound
    obtain ⟨copied, next, hcopy, hextract⟩ := Disk.bind_eq_ok.mp h
    obtain ⟨hready, hcopies, rfl⟩ := (hsited.copies_eq_ok hwf hthere (.refl site tree)).mp hcopy
    obtain ⟨hextracts, hsummary⟩ :=
      (hsited.extracts_eq_ok hwf hthere (hkept hcopies)).mp hextract
    exact ⟨hready, ⟨next, hcopies, hextracts⟩, hsummary⟩
  · rintro ⟨hready, ⟨next, hcopies, hextracts⟩, hsummary⟩
    refine Disk.look_bind_eq_ok.mpr ⟨folders, hfolders, ?_⟩
    refine Disk.bind_eq_ok.mpr ⟨_, next,
      (hsited.copies_eq_ok hwf hthere (.refl site tree)).mpr ⟨hready, hcopies, rfl⟩, ?_⟩
    exact (hsited.extracts_eq_ok hwf hthere (hkept hcopies)).mpr ⟨hextracts, hsummary⟩

end DictionaryDdl.Extraction.Job
