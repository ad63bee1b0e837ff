import DictionaryDdl.Proofs.Extraction.Run
import Mathlib.Data.Set.Card

/-!
What the summary of an extraction counts. Where the folders that are read have nothing in common,
every file below them is found once, and where every folder below them has a path that can be
followed, nothing else is found. So the numbers are those of the files in the tree: of the
documents, of the tablespaces that are not auxiliary, and of those among them that fail or hold no
table.
-/

namespace DictionaryDdl.Extraction.Job

open DictionaryDdl.Tree Discovery

variable {job : Job} {tree final : Tree} {folders : List Path}
  {folder folder' path path' output : Path} {site location : List String} {summary : Summary}
  {extension : String} {P : Path → Prop}

/-- The files below some folders that have an extension. -/
def found (tree : Tree) (folders : List Path) (extension : String) (P : Path → Prop) :
    Set (List String) :=
  {location | ∃ folder ∈ folders, ∃ path, tree.FileBelow folder path location ∧
    isWanted extension path = true ∧ P path}

/-- The standalone documents below some folders. -/
def documents (tree : Tree) (folders : List Path) : Set (List String) :=
  found tree folders Document.extension fun _ => True

/-- Whether a file is not the auxiliary tablespace of a full-text index. -/
def IsPlain (path : Path) : Prop :=
  Tablespace.isFullTextAuxiliary (path.fileName?.getD "") = false

instance : DecidablePred IsPlain := fun path =>
  inferInstanceAs (Decidable (Tablespace.isFullTextAuxiliary (path.fileName?.getD "") = false))

/-- The tablespaces below some folders, without the auxiliary ones. -/
def tablespaces (tree : Tree) (folders : List Path) : Set (List String) :=
  found tree folders "ibd" IsPlain

/-- The tablespaces whose document cannot be extracted. -/
def failing (job : Job) (tree : Tree) (folders : List Path) : Set (List String) :=
  found tree folders "ibd" fun path =>
    IsPlain path ∧ ∃ reason, job.documentAt tree path = .error reason

/-- The tablespaces that hold no table. -/
def tableless (job : Job) (tree : Tree) (folders : List Path) : Set (List String) :=
  found tree folders "ibd" fun path => IsPlain path ∧ job.documentAt tree path = .ok none

/-! ### Files that are found once -/

theorem finite_and_ncard_eq_length {α β : Type} {xs : List α} {leads : α → β → Prop}
    (hleads : ∀ x ∈ xs, ∃ b, leads x b) (hunique : ∀ x b b', leads x b → leads x b' → b = b')
    (happart : xs.Pairwise fun x x' => ∀ b, leads x b → ¬ leads x' b) :
    {b | ∃ x ∈ xs, leads x b}.Finite ∧ {b | ∃ x ∈ xs, leads x b}.ncard = xs.length := by
  induction xs with
  | nil => simp
  | cons x more ih =>
      rw [List.forall_mem_cons] at hleads
      rw [List.pairwise_cons] at happart
      obtain ⟨b, hb⟩ := hleads.1
      obtain ⟨hfinite, hcard⟩ := ih hleads.2 happart.2
      have hsplit : {b | ∃ x' ∈ x :: more, leads x' b} = insert b {b | ∃ x ∈ more, leads x b} := by
        ext b'
        simp only [Set.mem_ofPred_eq, List.exists_mem_cons_iff, Set.mem_insert_iff]
        refine or_congr_left ⟨fun hb' => hunique x b' b hb' hb, ?_⟩
        rintro rfl
        exact hb
      have hnew : b ∉ {b | ∃ x ∈ more, leads x b} := by
        rintro ⟨x', hx', hb'⟩
        exact happart.1 x' hx' b hb hb'
      rw [hsplit, Set.ncard_insert_of_notMem hnew hfinite, hcard, List.length_cons]
      exact ⟨hfinite.insert b, rfl⟩

/-- Folders that have nothing in common have no file in common. -/
theorem eq_of_listedBelow
    (happart : folders.Pairwise fun folder folder' => ¬ tree.Overlap folder folder')
    (hfolder : folder ∈ folders) (hfolder' : folder' ∈ folders)
    (h : tree.ListedBelow folder path location) (h' : tree.ListedBelow folder' path' location) :
    path = path' := by
  have hsymm : Std.Symm fun a b : Path => ¬ tree.Overlap a b := by
    refine ⟨fun a b hnone => ?_⟩
    rintro ⟨above, below, habove, hbelow, hover⟩
    exact hnone ⟨below, above, hbelow, habove, hover.symm⟩
  have hsame : folder = folder' := by
    by_contra hne
    exact happart.forall hfolder hfolder' hne (h.overlap h')
  subst hsame
  exact h.path_unique h'

/-- The files with an extension are found, where every folder has a path that can be followed. -/
theorem mem_found (hthere : ∀ folder ∈ folders, tree.isFolder folder = true)
    (hfollows : ∀ folder ∈ folders, tree.FollowsBelow folder) :
    location ∈ found tree folders extension P ↔
      ∃ folder ∈ folders, ∃ path, Finds extension tree folder path location ∧ P path := by
  constructor
  · rintro ⟨folder, hfolder, path, hfile, hwanted, hpath⟩
    have hlisted := (listedBelow_iff (hfollows folder hfolder) (hthere folder hfolder)).mpr hfile
    exact ⟨folder, hfolder, path, ⟨hlisted, hwanted⟩, hpath⟩
  · rintro ⟨folder, hfolder, path, ⟨hlisted, hwanted⟩, hpath⟩
    have hfile := (listedBelow_iff (hfollows folder hfolder) (hthere folder hfolder)).mp hlisted
    exact ⟨folder, hfolder, path, hfile, hwanted, hpath⟩

/-- Whether the pieces of a path lead to a location. -/
def LeadsTo (tree : Tree) (path : Path) (location : List String) : Prop :=
  ∃ node, follow tree [] path.pieces = .ok (.taken location node)

theorem LeadsTo.unique {location' : List String} (h : LeadsTo tree path location)
    (h' : LeadsTo tree path location') : location = location' := by
  obtain ⟨node, hfollow⟩ := h
  obtain ⟨node', hfollow'⟩ := h'
  cases hfollow.symm.trans hfollow'
  rfl

theorem leadsTo_of_finds (hwf : tree.WellFormed) (h : Finds extension tree folder path location) :
    LeadsTo tree path location := by
  obtain ⟨node, hfollow, -⟩ := h.1.follow hwf
  exact ⟨node, hfollow⟩

theorem exists_finds_of_mem_filesOf (hwf : tree.WellFormed)
    (hthere : ∀ folder ∈ folders, tree.isFolder folder = true)
    (h : path ∈ filesOf tree extension folders) :
    ∃ folder ∈ folders, ∃ location, Finds extension tree folder path location ∧
      LeadsTo tree path location := by
  obtain ⟨folder, hfolder, hlisted⟩ := List.mem_flatMap.mp h
  obtain ⟨location, hfinds⟩ := (mem_listed hwf (hthere folder hfolder)).mp hlisted
  exact ⟨folder, hfolder, location, hfinds, leadsTo_of_finds hwf hfinds⟩

theorem mem_filesOf_of_finds (hwf : tree.WellFormed)
    (hthere : ∀ folder ∈ folders, tree.isFolder folder = true) (hfolder : folder ∈ folders)
    (h : Finds extension tree folder path location) : path ∈ filesOf tree extension folders :=
  List.mem_flatMap.mpr
    ⟨folder, hfolder, (mem_listed hwf (hthere folder hfolder)).mpr ⟨location, h⟩⟩

/-- No two of the files that are found are at one location. -/
theorem pairwise_filesOf (hwf : tree.WellFormed)
    (hthere : ∀ folder ∈ folders, tree.isFolder folder = true)
    (happart : folders.Pairwise fun folder folder' => ¬ tree.Overlap folder folder') :
    (filesOf tree extension folders).Pairwise fun path path' =>
      ∀ location, LeadsTo tree path location → ¬ LeadsTo tree path' location := by
  refine List.pairwise_flatMap.mpr ⟨fun folder hfolder => ?_, ?_⟩
  · have hnodup : (listed tree folder extension).Nodup :=
      nodup_filesWithExtension hwf (filesWithExtension_listed (hthere folder hfolder))
    refine hnodup.imp_of_mem fun {path path'} hpath hpath' hne location hleads hleads' => hne ?_
    obtain ⟨place, hfinds⟩ := (mem_listed hwf (hthere folder hfolder)).mp hpath
    obtain ⟨place', hfinds'⟩ := (mem_listed hwf (hthere folder hfolder)).mp hpath'
    obtain rfl := hleads.unique (leadsTo_of_finds hwf hfinds)
    obtain rfl := hleads'.unique (leadsTo_of_finds hwf hfinds')
    exact hfinds.1.path_unique hfinds'.1
  · refine happart.imp_of_mem fun {folder folder'} hfolder hfolder' hnone path hpath path' hpath'
      location hleads hleads' => hnone ?_
    obtain ⟨place, hfinds⟩ := (mem_listed hwf (hthere folder hfolder)).mp hpath
    obtain ⟨place', hfinds'⟩ := (mem_listed hwf (hthere folder' hfolder')).mp hpath'
    obtain rfl := hleads.unique (leadsTo_of_finds hwf hfinds)
    obtain rfl := hleads'.unique (leadsTo_of_finds hwf hfinds')
    exact hfinds.1.overlap hfinds'.1

/-- The number of the files is the number of the paths that are listed. -/
theorem finite_and_ncard_found (hwf : tree.WellFormed)
    (hthere : ∀ folder ∈ folders, tree.isFolder folder = true)
    (hfollows : ∀ folder ∈ folders, tree.FollowsBelow folder)
    (happart : folders.Pairwise fun folder folder' => ¬ tree.Overlap folder folder')
    (kept : Path → Bool) (hkept : ∀ path, kept path = true ↔ P path) :
    (found tree folders extension P).Finite ∧
      (found tree folders extension P).ncard =
        (filesOf tree extension folders).countP kept := by
  have hpaths : found tree folders extension P =
      {location | ∃ path ∈ (filesOf tree extension folders).filter kept,
        LeadsTo tree path location} := by
    ext location
    rw [mem_found hthere hfollows]
    constructor
    · rintro ⟨folder, hfolder, path, hfinds, hpath⟩
      refine ⟨path, List.mem_filter.mpr ⟨?_, (hkept path).mpr hpath⟩, leadsTo_of_finds hwf hfinds⟩
      exact mem_filesOf_of_finds hwf hthere hfolder hfinds
    · rintro ⟨path, hmem, hleads⟩
      obtain ⟨hlisted, hpath⟩ := List.mem_filter.mp hmem
      obtain ⟨folder, hfolder, place, hfinds, hleads'⟩ :=
        exists_finds_of_mem_filesOf hwf hthere hlisted
      obtain rfl := hleads.unique hleads'
      exact ⟨folder, hfolder, path, hfinds, (hkept path).mp hpath⟩
  have hleads : ∀ path ∈ (filesOf tree extension folders).filter kept,
      ∃ location, LeadsTo tree path location := by
    intro path hmem
    obtain ⟨folder, -, location, -, hleads⟩ :=
      exists_finds_of_mem_filesOf hwf hthere (List.mem_filter.mp hmem).1
    exact ⟨location, hleads⟩
  rw [hpaths, List.countP_eq_length_filter]
  exact finite_and_ncard_eq_length hleads (fun _ _ _ => LeadsTo.unique)
    ((pairwise_filesOf hwf hthere happart).filter kept)

/-! ### The summary -/

theorem outcomeOf_eq_failed : job.outcomeOf tree path = .failed ↔
    IsPlain path ∧ ∃ reason, job.documentAt tree path = .error reason := by
  unfold outcomeOf IsPlain
  split_ifs with hauxiliary
  · simp [hauxiliary]
  · rw [and_iff_right (by simpa using hauxiliary)]
    split
    · simp [*]
    · simp [*]
    · simp [*]

theorem outcomeOf_eq_empty : job.outcomeOf tree path = .empty ↔
    IsPlain path ∧ job.documentAt tree path = .ok none := by
  unfold outcomeOf IsPlain
  split_ifs with hauxiliary
  · simp [hauxiliary]
  · rw [and_iff_right (by simpa using hauxiliary)]
    split
    · simp [*]
    · simp [*]
    · simp [*]

theorem outcomeOf_ne_passed : job.outcomeOf tree path ≠ .passed ↔ IsPlain path := by
  unfold outcomeOf IsPlain
  split_ifs with hauxiliary
  · simp [hauxiliary]
  · rw [iff_true_right (by simpa using hauxiliary)]
    split
    · simp
    · simp
    · simp

theorem outcomeOf_ne_copied : job.outcomeOf tree path ≠ .copied := by
  unfold outcomeOf
  split_ifs
  · simp
  · split
    · simp
    · simp
    · simp

theorem extractOf_eq_none
    (h : job.outcomeOf tree path = .failed ∨ job.outcomeOf tree path = .empty) :
    job.extractOf tree output path = none := by
  rw [outcomeOf_eq_failed, outcomeOf_eq_empty] at h
  unfold extractOf
  split_ifs
  · rfl
  · rcases h with ⟨-, reason, hdocument⟩ | ⟨-, hdocument⟩
    · rw [hdocument]
    · rw [hdocument]

theorem count_outcomes {outcomes : List Outcome} (hnone : .copied ∉ outcomes) :
    outcomes.count .extracted + outcomes.count .empty + outcomes.count .failed =
      outcomes.countP (· != .passed) := by
  induction outcomes with
  | nil => rfl
  | cons outcome more ih =>
      rw [List.mem_cons, not_or] at hnone
      have hmore := ih hnone.2
      simp only [List.count_cons, List.countP_cons]
      cases outcome with
      | copied => exact absurd rfl hnone.1
      | extracted => simp; omega
      | empty => simp; omega
      | failed => simp; omega
      | passed => simpa using hmore

theorem copied_notMem_map_outcomeOf (paths : List Path) :
    Outcome.copied ∉ paths.map (job.outcomeOf tree) := by
  intro hcopied
  obtain ⟨path, -, hpath⟩ := List.mem_map.mp hcopied
  exact outcomeOf_ne_copied hpath

/-- How often an outcome of tablespaces is counted. -/
theorem count_map_outcomeOf (outcome : Outcome) (paths : List Path) :
    (paths.map (job.outcomeOf tree)).count outcome =
      paths.countP fun path => job.outcomeOf tree path == outcome :=
  List.countP_map

/-- The summary counts the files in the tree. -/
theorem Sited.accounts (hsited : job.Sited tree folders site) (hwf : tree.WellFormed)
    (hfolders : databaseFolders tree job.backup job.databases = .ok folders)
    (hfollows : ∀ folder ∈ folders, tree.FollowsBelow folder)
    (happart : folders.Pairwise fun folder folder' => ¬ tree.Overlap folder folder')
    (hrun : job.run tree = .ok summary final) :
    summary.copied = (documents tree folders).ncard ∧
      summary.extracted + summary.empty + summary.failed = (tablespaces tree folders).ncard ∧
      summary.failed = (job.failing tree folders).ncard ∧
      summary.empty = (job.tableless tree folders).ncard := by
  have hthere : ∀ folder ∈ folders, tree.isFolder folder = true := fun folder =>
    isFolder_of_mem_databaseFolders hfolders
  obtain ⟨-, -, hsummary⟩ := (hsited.run_eq_ok hwf hfolders).mp hrun
  have hcount {P : Path → Prop} (kept : Path → Bool) (hkept : ∀ path, kept path = true ↔ P path) :
      (found tree folders "ibd" P).ncard = (filesOf tree "ibd" folders).countP kept :=
    (finite_and_ncard_found hwf hthere hfollows happart kept hkept).2
  have hcopies (outcome : Outcome) (hne : outcome ≠ .copied) :
      ((filesOf tree Document.extension folders).map fun _ => Outcome.copied).count outcome = 0 :=
    List.count_eq_zero.mpr fun hmem =>
      hne (by simpa using (List.mem_map.mp hmem).choose_spec.2.symm)
  have hextracts (outcome : Outcome) (hne : outcome ≠ .copied) :
      (job.outcomes tree folders).count outcome =
        ((filesOf tree "ibd" folders).map (job.outcomeOf tree)).count outcome := by
    rw [outcomes, List.count_append, hcopies outcome hne, Nat.zero_add]
  rw [foldl_after] at hsummary
  refine ⟨?_, ?_, ?_, ?_⟩
  · rw [documents, (finite_and_ncard_found hwf hthere hfollows happart (fun _ => true) (by simp)).2,
      List.countP_true]
    simp [hsummary, outcomes, List.count_append,
      List.count_eq_zero_of_not_mem (copied_notMem_map_outcomeOf _)]
  · rw [tablespaces, hcount (fun path => job.outcomeOf tree path != .passed) fun path => by
      rw [bne_iff_ne, outcomeOf_ne_passed]]
    have hnone : .copied ∉ (filesOf tree "ibd" folders).map (job.outcomeOf tree) :=
      copied_notMem_map_outcomeOf _
    have htotal := count_outcomes hnone
    rw [List.countP_map] at htotal
    simp only [hsummary, Nat.zero_add]
    rw [hextracts _ (by simp), hextracts _ (by simp), hextracts _ (by simp)]
    exact htotal
  · rw [failing, hcount (fun path => job.outcomeOf tree path == .failed) fun path => by
      rw [beq_iff_eq, outcomeOf_eq_failed], ← count_map_outcomeOf, ← hextracts _ (by simp)]
    simp [hsummary]
  · rw [tableless, hcount (fun path => job.outcomeOf tree path == .empty) fun path => by
      rw [beq_iff_eq, outcomeOf_eq_empty], ← count_map_outcomeOf, ← hextracts _ (by simp)]
    simp [hsummary]

end DictionaryDdl.Extraction.Job
