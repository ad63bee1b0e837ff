import DictionaryDdl.Proofs.Extraction.Accounts
import DictionaryDdl.Proofs.Files.Thinning

/-!
That a tablespace without a document leaves no trace. The steps of a run are the same if the
tablespaces that fail or hold no table are taken out of the tree, and each step does the same to
both trees, so the output is the same as well. It may be that a tablespace is taken out that has the
name of another one; nothing is assumed of the names, nor of what the extracting program does.

The output has to be apart from the folders that are read. The names of databases are joined to the
path of the backup as they are, so they may lead to the output too; then what has been copied is
found and copied once more.
-/

namespace DictionaryDdl.Extraction

/-- Whether a tablespace comes to no document. -/
def Outcome.isBarren : Outcome → Bool
  | .empty | .failed => true
  | .copied | .extracted | .passed => false

namespace Job

open DictionaryDdl.Tree Discovery

variable {job : Job} {tree thin now now' final : Tree} {folders : List Path}
  {folder folder' path path' source output : Path} {site location : List String}
  {summary : Summary} {plan : List Step} {extension : String} {gone : List String → Prop}

/-- The tablespaces that come to no document. -/
def barren (job : Job) (tree : Tree) (folders : List Path) : Set (List String) :=
  job.failing tree folders ∪ job.tableless tree folders

/-- A tree and the same one without the tablespaces that come to no document, where the folders
that are read have nothing in common and every folder below them has a path that can be followed. -/
structure Pruned (job : Job) (tree thin : Tree) (folders : List Path) : Prop where
  wellFormed : tree.WellFormed
  thinWellFormed : thin.WellFormed
  there : ∀ folder ∈ folders, tree.isFolder folder = true
  follows : ∀ folder ∈ folders, tree.FollowsBelow folder
  apart : folders.Pairwise fun folder folder' => ¬ tree.Overlap folder folder'
  thinned : Thinned (· ∈ job.barren tree folders) tree thin

/-! ### Steps in a tree without some of its files -/

theorem Sited.of_thinned (hsited : job.Sited tree folders site) (h : Thinned gone tree thin) :
    job.Sited thin folders site := by
  refine ⟨?_, fun folder hfolder above hreaches =>
    hsited.apart folder hfolder above (hreaches.of_grown h.grown)⟩
  rcases hsited.output with hplace | hplace
  · obtain ⟨entries, hplace'⟩ := h.place_folder hplace
    cases entries with
    | nil => exact .inl hplace'
    | cons entry more =>
        obtain ⟨name, node⟩ := entry
        have hkind : thin.kindAt (site ++ [name]) = some node.kind := by
          rw [kindAt_append_of_at? (at?_of_place hplace'), kindAt, Tree.at?, List.lookup_cons_self]
          rfl
        have hfull := h.grown.kinds _ _ hkind
        rw [kindAt_append_of_at? (at?_of_place hplace), kindAt, Tree.at?] at hfull
        cases hfull
  · obtain ⟨hlegal, hfree⟩ := place_eq_ok.mp hplace
    exact .inr (place_eq_ok.mpr ⟨hlegal, h.follow_free hfree⟩)

/-- The same steps can be run in a tree without some of its files, if none of these is in the
output. -/
theorem Sited.forM_of_thinned (hsited : job.Sited tree folders site)
    (haims : ∀ step ∈ plan, job.Aims step)
    (houtside : ∀ location, gone location → ¬ site <+: location)
    (hnow : Confined site tree now) (h : Thinned gone now now')
    (hrun : plan.forM Step.run now = .ok () final) :
    ∃ final', plan.forM Step.run now' = .ok () final' ∧ Thinned gone final final' := by
  induction plan generalizing now now' with
  | nil =>
      cases hrun
      exact ⟨now', rfl, h⟩
  | cons step more ih =>
      rw [List.forall_mem_cons] at haims
      obtain ⟨next, hstep, hmore⟩ := Disk.forM_cons_eq_ok.mp hrun
      have hnext := hsited.confined_of_run haims.1 hnow hstep
      obtain ⟨next', hstep', hthin⟩ :
          ∃ next', step.run now' = .ok () next' ∧ Thinned gone next next' := by
        cases step with
        | folder path =>
            obtain ⟨next', hmade, hthin⟩ := h.disk_makeFolders (Disk.mapError_eq_ok.mp hstep)
            exact ⟨next', Disk.mapError_eq_ok.mpr hmade, hthin⟩
        | deliver delivery =>
            obtain ⟨folder, name, hname, htarget⟩ := haims.1
            have hplace (location : List String) (haccepts : now.Accepts delivery.target location) :
                ¬ gone location := by
              intro hgone
              rw [htarget] at haccepts
              refine houtside location hgone ?_
              rw [hsited.location_of_accepts hnow.grown hname haccepts, List.append_assoc]
              exact List.prefix_append site _
            obtain ⟨next', hwrite, hthin⟩ := h.writeBytes hplace (Step.run_deliver_eq_ok.mp hstep)
            exact ⟨next', Step.run_deliver_eq_ok.mpr hwrite, hthin⟩
      obtain ⟨final', hmore', hfinal⟩ := ih haims.2 hnext hthin hmore
      exact ⟨final', Disk.forM_cons_eq_ok.mpr ⟨next', hstep', hmore'⟩, hfinal⟩

/-! ### What is found without the tablespaces that come to no document -/

theorem isBarren_outcomeOf : (job.outcomeOf tree path).isBarren = true ↔
    job.outcomeOf tree path = .failed ∨ job.outcomeOf tree path = .empty := by
  cases job.outcomeOf tree path <;> simp [Outcome.isBarren]

theorem mem_barren (hthere : ∀ folder ∈ folders, tree.isFolder folder = true)
    (hfollows : ∀ folder ∈ folders, tree.FollowsBelow folder) (hfolder : folder ∈ folders)
    (happart : folders.Pairwise fun folder folder' => ¬ tree.Overlap folder folder')
    (hfinds : Finds "ibd" tree folder path location) :
    location ∈ job.barren tree folders ↔ (job.outcomeOf tree path).isBarren = true := by
  rw [isBarren_outcomeOf, outcomeOf_eq_failed, outcomeOf_eq_empty, barren, Set.mem_union, failing,
    tableless, mem_found hthere hfollows, mem_found hthere hfollows]
  constructor
  · rintro (⟨folder', hfolder', path', hfinds', hpath⟩ | ⟨folder', hfolder', path', hfinds', hpath⟩)
    · rw [eq_of_listedBelow happart hfolder hfolder' hfinds.1 hfinds'.1]
      exact .inl hpath
    · rw [eq_of_listedBelow happart hfolder hfolder' hfinds.1 hfinds'.1]
      exact .inr hpath
  · rintro (hpath | hpath)
    · exact .inl ⟨folder, hfolder, path, hfinds, hpath⟩
    · exact .inr ⟨folder, hfolder, path, hfinds, hpath⟩

theorem exists_fileBelow_of_mem_barren (h : location ∈ job.barren tree folders) :
    ∃ folder ∈ folders, ∃ path, tree.FileBelow folder path location ∧
      isWanted "ibd" path = true := by
  rcases h with hfailing | htableless
  · obtain ⟨folder, hfolder, path, hfile, hwanted, -⟩ := hfailing
    exact ⟨folder, hfolder, path, hfile, hwanted⟩
  · obtain ⟨folder, hfolder, path, hfile, hwanted, -⟩ := htableless
    exact ⟨folder, hfolder, path, hfile, hwanted⟩

theorem exists_finds_of_mem_barren (hthere : ∀ folder ∈ folders, tree.isFolder folder = true)
    (hfollows : ∀ folder ∈ folders, tree.FollowsBelow folder)
    (h : location ∈ job.barren tree folders) :
    ∃ folder ∈ folders, ∃ path, Finds "ibd" tree folder path location := by
  obtain ⟨folder, hfolder, path, hfile, hwanted⟩ := exists_fileBelow_of_mem_barren h
  exact ⟨folder, hfolder, path,
    (listedBelow_iff (hfollows folder hfolder) (hthere folder hfolder)).mpr hfile, hwanted⟩

/-- No document is a tablespace. -/
theorem notMem_barren (hwf : tree.WellFormed)
    (hthere : ∀ folder ∈ folders, tree.isFolder folder = true)
    (hfollows : ∀ folder ∈ folders, tree.FollowsBelow folder)
    (hfinds : Finds Document.extension tree folder path location) :
    location ∉ job.barren tree folders := by
  intro hbarren
  obtain ⟨folder', -, path', hfinds'⟩ := exists_finds_of_mem_barren hthere hfollows hbarren
  obtain ⟨name, -, hname, hlast⟩ := hfinds.fileName? hwf
  obtain ⟨name', -, hname', hlast'⟩ := hfinds'.fileName? hwf
  obtain rfl := Option.some.inj (hlast.symm.trans hlast')
  have hextension : path.extension? = path'.extension? := by
    rw [Path.extension?, Path.extension?, hname, hname']
  have hsdi := hfinds.2
  have hibd := hfinds'.2
  rw [isWanted, Bool.and_eq_true] at hsdi hibd
  rw [← hextension] at hibd
  cases hfound : path.extension? with
  | none =>
      rw [hfound] at hsdi
      exact absurd hsdi.2 (by simp)
  | some found =>
      rw [hfound, Option.any_some, beq_iff_eq] at hsdi hibd
      exact absurd (hsdi.2.symm.trans hibd.2) (by decide)

theorem barren_outside (hsited : job.Sited tree folders site)
    (h : location ∈ job.barren tree folders) : ¬ site <+: location := by
  intro hbelow
  obtain ⟨folder, -, path, ⟨above, names, content, -, -, -, hfile⟩, -⟩ :=
    exists_fileBelow_of_mem_barren h
  exact hsited.no_file hbelow content hfile

/-- What is found without some files are the paths to the others. -/
theorem listed_of_thinned (hwf : tree.WellFormed) (hwf' : thin.WellFormed)
    (h : Thinned gone tree thin) (hthere : tree.isFolder folder = true) (kept : Path → Bool)
    (hkept : ∀ path location, Finds extension tree folder path location →
      (kept path = true ↔ ¬ gone location)) :
    listed thin folder extension = (listed tree folder extension).filter kept := by
  have hthere' := h.isFolder_iff.mpr hthere
  refine filesWithExtension_eq_filter hwf hwf' (filesWithExtension_listed hthere)
    (filesWithExtension_listed hthere') kept fun path => ?_
  rw [mem_listed hwf hthere, mem_listed hwf' hthere']
  constructor
  · rintro ⟨location, hfinds⟩
    obtain ⟨hfinds, hthrough⟩ := (h.finds_iff hthere).mp hfinds
    exact ⟨⟨location, hfinds⟩, (hkept path location hfinds).mpr hthrough⟩
  · rintro ⟨⟨location, hfinds⟩, hpath⟩
    exact ⟨location, (h.finds_iff hthere).mpr ⟨hfinds, (hkept path location hfinds).mp hpath⟩⟩

theorem flatMap_filter_eq {α β : Type} {xs : List α} {kept : α → Bool} {f g : α → List β}
    (hkept : ∀ x ∈ xs, kept x = true → g x = f x) (hdropped : ∀ x ∈ xs, kept x = false → f x = []) :
    (xs.filter kept).flatMap g = xs.flatMap f := by
  induction xs with
  | nil => rfl
  | cons x more ih =>
      rw [List.forall_mem_cons] at hkept hdropped
      have hmore := ih hkept.2 hdropped.2
      cases hx : kept x with
      | true =>
          rw [List.filter_cons_of_pos hx, List.flatMap_cons, List.flatMap_cons, hmore, hkept.1 hx]
      | false =>
          rw [List.filter_cons_of_neg (by simp [hx]), List.flatMap_cons, hmore, hdropped.1 hx,
            List.nil_append]

namespace Pruned

theorem listed_documents (h : job.Pruned tree thin folders) (hfolder : folder ∈ folders) :
    listed thin folder Document.extension = listed tree folder Document.extension := by
  rw [listed_of_thinned h.wellFormed h.thinWellFormed h.thinned (h.there folder hfolder)
    (fun _ => true) fun path location hfinds => by
      simpa using notMem_barren h.wellFormed h.there h.follows hfinds, List.filter_true]

theorem listed_tablespaces (h : job.Pruned tree thin folders) (hfolder : folder ∈ folders) :
    listed thin folder "ibd" =
      (listed tree folder "ibd").filter fun path => !(job.outcomeOf tree path).isBarren := by
  refine listed_of_thinned h.wellFormed h.thinWellFormed h.thinned (h.there folder hfolder) _
    fun path location hfinds => ?_
  rw [mem_barren h.there h.follows hfolder h.apart hfinds, Bool.not_eq_true', Bool.not_eq_true]

theorem copyOf_eq (h : job.Pruned tree thin folders) (hfolder : folder ∈ folders)
    (hsource : source ∈ listed tree folder Document.extension) :
    copyOf thin output source = copyOf tree output source := by
  obtain ⟨location, hfinds⟩ := (mem_listed h.wellFormed (h.there folder hfolder)).mp hsource
  unfold copyOf
  rw [h.thinned.readBytes_eq h.wellFormed hfinds.1
    (notMem_barren h.wellFormed h.there h.follows hfinds)]

theorem documentAt_eq (h : job.Pruned tree thin folders) (hfolder : folder ∈ folders)
    (hpath : path ∈ listed tree folder "ibd")
    (hkept : (job.outcomeOf tree path).isBarren = false) :
    job.documentAt thin path = job.documentAt tree path := by
  obtain ⟨location, hfinds⟩ := (mem_listed h.wellFormed (h.there folder hfolder)).mp hpath
  have hthrough : location ∉ job.barren tree folders := by
    rw [mem_barren h.there h.follows hfolder h.apart hfinds, hkept]
    exact Bool.false_ne_true
  unfold documentAt
  rw [h.thinned.readBytes_eq h.wellFormed hfinds.1 hthrough]

/-- The steps of a run are the same. -/
theorem steps_eq (h : job.Pruned tree thin folders) :
    job.steps thin folders = job.steps tree folders := by
  have hcopies (folder : Path) (hfolder : folder ∈ folders) :
      job.stepsFor thin Document.extension (copyOf thin) folder =
        job.stepsFor tree Document.extension (copyOf tree) folder := by
    rw [stepsFor, stepsFor, h.listed_documents hfolder]
    refine congrArg (List.cons _) (List.flatMap_congr fun source hsource => ?_)
    rw [h.copyOf_eq hfolder hsource]
  have hextracts (folder : Path) (hfolder : folder ∈ folders) :
      job.stepsFor thin "ibd" (job.extractOf thin) folder =
        job.stepsFor tree "ibd" (job.extractOf tree) folder := by
    rw [stepsFor, stepsFor, h.listed_tablespaces hfolder]
    refine congrArg (List.cons _) (flatMap_filter_eq (fun path hpath hkept => ?_) ?_)
    · rw [Bool.not_eq_true'] at hkept
      rw [extractOf, extractOf, h.documentAt_eq hfolder hpath hkept]
    · intro path hpath hdropped
      rw [Bool.not_eq_false', isBarren_outcomeOf] at hdropped
      rw [extractOf_eq_none hdropped, Option.toList_none, List.map_nil]
  rw [steps, steps, List.flatMap_congr hcopies, List.flatMap_congr hextracts]

/-- The outcomes are the others. -/
theorem outcomes_eq (h : job.Pruned tree thin folders) :
    job.outcomes thin folders =
      (job.outcomes tree folders).filter fun outcome => !outcome.isBarren := by
  have hcopies : filesOf thin Document.extension folders =
      filesOf tree Document.extension folders :=
    List.flatMap_congr fun folder => h.listed_documents
  have hextracts : filesOf thin "ibd" folders =
      (filesOf tree "ibd" folders).filter fun path => !(job.outcomeOf tree path).isBarren := by
    rw [filesOf, filesOf, List.filter_flatMap]
    exact List.flatMap_congr fun folder => h.listed_tablespaces
  have hsame : ((filesOf tree "ibd" folders).filter
        fun path => !(job.outcomeOf tree path).isBarren).map (job.outcomeOf thin) =
      ((filesOf tree "ibd" folders).filter
        fun path => !(job.outcomeOf tree path).isBarren).map (job.outcomeOf tree) := by
    refine List.map_congr_left fun path hpath => ?_
    obtain ⟨hmem, hkept⟩ := List.mem_filter.mp hpath
    obtain ⟨folder, hfolder, hlisted⟩ := List.mem_flatMap.mp hmem
    rw [Bool.not_eq_true'] at hkept
    rw [outcomeOf, outcomeOf, h.documentAt_eq hfolder hlisted hkept]
  rw [outcomes, outcomes, hcopies, hextracts, hsame, List.filter_append, List.filter_map,
    List.filter_map]
  congr 1
  exact congrArg _ (List.filter_eq_self.mpr fun _ _ => rfl).symm

end Pruned

/-- What is counted without the tablespaces that come to no document. -/
theorem foldl_after_filter (outcomes : List Outcome) :
    (outcomes.filter fun outcome => !outcome.isBarren).foldl Summary.after {} =
      { outcomes.foldl Summary.after {} with empty := 0, failed := 0 } := by
  have hnone (outcome : Outcome) (hbarren : outcome.isBarren = true) :
      (outcomes.filter fun outcome => !outcome.isBarren).count outcome = 0 :=
    List.count_eq_zero.mpr fun hmem => by simpa [hbarren] using (List.mem_filter.mp hmem).2
  have hothers (outcome : Outcome) (hkept : outcome.isBarren = false) :
      (outcomes.filter fun outcome => !outcome.isBarren).count outcome = outcomes.count outcome :=
    List.count_filter (by simp [hkept])
  rw [foldl_after, foldl_after, hnone .empty rfl, hnone .failed rfl, hothers .copied rfl,
    hothers .extracted rfl]

/-- The tree without the tablespaces that come to no document. -/
theorem exists_thinned (hwf : tree.WellFormed)
    (hthere : ∀ folder ∈ folders, tree.isFolder folder = true)
    (hfollows : ∀ folder ∈ folders, tree.FollowsBelow folder)
    (happart : folders.Pairwise fun folder folder' => ¬ tree.Overlap folder folder') :
    ∃ thin : Tree, thin.WellFormed ∧ Thinned (· ∈ job.barren tree folders) tree thin := by
  have hfailing : (job.failing tree folders).Finite :=
    (finite_and_ncard_found hwf hthere hfollows happart
      (fun path => job.outcomeOf tree path == .failed)
      fun path => by rw [beq_iff_eq, outcomeOf_eq_failed]).1
  have htableless : (job.tableless tree folders).Finite :=
    (finite_and_ncard_found hwf hthere hfollows happart
      (fun path => job.outcomeOf tree path == .empty)
      fun path => by rw [beq_iff_eq, outcomeOf_eq_empty]).1
  have hfinite : (job.barren tree folders).Finite := hfailing.union htableless
  have hmem (location : List String) :
      location ∈ hfinite.toFinset.toList ↔ location ∈ job.barren tree folders := by
    rw [Finset.mem_toList, Set.Finite.mem_toFinset]
  have hfiles : ∀ location ∈ hfinite.toFinset.toList,
      location ≠ [] ∧ tree.kindAt location = some .file := by
    intro location hlocation
    have hbarren := (hmem location).mp hlocation
    obtain ⟨folder, -, path, hfinds⟩ := exists_finds_of_mem_barren hthere hfollows hbarren
    obtain ⟨name, -, -, hlast⟩ := hfinds.fileName? hwf
    obtain ⟨folder', -, path', ⟨above, names, content, -, -, -, hfile⟩, -⟩ :=
      exists_fileBelow_of_mem_barren hbarren
    refine ⟨?_, kindAt_eq_file.mpr ⟨content, hfile⟩⟩
    intro hempty
    rw [hempty] at hlast
    cases hlast
  obtain ⟨hwf', hthin⟩ := thinned_without hwf hfinite.toFinset.nodup_toList hfiles
  exact ⟨_, hwf', hthin.congr hmem⟩

/-- The summary counts the files in the tree, and a run without the tablespaces that come to no
document has the same output, where the output is apart from the folders that are read and every
folder below these has a path that can be followed. -/
theorem Sited.run_isolated (hsited : job.Sited tree folders site) (hwf : tree.WellFormed)
    (hfolders : databaseFolders tree job.backup job.databases = .ok folders)
    (hfilter : job.databases ≠ [] →
      folders.Pairwise fun folder folder' => ¬ tree.Overlap folder folder')
    (hfollows : ∀ folder ∈ folders, tree.FollowsBelow folder)
    (hrun : job.run tree = .ok summary final) :
    (summary.copied = (documents tree folders).ncard ∧
      summary.extracted + summary.empty + summary.failed = (tablespaces tree folders).ncard ∧
      summary.failed = (job.failing tree folders).ncard ∧
      summary.empty = (job.tableless tree folders).ncard) ∧
    (∃ thin : Tree, thin.WellFormed ∧ Thinned (· ∈ job.barren tree folders) tree thin) ∧
    ∀ thin : Tree, thin.WellFormed → Thinned (· ∈ job.barren tree folders) tree thin →
      ∃ final', job.run thin = .ok { summary with empty := 0, failed := 0 } final' ∧
        ∀ location, site <+: location → final'.kindAt location = final.kindAt location ∧
          ∀ content, final'.at? location = some (.file content) ↔
            final.at? location = some (.file content) := by
  have happart : folders.Pairwise fun folder folder' => ¬ tree.Overlap folder folder' := by
    by_cases hnone : job.databases = []
    · rw [hnone] at hfolders
      exact pairwise_databaseFolders_nil hwf hfolders
    · exact hfilter hnone
  have hthere : ∀ folder ∈ folders, tree.isFolder folder = true := fun folder =>
    isFolder_of_mem_databaseFolders hfolders
  refine ⟨hsited.accounts hwf hfolders hfollows happart hrun,
    exists_thinned hwf hthere hfollows happart, ?_⟩
  intro thin hwf' hthin
  have hpruned : job.Pruned tree thin folders := ⟨hwf, hwf', hthere, hfollows, happart, hthin⟩
  have hfolders' := hthin.databaseFolders hwf hwf' hfolders
  obtain ⟨hready, hsteps, rfl⟩ := (hsited.run_eq_ok hwf hfolders).mp hrun
  obtain ⟨final', hsteps', hfinal⟩ := hsited.forM_of_thinned (fun _ => aims_of_mem_steps)
    (fun _ => barren_outside hsited) (.refl site tree) hthin hsteps
  refine ⟨final', ?_, fun location hbelow => ?_⟩
  · refine ((hsited.of_thinned hthin).run_eq_ok hwf' hfolders').mpr ⟨?_, ?_, ?_⟩
    · intro folder hfolder source hsource
      rw [hpruned.listed_documents hfolder] at hsource
      obtain ⟨content, hcontent⟩ := hready folder hfolder source hsource
      obtain ⟨location, hfinds⟩ := (mem_listed hwf (hthere folder hfolder)).mp hsource
      refine ⟨content, ?_⟩
      rw [hthin.readBytes_eq hwf hfinds.1 (notMem_barren hwf hthere hfollows hfinds), hcontent]
    · rw [hpruned.steps_eq]
      exact hsteps'
    · rw [hpruned.outcomes_eq, foldl_after_filter]
  · have hkept : location ∉ job.barren tree folders := fun hbarren =>
      barren_outside hsited hbarren hbelow
    exact ⟨hfinal.kinds location hkept, hfinal.files location hkept⟩

/-! ### A backup with files of every kind -/

/-- A document, tablespaces of every kind, and an output. -/
def everyKind (output : List (String × Tree)) : Tree :=
  .folder
    [("backup", .folder [("shop", .folder
      [("a.sdi", .file (Text.octets "1")), ("bad.ibd", .file .empty),
        ("fts_0000000000000001_config.ibd", .file .empty), ("none.ibd", .file .empty),
        ("t.ibd", .file .empty)])]),
      ("out", .folder output)]

/-- What is in the output for `everyKind` in the end. -/
def everyDocument : List (String × Tree) :=
  [("shop", .folder
    [("a.sdi", .file (Text.octets "1")), ("t.sdi", .file (Text.octets "\x7b\x7d"))])]

/-- An extraction whose program fails for one tablespace and finds no table in another one. -/
def everyOutcome : Job where
  executable := ⟨"ibd2sdi"⟩
  extractor := fun path _ =>
    if path = ⟨"backup/shop/bad.ibd"⟩ then .ok ⟨1, .empty, .empty⟩
    else if path = ⟨"backup/shop/none.ibd"⟩ then .ok ⟨0, Text.octets "[\"ibd2sdi\"]", .empty⟩
    else .ok ⟨0, Text.octets "\x7b\x7d", .empty⟩
  backup := ⟨"backup"⟩
  output := ⟨"out"⟩
  databases := []

theorem wellFormed_everyKind : (everyKind []).WellFormed := by
  simp only [everyKind, wellFormed_folder, List.forall_mem_cons, List.not_mem_nil,
    false_implies, implies_true, and_true, wellFormed_file]
  decide +kernel

theorem databaseFolders_everyKind :
    databaseFolders (everyKind []) everyOutcome.backup everyOutcome.databases =
      .ok [⟨"backup/shop"⟩] := by
  refine databaseFolders_nil.mpr (foldersIn_eq_ok.mpr ⟨_, _, rfl, ?_⟩)
  exact (List.mergeSort_of_pairwise (by decide +kernel)).symm

theorem sited_everyKind : everyOutcome.Sited (everyKind []) [⟨"backup/shop"⟩] ["out"] := by
  refine ⟨.inl rfl, fun folder hfolder above hreaches => ?_⟩
  obtain rfl := List.mem_singleton.mp hfolder
  have hplace : (everyKind []).Reaches ⟨"backup/shop"⟩ ["backup", "shop"] := ⟨_, rfl⟩
  obtain rfl := hreaches.unique hplace
  decide

theorem followsBelow_everyKind :
    ∀ folder ∈ [(⟨"backup/shop"⟩ : Path)], (everyKind []).FollowsBelow folder := by
  intro folder hfolder
  obtain rfl := List.mem_singleton.mp hfolder
  have hplace : ∃ entries, (everyKind []).place ⟨"backup/shop"⟩ =
        .ok (.taken ["backup", "shop"] (.folder entries)) ∧
      ∀ entry ∈ entries, entry.2.kind = .file :=
    ⟨_, rfl, by simp [kind]⟩
  obtain ⟨entries, hplace, hfiles⟩ := hplace
  exact followsBelow_of_files hplace hfiles

theorem listed_everyKind :
    listed (everyKind []) ⟨"backup/shop"⟩ Document.extension = [⟨"backup/shop/a.sdi"⟩] ∧
      listed (everyKind []) ⟨"backup/shop"⟩ "ibd" =
        [⟨"backup/shop/bad.ibd"⟩, ⟨"backup/shop/fts_0000000000000001_config.ibd"⟩,
          ⟨"backup/shop/none.ibd"⟩, ⟨"backup/shop/t.ibd"⟩] := by
  have hplace : ∃ entries, (everyKind []).place ⟨"backup/shop"⟩ =
        .ok (.taken ["backup", "shop"] (.folder entries)) ∧
      (filesAmong (everyKind []).isFolder ⟨"backup/shop"⟩ entries).filter
        (isWanted Document.extension) = [⟨"backup/shop/a.sdi"⟩] ∧
      (filesAmong (everyKind []).isFolder ⟨"backup/shop"⟩ entries).filter (isWanted "ibd") =
        [⟨"backup/shop/bad.ibd"⟩, ⟨"backup/shop/fts_0000000000000001_config.ibd"⟩,
          ⟨"backup/shop/none.ibd"⟩, ⟨"backup/shop/t.ibd"⟩] :=
    ⟨_, rfl, by decide +kernel, by decide +kernel⟩
  obtain ⟨entries, hplace, hsdi, hibd⟩ := hplace
  exact ⟨listed_eq_of_ascending hplace hsdi (List.pairwise_singleton _ _),
    listed_eq_of_ascending hplace hibd (by decide +kernel)⟩

theorem documentAt_everyKind :
    (∃ reason, everyOutcome.documentAt (everyKind []) ⟨"backup/shop/bad.ibd"⟩ = .error reason) ∧
      everyOutcome.documentAt (everyKind []) ⟨"backup/shop/none.ibd"⟩ = .ok none ∧
      everyOutcome.documentAt (everyKind []) ⟨"backup/shop/t.ibd"⟩ = .ok (some "\x7b\x7d") := by
  have hnone : Json.parse "[\"ibd2sdi\"]" = .ok (.array [.string "ibd2sdi"]) := rfl
  have htable : Json.parse "\x7b\x7d" = .ok (.object []) := rfl
  refine ⟨⟨_, rfl⟩, ?_, ?_⟩
  · change documentOf ⟨"backup/shop/none.ibd"⟩ (Text.octets "[\"ibd2sdi\"]") = _
    rw [documentOf, Text.lenientText_octets, hnone]
    rfl
  · change documentOf ⟨"backup/shop/t.ibd"⟩ (Text.octets "\x7b\x7d") = _
    rw [documentOf, Text.lenientText_octets, htable]
    rfl

theorem outcomeOf_everyKind :
    everyOutcome.outcomeOf (everyKind []) ⟨"backup/shop/bad.ibd"⟩ = .failed ∧
      everyOutcome.outcomeOf (everyKind []) ⟨"backup/shop/none.ibd"⟩ = .empty ∧
      everyOutcome.outcomeOf (everyKind []) ⟨"backup/shop/t.ibd"⟩ = .extracted ∧
      everyOutcome.outcomeOf (everyKind [])
        ⟨"backup/shop/fts_0000000000000001_config.ibd"⟩ = .passed := by
  obtain ⟨hbad, hnone, htable⟩ := documentAt_everyKind
  refine ⟨outcomeOf_eq_failed.mpr ⟨by decide +kernel, hbad⟩,
    outcomeOf_eq_empty.mpr ⟨by decide +kernel, hnone⟩, ?_, ?_⟩
  · rw [outcomeOf, if_neg (by decide +kernel), htable]
  · rw [outcomeOf, if_pos (by decide +kernel)]

theorem steps_everyKind : everyOutcome.steps (everyKind []) [⟨"backup/shop"⟩] =
    [.folder ⟨"out/shop"⟩, .deliver ⟨⟨"out/shop/a.sdi"⟩, Text.octets "1"⟩,
      .folder ⟨"out/shop"⟩, .deliver ⟨⟨"out/shop/t.sdi"⟩, Text.octets "\x7b\x7d"⟩] := by
  obtain ⟨hsdi, hibd⟩ := listed_everyKind
  obtain ⟨hbad, hnone, -, -⟩ := outcomeOf_everyKind
  obtain ⟨-, -, htable⟩ := documentAt_everyKind
  have hauxiliary (output : Path) : everyOutcome.extractOf (everyKind []) output
      ⟨"backup/shop/fts_0000000000000001_config.ibd"⟩ = none := by
    rw [extractOf, if_pos (by decide +kernel)]
  have hextracted (output : Path) : everyOutcome.extractOf (everyKind []) output
      ⟨"backup/shop/t.ibd"⟩ = some ⟨output.join "t.sdi", Text.octets "\x7b\x7d"⟩ := by
    rw [extractOf, if_neg (by decide +kernel), htable]
    rfl
  simp only [steps, stepsFor, List.flatMap_cons, List.flatMap_nil, hsdi, hibd,
    extractOf_eq_none (.inl hbad), extractOf_eq_none (.inr hnone), hauxiliary, hextracted]
  rfl

theorem run_everyKind :
    everyOutcome.run (everyKind []) =
      .ok { copied := 1, extracted := 1, empty := 1, failed := 1 } (everyKind everyDocument) := by
  rw [sited_everyKind.run_eq_ok wellFormed_everyKind databaseFolders_everyKind, steps_everyKind]
  obtain ⟨hsdi, hibd⟩ := listed_everyKind
  refine ⟨?_, ?_, ?_⟩
  · simp only [List.forall_mem_cons, List.not_mem_nil, false_implies, implies_true, and_true, hsdi]
    exact ⟨_, rfl⟩
  · refine Disk.forM_cons_eq_ok.mpr ⟨everyKind [("shop", .folder [])], rfl, ?_⟩
    refine Disk.forM_cons_eq_ok.mpr ⟨everyKind [("shop", .folder
      [("a.sdi", .file (Text.octets "1"))])], Step.run_deliver_eq_ok.mpr rfl, ?_⟩
    refine Disk.forM_cons_eq_ok.mpr ⟨everyKind [("shop", .folder
      [("a.sdi", .file (Text.octets "1"))])], rfl, ?_⟩
    exact Disk.forM_singleton_eq_ok.mpr (Step.run_deliver_eq_ok.mpr rfl)
  · obtain ⟨hbad, hnone, htable, hauxiliary⟩ := outcomeOf_everyKind
    simp only [outcomes, filesOf, List.flatMap_cons, List.flatMap_nil, hsdi, hibd, List.append_nil,
      List.map_cons, List.map_nil, hbad, hnone, htable, hauxiliary]
    rfl

theorem run_isolated_everyKind :
    (everyKind []).WellFormed ∧ everyOutcome.Sited (everyKind []) [⟨"backup/shop"⟩] ["out"] ∧
      everyOutcome.run (everyKind []) =
        .ok { copied := 1, extracted := 1, empty := 1, failed := 1 } (everyKind everyDocument) ∧
      (tablespaces (everyKind []) [⟨"backup/shop"⟩]).ncard = 3 ∧
      ∃ thin final', Thinned (· ∈ everyOutcome.barren (everyKind []) [⟨"backup/shop"⟩])
          (everyKind []) thin ∧
        everyOutcome.run thin = .ok { copied := 1, extracted := 1 } final' ∧
        final'.at? ["out", "shop", "t.sdi"] = some (.file (Text.octets "\x7b\x7d")) := by
  have hisolated := sited_everyKind.run_isolated wellFormed_everyKind databaseFolders_everyKind
    (fun hnamed => absurd rfl hnamed) followsBelow_everyKind run_everyKind
  obtain ⟨⟨-, htotal, -, -⟩, ⟨thin, hwf, hthin⟩, hsame⟩ := hisolated
  obtain ⟨final', hrun, houtput⟩ := hsame thin hwf hthin
  refine ⟨wellFormed_everyKind, sited_everyKind, run_everyKind, htotal.symm, thin, final', hthin,
    hrun, ?_⟩
  exact ((houtput ["out", "shop", "t.sdi"] ⟨["shop", "t.sdi"], rfl⟩).2 _).mpr rfl

/-! ### An output among the folders that are read -/

/-- A backup with one document, and an output beside it. -/
def besideBackup (output : List (String × Tree)) : Tree :=
  .folder
    [("backup", .folder [("shop", .folder [("a.sdi", .file (Text.octets "1"))])]),
      ("out", .folder output)]

/-- What is in the output for `besideBackup` when the documents of the first folder are there. -/
def copiedOnce : List (String × Tree) :=
  [("shop", .folder [("a.sdi", .file (Text.octets "1"))])]

/-- What is in the output for `besideBackup` in the end: the copy and a copy of the copy. -/
def copiedTwice : List (String × Tree) :=
  [("shop", .folder [("a.sdi", .file (Text.octets "1"))]),
    ("out", .folder [("a.sdi", .file (Text.octets "1"))])]

/-- An extraction that is told to read its output too, by a name that leads out of the backup. -/
def rereading : Job where
  executable := ⟨"ibd2sdi"⟩
  extractor := fun _ _ => .error .notFound
  backup := ⟨"backup"⟩
  output := ⟨"out"⟩
  databases := ["shop", "../out"]

theorem wellFormed_besideBackup : (besideBackup []).WellFormed := by
  simp only [besideBackup, wellFormed_folder, List.forall_mem_cons, List.not_mem_nil,
    false_implies, implies_true, and_true, wellFormed_file]
  decide +kernel

theorem databaseFolders_besideBackup :
    databaseFolders (besideBackup []) rereading.backup rereading.databases =
      .ok [⟨"backup/shop"⟩, ⟨"backup/../out"⟩] := rfl

theorem place_besideBackup (output : List (String × Tree)) :
    (besideBackup output).place ⟨"backup/shop"⟩ =
        .ok (.taken ["backup", "shop"] (.folder [("a.sdi", .file (Text.octets "1"))])) ∧
      (besideBackup output).place ⟨"backup/../out"⟩ = .ok (.taken ["out"] (.folder output)) :=
  ⟨rfl, rfl⟩

/-- In the beginning the two folders have nothing in common, and no folder is below them. -/
theorem apart_besideBackup :
    ([(⟨"backup/shop"⟩ : Path), ⟨"backup/../out"⟩].Pairwise
        fun folder folder' => ¬ (besideBackup []).Overlap folder folder') ∧
      ∀ folder ∈ [(⟨"backup/shop"⟩ : Path), ⟨"backup/../out"⟩],
        (besideBackup []).FollowsBelow folder := by
  obtain ⟨hshop, hout⟩ := place_besideBackup []
  constructor
  · rw [List.pairwise_pair]
    rintro ⟨above, below, habove, hbelow, hover⟩
    obtain rfl := habove.unique ⟨_, hshop⟩
    obtain rfl := hbelow.unique ⟨_, hout⟩
    exact absurd hover (by decide)
  · simp only [List.forall_mem_cons, List.not_mem_nil, false_implies, implies_true, and_true]
    exact ⟨followsBelow_of_files hshop (by simp [kind]), followsBelow_of_files hout (by simp)⟩

/-- What is found while the documents are copied: the copy is found in its turn. -/
theorem filesWithExtension_besideBackup :
    filesWithExtension (besideBackup [("shop", .folder [])]) ⟨"backup/shop"⟩ Document.extension =
        .ok [⟨"backup/shop/a.sdi"⟩] ∧
      filesWithExtension (besideBackup (copiedOnce ++ [("out", .folder [])])) ⟨"backup/../out"⟩
        Document.extension = .ok [⟨"backup/../out/shop/a.sdi"⟩] ∧
      filesWithExtension (besideBackup copiedTwice) ⟨"backup/shop"⟩ "ibd" = .ok [] ∧
      filesWithExtension (besideBackup copiedTwice) ⟨"backup/../out"⟩ "ibd" = .ok [] :=
  ⟨filesWithExtension_of_ascending (place_besideBackup _).1 (by decide +kernel)
      (List.pairwise_singleton _ _),
    filesWithExtension_of_ascending (place_besideBackup _).2 (by decide +kernel)
      (List.pairwise_singleton _ _),
    filesWithExtension_of_ascending (place_besideBackup _).1 (by decide +kernel) .nil,
    filesWithExtension_of_ascending (place_besideBackup _).2 (by decide +kernel) .nil⟩

theorem copyDocument_of_copy (name : String) (hname : source.fileName? = some name)
    (hcopy : Disk.copy source (output.join name) now = .ok () final) :
    copyDocument output summary source now =
      .ok { summary with copied := summary.copied + 1 } final := by
  unfold copyDocument
  rw [hname]
  exact Disk.bind_pure_eq_ok.mpr ⟨Disk.mapError_eq_ok.mpr hcopy, rfl⟩

theorem copies_besideBackup :
    [(⟨"backup/shop"⟩ : Path), ⟨"backup/../out"⟩].foldlM rereading.copyFolder {}
        (besideBackup []) = .ok { copied := 2 } (besideBackup copiedTwice) := by
  obtain ⟨hshop, hout, -, -⟩ := filesWithExtension_besideBackup
  have hshopMade : rereading.outputFolder ⟨"backup/shop"⟩ (besideBackup []) =
      .ok ⟨"out/shop"⟩ (besideBackup [("shop", .folder [])]) :=
    outputFolder_eq_ok.mpr ⟨rfl, by decide +kernel⟩
  have houtMade : rereading.outputFolder ⟨"backup/../out"⟩ (besideBackup copiedOnce) =
      .ok ⟨"out/out"⟩ (besideBackup (copiedOnce ++ [("out", .folder [])])) :=
    outputFolder_eq_ok.mpr ⟨rfl, by decide +kernel⟩
  have hfirst : copyDocument ⟨"out/shop"⟩ {} ⟨"backup/shop/a.sdi"⟩
      (besideBackup [("shop", .folder [])]) = .ok { copied := 1 } (besideBackup copiedOnce) :=
    copyDocument_of_copy "a.sdi" (by decide +kernel) rfl
  have hsecond : copyDocument ⟨"out/out"⟩ { copied := 1 } ⟨"backup/../out/shop/a.sdi"⟩
      (besideBackup (copiedOnce ++ [("out", .folder [])])) =
        .ok { copied := 2 } (besideBackup copiedTwice) :=
    copyDocument_of_copy "a.sdi" (by decide +kernel) rfl
  refine Disk.foldlM_cons_eq_ok.mpr ⟨{ copied := 1 }, besideBackup copiedOnce, ?_,
    Disk.foldlM_cons_eq_ok.mpr ⟨{ copied := 2 }, besideBackup copiedTwice, ?_, rfl⟩⟩
  · refine Disk.bind_eq_ok.mpr ⟨_, _, hshopMade, Disk.look_bind_eq_ok.mpr ⟨_, hshop, ?_⟩⟩
    exact Disk.foldlM_cons_eq_ok.mpr ⟨_, _, hfirst, rfl⟩
  · refine Disk.bind_eq_ok.mpr ⟨_, _, houtMade, Disk.look_bind_eq_ok.mpr ⟨_, hout, ?_⟩⟩
    exact Disk.foldlM_cons_eq_ok.mpr ⟨_, _, hsecond, rfl⟩

theorem extracts_besideBackup :
    [(⟨"backup/shop"⟩ : Path), ⟨"backup/../out"⟩].foldlM rereading.extractFolder { copied := 2 }
        (besideBackup copiedTwice) = .ok { copied := 2 } (besideBackup copiedTwice) := by
  obtain ⟨-, -, hshop, hout⟩ := filesWithExtension_besideBackup
  have hshopMade : rereading.outputFolder ⟨"backup/shop"⟩ (besideBackup copiedTwice) =
      .ok ⟨"out/shop"⟩ (besideBackup copiedTwice) :=
    outputFolder_eq_ok.mpr ⟨rfl, by decide +kernel⟩
  have houtMade : rereading.outputFolder ⟨"backup/../out"⟩ (besideBackup copiedTwice) =
      .ok ⟨"out/out"⟩ (besideBackup copiedTwice) :=
    outputFolder_eq_ok.mpr ⟨rfl, by decide +kernel⟩
  refine Disk.foldlM_cons_eq_ok.mpr ⟨{ copied := 2 }, besideBackup copiedTwice, ?_,
    Disk.foldlM_cons_eq_ok.mpr ⟨{ copied := 2 }, besideBackup copiedTwice, ?_, rfl⟩⟩
  · exact Disk.bind_eq_ok.mpr ⟨_, _, hshopMade, Disk.look_bind_eq_ok.mpr ⟨_, hshop, rfl⟩⟩
  · exact Disk.bind_eq_ok.mpr ⟨_, _, houtMade, Disk.look_bind_eq_ok.mpr ⟨_, hout, rfl⟩⟩

theorem ncard_documents_besideBackup :
    (documents (besideBackup []) [⟨"backup/shop"⟩, ⟨"backup/../out"⟩]).ncard = 1 := by
  obtain ⟨happart, hfollows⟩ := apart_besideBackup
  have hshop : listed (besideBackup []) ⟨"backup/shop"⟩ Document.extension =
      [⟨"backup/shop/a.sdi"⟩] :=
    listed_eq_of_ascending (place_besideBackup []).1 (by decide +kernel)
      (List.pairwise_singleton _ _)
  have hout : listed (besideBackup []) ⟨"backup/../out"⟩ Document.extension = [] :=
    listed_eq_of_ascending (place_besideBackup []).2 (by decide +kernel) .nil
  have hthere : ∀ folder ∈ [(⟨"backup/shop"⟩ : Path), ⟨"backup/../out"⟩],
      (besideBackup []).isFolder folder = true :=
    fun folder => isFolder_of_mem_databaseFolders databaseFolders_besideBackup
  rw [documents, (finite_and_ncard_found wellFormed_besideBackup hthere hfollows happart
    (fun _ => true) (by simp)).2, filesOf, List.flatMap_cons, List.flatMap_cons, hshop, hout]
  rfl

/-- A document is counted twice if its copy is among the files that are read, although the folders
that are read have nothing in common. -/
theorem run_copies_twice :
    (besideBackup []).WellFormed ∧
      databaseFolders (besideBackup []) rereading.backup rereading.databases =
        .ok [⟨"backup/shop"⟩, ⟨"backup/../out"⟩] ∧
      ([(⟨"backup/shop"⟩ : Path), ⟨"backup/../out"⟩].Pairwise
        fun folder folder' => ¬ (besideBackup []).Overlap folder folder') ∧
      (besideBackup []).place rereading.output = .ok (.taken ["out"] (.folder [])) ∧
      ¬ (besideBackup []).Overlap rereading.backup rereading.output ∧
      rereading.run (besideBackup []) = .ok { copied := 2 } (besideBackup copiedTwice) ∧
      (documents (besideBackup []) [⟨"backup/shop"⟩, ⟨"backup/../out"⟩]).ncard = 1 := by
  have hbackup : (besideBackup []).Reaches rereading.backup ["backup"] := ⟨_, rfl⟩
  have houtput : (besideBackup []).Reaches rereading.output ["out"] := ⟨_, rfl⟩
  refine ⟨wellFormed_besideBackup, databaseFolders_besideBackup, apart_besideBackup.1, rfl, ?_, ?_,
    ncard_documents_besideBackup⟩
  · rintro ⟨above, below, habove, hbelow, hover⟩
    obtain rfl := habove.unique hbackup
    obtain rfl := hbelow.unique houtput
    exact absurd hover (by decide)
  · refine Disk.look_bind_eq_ok.mpr ⟨_, databaseFolders_besideBackup, ?_⟩
    exact Disk.bind_eq_ok.mpr ⟨_, _, copies_besideBackup, extracts_besideBackup⟩

end Job

end DictionaryDdl.Extraction
