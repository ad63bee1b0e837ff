import DictionaryDdl.Proofs.Extraction.Run

/-!
What becomes of the documents of a backup. Each one is copied under its own file name into the
folder of its database, wherever below the folder it was found, and a document that is extracted
may have that name too. The last of the documents that go by one path is the one that stays, so a
document is kept where all others that go its way say the same, and else it may be lost.
-/

namespace DictionaryDdl.Extraction

open DictionaryDdl.Tree Discovery

/-- The document that a step puts into the output. -/
def Step.delivery? : Step → Option Delivery
  | .folder _ => none
  | .deliver delivery => some delivery

/-- The last of the documents that go by a path. -/
def lastTo (target : Path) (deliveries : List Delivery) : Option Delivery :=
  deliveries.reverse.find? fun delivery => delivery.target = target

variable {tree final : Tree} {plan : List Step} {target : Path} {delivery last : Delivery}

theorem mem_filterMap_delivery? :
    delivery ∈ plan.filterMap Step.delivery? ↔ .deliver delivery ∈ plan := by
  rw [List.mem_filterMap]
  constructor
  · rintro ⟨step, hstep, hdelivery⟩
    cases step with
    | folder path => cases hdelivery
    | deliver found =>
        cases hdelivery
        exact hstep
  · intro h
    exact ⟨_, h, rfl⟩

theorem exists_lastTo {deliveries : List Delivery} (h : delivery ∈ deliveries) :
    ∃ last ∈ deliveries, lastTo delivery.target deliveries = some last ∧
      last.target = delivery.target := by
  cases hlast : lastTo delivery.target deliveries with
  | none =>
      have hnone := List.find?_eq_none.mp hlast delivery (List.mem_reverse.mpr h)
      simp at hnone
  | some last =>
      have htarget := List.find?_some hlast
      have hmem := List.mem_reverse.mp (List.mem_of_find?_eq_some hlast)
      exact ⟨last, hmem, rfl, by simpa using htarget⟩

/-- After the last document that goes by a path no other one does. -/
theorem exists_split_of_lastTo (h : lastTo target (plan.filterMap Step.delivery?) = some last) :
    last.target = target ∧ ∃ before after, plan = before ++ .deliver last :: after ∧
      ∀ delivery, .deliver delivery ∈ after → delivery.target ≠ target := by
  induction plan using List.reverseRecOn with
  | nil => cases h
  | append_singleton steps step ih =>
      unfold lastTo at h ih
      cases step with
      | folder path =>
          simp only [List.filterMap_append, List.filterMap_cons, List.filterMap_nil,
            Step.delivery?, List.append_nil] at h
          obtain ⟨htarget, before, after, rfl, hafter⟩ := ih h
          refine ⟨htarget, before, after ++ [.folder path], by simp, fun delivery hdelivery => ?_⟩
          exact hafter delivery (by simpa using hdelivery)
      | deliver found =>
          simp only [List.filterMap_append, List.filterMap_cons, List.filterMap_nil,
            Step.delivery?, List.reverse_append, List.reverse_singleton, List.singleton_append,
            List.find?_cons] at h
          by_cases hfound : found.target = target
          · simp only [hfound, decide_true, Option.some.injEq] at h
            subst h
            exact ⟨hfound, steps, [], rfl, by simp⟩
          · simp only [hfound, decide_false] at h
            obtain ⟨htarget, before, after, rfl, hafter⟩ := ih h
            refine ⟨htarget, before, after ++ [.deliver found], by simp,
              fun delivery hdelivery => ?_⟩
            rcases List.mem_append.mp hdelivery with hdelivery | hdelivery
            · exact hafter delivery hdelivery
            · cases List.mem_singleton.mp hdelivery
              exact hfound

namespace Job

variable {job : Job} {folders : List Path} {folder source : Path}
  {site location : List String} {summary : Summary} {extension : String}

/-- All documents that a run puts into the output, in the order in which it does. -/
def deliveries (job : Job) (tree : Tree) (folders : List Path) : List Delivery :=
  (job.steps tree folders).filterMap Step.delivery?

theorem Sited.readBytes_of_lastTo (hsited : job.Sited tree folders site)
    (hrun : (job.steps tree folders).forM Step.run tree = .ok () final)
    (hlast : lastTo target (job.deliveries tree folders) = some last) :
    final.readBytes target = .ok last.content := by
  obtain ⟨rfl, before, after, hplan, hafter⟩ := exists_split_of_lastTo hlast
  have hgrown :=
    (hsited.confined_of_forM (fun _ => aims_of_mem_steps) (.refl site tree) hrun).grown
  have haims (delivery : Delivery) (hmem : .deliver delivery ∈ .deliver last :: after) :
      job.Aims (.deliver delivery) :=
    aims_of_mem_steps (by rw [hplan]; exact List.mem_append_right before hmem)
  rw [hplan] at hrun
  refine Step.readBytes_of_last hrun fun location hreaches => ?_
  rintro ⟨other, hother, hreaches'⟩
  obtain ⟨folder, name, hname, htarget⟩ := haims last List.mem_cons_self
  obtain ⟨folder', name', hname', htarget'⟩ := haims other (List.mem_cons_of_mem _ hother)
  rw [htarget] at hreaches
  rw [htarget'] at hreaches'
  have hplace := hsited.location_eq hgrown hname hreaches
  have hplace' := hsited.location_eq hgrown hname' hreaches'
  refine hafter other hother ?_
  rw [htarget, htarget', target_eq_of_location_eq (hplace'.symm.trans hplace)]

/-- Each document of the backup is copied into the folder of its database, and there is the last of
the documents that go by the path of the copy. It has the same content if all of them have. -/
theorem Sited.exists_copy (hsited : job.Sited tree folders site) (hwf : tree.WellFormed)
    (hfolders : databaseFolders tree job.backup job.databases = .ok folders)
    (hrun : job.run tree = .ok summary final) (hfolder : folder ∈ folders)
    (hfinds : Finds Document.extension tree folder source location) :
    ∃ name content last, source.fileName? = some name ∧ tree.readBytes source = .ok content ∧
      ⟨(job.outputPath folder).join name, content⟩ ∈ job.deliveries tree folders ∧
      lastTo ((job.outputPath folder).join name) (job.deliveries tree folders) = some last ∧
      final.readBytes ((job.outputPath folder).join name) = .ok last.content ∧
      ((∀ delivery ∈ job.deliveries tree folders,
          delivery.target = (job.outputPath folder).join name → delivery.content = content) →
        final.readBytes ((job.outputPath folder).join name) = .ok content) := by
  obtain ⟨hready, hsteps, -⟩ := (hsited.run_eq_ok hwf hfolders).mp hrun
  have hthere := isFolder_of_mem_databaseFolders hfolders hfolder
  obtain ⟨name, -, hname, -⟩ := hfinds.fileName? hwf
  have hlisted := (mem_listed hwf hthere).mpr ⟨location, hfinds⟩
  obtain ⟨content, hcontent⟩ := hready folder hfolder source hlisted
  have hcopy : copyOf tree (job.outputPath folder) source =
      some ⟨(job.outputPath folder).join name, content⟩ := by
    unfold copyOf
    rw [hname, hcontent]
    rfl
  have hdelivery : ⟨(job.outputPath folder).join name, content⟩ ∈ job.deliveries tree folders := by
    refine mem_filterMap_delivery?.mpr (List.mem_append_left _ ?_)
    refine List.mem_flatMap.mpr ⟨folder, hfolder, List.mem_cons_of_mem _ ?_⟩
    refine List.mem_flatMap.mpr ⟨source, hlisted, ?_⟩
    rw [hcopy]
    exact List.mem_singleton_self _
  obtain ⟨last, hmem, hlast, htarget⟩ := exists_lastTo hdelivery
  have hread := hsited.readBytes_of_lastTo hsteps hlast
  refine ⟨name, content, last, hname, hcontent, hdelivery, hlast, hread, fun hall => ?_⟩
  rw [hread, hall last hmem htarget]

/-! ### Documents of one name -/

/-- A backup of three documents, two of which have the same name, and an output. -/
def sameNames (output : List (String × Tree)) : Tree :=
  .folder
    [("backup", .folder [("shop", .folder
      [("a", .folder [("t.sdi", .file (Text.octets "1"))]),
        ("b", .folder [("t.sdi", .file (Text.octets "2"))]),
        ("c", .folder [("u.sdi", .file (Text.octets "3"))])])]),
      ("out", .folder output)]

/-- What is in the output for `sameNames` in the end. -/
def lastNames : List (String × Tree) :=
  [("shop", .folder [("t.sdi", .file (Text.octets "2")), ("u.sdi", .file (Text.octets "3"))])]

/-- An extraction without an extracting program. -/
def withoutProgram : Job where
  executable := ⟨"ibd2sdi"⟩
  extractor := fun _ _ => .error .notFound
  backup := ⟨"backup"⟩
  output := ⟨"out"⟩
  databases := ["shop"]

theorem wellFormed_sameNames : (sameNames []).WellFormed := by
  simp only [sameNames, wellFormed_folder, List.forall_mem_cons, List.not_mem_nil,
    false_implies, implies_true, and_true, wellFormed_file]
  decide +kernel

theorem databaseFolders_sameNames :
    databaseFolders (sameNames []) withoutProgram.backup withoutProgram.databases =
      .ok [⟨"backup/shop"⟩] := rfl

theorem sited_sameNames : withoutProgram.Sited (sameNames []) [⟨"backup/shop"⟩] ["out"] := by
  refine ⟨.inl rfl, fun folder hfolder above hreaches => ?_⟩
  obtain rfl := List.mem_singleton.mp hfolder
  have hplace : (sameNames []).Reaches ⟨"backup/shop"⟩ ["backup", "shop"] := ⟨_, rfl⟩
  obtain rfl := hreaches.unique hplace
  decide

theorem listed_sameNames :
    listed (sameNames []) ⟨"backup/shop"⟩ Document.extension =
        [⟨"backup/shop/a/t.sdi"⟩, ⟨"backup/shop/b/t.sdi"⟩, ⟨"backup/shop/c/u.sdi"⟩] ∧
      listed (sameNames []) ⟨"backup/shop"⟩ "ibd" = [] := by
  have hplace : ∃ entries, (sameNames []).place ⟨"backup/shop"⟩ =
        .ok (.taken ["backup", "shop"] (.folder entries)) ∧
      (filesAmong (sameNames []).isFolder ⟨"backup/shop"⟩ entries).filter
          (isWanted Document.extension) =
        [⟨"backup/shop/a/t.sdi"⟩, ⟨"backup/shop/b/t.sdi"⟩, ⟨"backup/shop/c/u.sdi"⟩] ∧
      (filesAmong (sameNames []).isFolder ⟨"backup/shop"⟩ entries).filter (isWanted "ibd") = [] :=
    ⟨_, rfl, by decide +kernel, by decide +kernel⟩
  obtain ⟨entries, hplace, hsdi, hibd⟩ := hplace
  exact ⟨listed_eq_of_ascending hplace hsdi (by decide +kernel),
    listed_eq_of_ascending hplace hibd .nil⟩

theorem steps_sameNames : withoutProgram.steps (sameNames []) [⟨"backup/shop"⟩] =
    [.folder ⟨"out/shop"⟩, .deliver ⟨⟨"out/shop/t.sdi"⟩, Text.octets "1"⟩,
      .deliver ⟨⟨"out/shop/t.sdi"⟩, Text.octets "2"⟩,
      .deliver ⟨⟨"out/shop/u.sdi"⟩, Text.octets "3"⟩, .folder ⟨"out/shop"⟩] := by
  obtain ⟨hsdi, hibd⟩ := listed_sameNames
  simp only [steps, stepsFor, List.flatMap_cons, List.flatMap_nil, hsdi, hibd]
  rfl

theorem run_sameNames :
    withoutProgram.run (sameNames []) = .ok { copied := 3 } (sameNames lastNames) := by
  rw [sited_sameNames.run_eq_ok wellFormed_sameNames databaseFolders_sameNames, steps_sameNames]
  obtain ⟨hsdi, hibd⟩ := listed_sameNames
  refine ⟨?_, ?_, ?_⟩
  · simp only [List.forall_mem_cons, List.not_mem_nil, false_implies, implies_true, and_true, hsdi]
    exact ⟨⟨_, rfl⟩, ⟨_, rfl⟩, ⟨_, rfl⟩⟩
  · refine Disk.forM_cons_eq_ok.mpr ⟨sameNames [("shop", .folder [])], rfl, ?_⟩
    refine Disk.forM_cons_eq_ok.mpr ⟨sameNames [("shop", .folder
      [("t.sdi", .file (Text.octets "1"))])], Step.run_deliver_eq_ok.mpr rfl, ?_⟩
    refine Disk.forM_cons_eq_ok.mpr ⟨sameNames [("shop", .folder
      [("t.sdi", .file (Text.octets "2"))])], Step.run_deliver_eq_ok.mpr rfl, ?_⟩
    refine Disk.forM_cons_eq_ok.mpr ⟨sameNames lastNames, Step.run_deliver_eq_ok.mpr rfl, ?_⟩
    exact Disk.forM_singleton_eq_ok.mpr rfl
  · simp only [outcomes, filesOf, List.flatMap_cons, List.flatMap_nil, hsdi, hibd]
    rfl

theorem exists_copy_sameNames :
    (sameNames []).WellFormed ∧ withoutProgram.Sited (sameNames []) [⟨"backup/shop"⟩] ["out"] ∧
      withoutProgram.run (sameNames []) = .ok { copied := 3 } (sameNames lastNames) ∧
      Finds Document.extension (sameNames []) ⟨"backup/shop"⟩ ⟨"backup/shop/c/u.sdi"⟩
        ["backup", "shop", "c", "u.sdi"] ∧
      (sameNames lastNames).readBytes ⟨"out/shop/u.sdi"⟩ = .ok (Text.octets "3") := by
  have hfinds : Finds Document.extension (sameNames []) ⟨"backup/shop"⟩ ⟨"backup/shop/c/u.sdi"⟩
      ["backup", "shop", "c", "u.sdi"] :=
    ⟨⟨["backup", "shop"], ["c"], "u.sdi", ⟨_, rfl⟩, rfl, rfl, by decide +kernel, .inl rfl⟩,
      by decide +kernel⟩
  obtain ⟨name, content, last, hname, hcontent, -, -, -, hkept⟩ :=
    sited_sameNames.exists_copy wellFormed_sameNames databaseFolders_sameNames run_sameNames
      List.mem_cons_self hfinds
  have hfile : (Path.mk "backup/shop/c/u.sdi").fileName? = some "u.sdi" := by decide +kernel
  have hread : (sameNames []).readBytes ⟨"backup/shop/c/u.sdi"⟩ = .ok (Text.octets "3") := rfl
  obtain rfl := Option.some.inj (hname.symm.trans hfile)
  obtain rfl := Except.ok.inj (hcontent.symm.trans hread)
  refine ⟨wellFormed_sameNames, sited_sameNames, run_sameNames, hfinds, hkept ?_⟩
  intro delivery hdelivery htarget
  rw [deliveries, steps_sameNames, mem_filterMap_delivery?] at hdelivery
  have hother : (Path.mk "out/shop/t.sdi") ≠
      (withoutProgram.outputPath ⟨"backup/shop"⟩).join "u.sdi" := by decide +kernel
  simp only [List.mem_cons, Step.deliver.injEq, reduceCtorEq, false_or, List.not_mem_nil, or_false]
    at hdelivery
  rcases hdelivery with rfl | rfl | rfl
  · exact absurd htarget hother
  · exact absurd htarget hother
  · rfl

theorem content_of_lastNames {rest : List String} {content : ByteArray}
    (h : (Tree.folder lastNames).at? rest = some (.file content)) :
    content = Text.octets "2" ∨ content = Text.octets "3" := by
  have hleaf {found content : ByteArray} {rest : List String}
      (h : (Tree.file found).at? rest = some (.file content)) : content = found := by
    cases rest with
    | nil =>
        cases h
        rfl
    | cons name more => cases h
  cases rest with
  | nil => cases h
  | cons shop rest =>
      obtain ⟨node, hnode, hrest⟩ := Option.bind_eq_some_iff.mp h
      rw [lastNames, lookup_cons_eq_ite] at hnode
      split_ifs at hnode
      · cases hnode
        cases rest with
        | nil => cases hrest
        | cons name rest =>
            obtain ⟨node, hnode, hrest⟩ := Option.bind_eq_some_iff.mp hrest
            rw [lookup_cons_eq_ite, lookup_cons_eq_ite] at hnode
            split_ifs at hnode
            · cases hnode
              exact .inl (hleaf hrest)
            · cases hnode
              exact .inr (hleaf hrest)
            · cases hnode
      · cases hnode

/-- Of two documents of one name the first one is lost. -/
theorem run_loses_copy :
    withoutProgram.run (sameNames []) = .ok { copied := 3 } (sameNames lastNames) ∧
      Finds Document.extension (sameNames []) ⟨"backup/shop"⟩ ⟨"backup/shop/a/t.sdi"⟩
        ["backup", "shop", "a", "t.sdi"] ∧
      (sameNames []).readBytes ⟨"backup/shop/a/t.sdi"⟩ = .ok (Text.octets "1") ∧
      ∀ location, ["out"] <+: location →
        (sameNames lastNames).at? location ≠ some (.file (Text.octets "1")) := by
  have hfinds : Finds Document.extension (sameNames []) ⟨"backup/shop"⟩ ⟨"backup/shop/a/t.sdi"⟩
      ["backup", "shop", "a", "t.sdi"] :=
    ⟨⟨["backup", "shop"], ["a"], "t.sdi", ⟨_, rfl⟩, rfl, rfl, by decide +kernel, .inl rfl⟩,
      by decide +kernel⟩
  have hread : (sameNames []).readBytes ⟨"backup/shop/a/t.sdi"⟩ = .ok (Text.octets "1") := rfl
  refine ⟨run_sameNames, hfinds, hread, fun location hbelow hfile => ?_⟩
  obtain ⟨rest, rfl⟩ := hbelow
  have hout : (sameNames lastNames).at? ["out"] = some (.folder lastNames) := rfl
  rw [at?_append, hout, Option.bind_some] at hfile
  rcases content_of_lastNames hfile with hsame | hsame
  · have htext := congrArg Text.strictText? hsame
    rw [Text.strictText?_octets, Text.strictText?_octets] at htext
    exact absurd htext (by decide)
  · have htext := congrArg Text.strictText? hsame
    rw [Text.strictText?_octets, Text.strictText?_octets] at htext
    exact absurd htext (by decide)

end Job

end DictionaryDdl.Extraction
