import DictionaryDdl.Proofs.Files.Finding
import DictionaryDdl.Proofs.Files.Folders

/-!
A tree without some of its files. Everything else is where it was, so a path that leads to something
else leads there still, and what is written elsewhere comes out the same. Where a path goes through
a file that is gone nothing is said, because then it is missing where it was no folder before.
-/

namespace DictionaryDdl.Tree

variable {gone gone' : List String → Prop} {full thin thinner after made : Tree}
  {here pieces location place rest : List String} {path folder : Path} {chain : List Path}
  {node : Tree} {name : String} {content : ByteArray} {entries : List (String × Tree)}
  {reason : IoError}

/-- Whether a tree is another one without the files at some locations. -/
structure Thinned (gone : List String → Prop) (full thin : Tree) : Prop where
  kinds : ∀ location, ¬ gone location → thin.kindAt location = full.kindAt location
  files : ∀ location, ¬ gone location → ∀ content,
    thin.at? location = some (.file content) ↔ full.at? location = some (.file content)
  gone : ∀ location, gone location →
    full.kindAt location = some .file ∧ thin.kindAt location = none

theorem Thinned.not_gone_of_folder (h : Thinned gone full thin)
    (hfolder : full.kindAt location = some .folder) : ¬ gone location := by
  intro hgone
  rw [(h.gone location hgone).1] at hfolder
  cases hfolder

theorem Thinned.not_gone_of_none (h : Thinned gone full thin)
    (hnone : full.kindAt location = none) : ¬ gone location := by
  intro hgone
  rw [(h.gone location hgone).1] at hnone
  cases hnone

/-- With its files back a tree is one that has grown. -/
theorem Thinned.grown (h : Thinned gone full thin) : Grown gone thin full := by
  refine ⟨fun location kind hkind => ?_, fun location hkept content =>
    (h.files location hkept content).symm⟩
  by_cases hgone : gone location
  · rw [(h.gone location hgone).2] at hkind
    cases hkind
  · rw [← h.kinds location hgone, hkind]

theorem Thinned.refl (tree : Tree) : Thinned (fun _ => False) tree tree :=
  ⟨fun _ _ => rfl, fun _ _ _ => Iff.rfl, fun _ h => h.elim⟩

theorem Thinned.trans (h : Thinned gone full thin) (h' : Thinned gone' thin thinner) :
    Thinned (fun location => gone location ∨ gone' location) full thinner := by
  refine ⟨fun location hkept => ?_, fun location hkept content => ?_, fun location hgone => ?_⟩
  · rw [not_or] at hkept
    exact (h'.kinds location hkept.2).trans (h.kinds location hkept.1)
  · rw [not_or] at hkept
    exact (h'.files location hkept.2 content).trans (h.files location hkept.1 content)
  · by_cases hfirst : gone location
    · obtain ⟨hfile, hnone⟩ := h.gone location hfirst
      refine ⟨hfile, ?_⟩
      by_cases hsecond : gone' location
      · exact (h'.gone location hsecond).2
      · rw [h'.kinds location hsecond, hnone]
    · obtain ⟨hfile, hnone⟩ := h'.gone location (hgone.resolve_left hfirst)
      exact ⟨(h.kinds location hfirst).symm.trans hfile, hnone⟩

theorem Thinned.congr (h : Thinned gone full thin)
    (hsame : ∀ location, gone location ↔ gone' location) : Thinned gone' full thin := by
  obtain rfl : gone = gone' := funext fun location => propext (hsame location)
  exact h

/-! ### Following a path -/

/-- Where a path leads, and to what kind of thing. -/
def Place.shape : Place → List String × Option Kind
  | .taken location node => (location, some node.kind)
  | .free location => (location, none)

theorem Thinned.at?_eq_none (h : Thinned gone full thin) (hnone : full.at? location = none) :
    thin.at? location = none := by
  have hkind : full.kindAt location = none := by rw [kindAt, hnone, Option.map_none]
  have hthin := h.kinds _ (h.not_gone_of_none hkind)
  rwa [hkind, kindAt, Option.map_eq_none_iff] at hthin

theorem Thinned.at?_folder (h : Thinned gone full thin)
    (hfolder : full.at? location = some (.folder entries)) :
    ∃ entries', thin.at? location = some (.folder entries') := by
  have hkind := kindAt_eq_folder.mpr ⟨entries, hfolder⟩
  have hthin := h.kinds _ (h.not_gone_of_folder hkind)
  exact kindAt_eq_folder.mp (hthin.trans hkind)

/-- The same names stand in a folder, but for a file that is gone. -/
theorem Thinned.isSome_lookup (h : Thinned gone full thin) {entries' : List (String × Tree)}
    (hfull : full.at? location = some (.folder entries))
    (hthin : thin.at? location = some (.folder entries')) (hkept : ¬ gone (location ++ [name])) :
    (entries'.lookup name).isSome = (entries.lookup name).isSome := by
  have hkind := h.kinds _ hkept
  rw [kindAt_entry hthin, kindAt_entry hfull] at hkind
  simpa only [Option.isSome_map] using congrArg Option.isSome hkind

theorem Thinned.follow_nil (h : Thinned gone full thin)
    (hkept : ∀ location node, follow full here [] = .ok (.taken location node) → ¬ gone location) :
    (follow thin here []).map Place.shape = (follow full here []).map Place.shape := by
  unfold follow at hkept ⊢
  cases hfull : full.at? here.reverse with
  | none => rw [h.at?_eq_none hfull]
  | some node =>
      rw [hfull] at hkept
      have hthin := h.kinds _ (hkept _ node rfl)
      rw [kindAt, kindAt, hfull, Option.map_some] at hthin
      obtain ⟨child, hchild, hkind⟩ := Option.map_eq_some_iff.mp hthin
      rw [hchild]
      simp [Except.map, Place.shape, hkind]

/-- The next name of a path is none of a file that is gone. -/
theorem Thinned.not_gone_of_follow (h : Thinned gone full thin)
    (hkept : ∀ location node, follow full (name :: here) pieces = .ok (.taken location node) →
      ¬ gone location)
    (hthrough : follow full (name :: here) pieces ≠ .error .notADirectory) :
    ¬ gone (here.reverse ++ [name]) := by
  intro hgone
  obtain ⟨content, hfile⟩ := kindAt_eq_file.mp (h.gone _ hgone).1
  rw [← List.reverse_cons] at hgone hfile
  cases pieces with
  | nil => exact hkept _ _ (follow_nil_eq_ok.mpr ⟨_, hfile, rfl⟩) hgone
  | cons next others =>
      refine hthrough ?_
      unfold follow
      rw [hfile]

/-- A path leads where it led before, unless it was to a file that is gone or through one. -/
theorem Thinned.follow_eq (h : Thinned gone full thin)
    (hkept : ∀ location node, follow full here pieces = .ok (.taken location node) →
      ¬ gone location)
    (hthrough : follow full here pieces ≠ .error .notADirectory) :
    (follow thin here pieces).map Place.shape = (follow full here pieces).map Place.shape := by
  induction pieces generalizing here with
  | nil => exact h.follow_nil hkept
  | cons piece more ih =>
      cases hfull : full.at? here.reverse with
      | none => simp [follow, hfull, h.at?_eq_none hfull]
      | some found =>
          cases found with
          | file content => simp [follow, hfull] at hthrough
          | folder entries =>
              obtain ⟨entries', hthin⟩ := h.at?_folder hfull
              rw [follow_cons_of_folder hfull] at hkept hthrough ⊢
              rw [follow_cons_of_folder hthin]
              by_cases hstay : piece = "" ∨ piece = "."
              · simp only [if_pos hstay] at hkept hthrough ⊢
                exact ih hkept hthrough
              simp only [if_neg hstay] at hkept hthrough ⊢
              by_cases hup : piece = ".."
              · simp only [if_pos hup] at hkept hthrough ⊢
                exact ih hkept hthrough
              simp only [if_neg hup] at hkept hthrough ⊢
              by_cases hlong : longestName < piece.utf8ByteSize
              · simp only [if_pos hlong]
              simp only [if_neg hlong] at hkept hthrough ⊢
              by_cases hsome : (entries.lookup piece).isSome = true
              · simp only [if_pos hsome] at hkept hthrough ⊢
                have hpiece := h.not_gone_of_follow hkept hthrough
                rw [h.isSome_lookup hfull hthin hpiece, if_pos hsome]
                exact ih hkept hthrough
              · have hnone : full.kindAt (here.reverse ++ [piece]) = none := by
                  rw [kindAt_entry hfull, Option.not_isSome_iff_eq_none.mp hsome, Option.map_none]
                rw [h.isSome_lookup hfull hthin (h.not_gone_of_none hnone)]
                simp only [if_neg hsome]

theorem map_shape_eq_taken {found : Except IoError Place} {kind : Kind} :
    found.map Place.shape = .ok (location, some kind) ↔
      ∃ node, found = .ok (.taken location node) ∧ node.kind = kind := by
  cases found with
  | error reason => simp [Except.map]
  | ok found =>
      cases found with
      | free place => simp [Except.map, Place.shape]
      | taken place node =>
          simp only [Except.map, Place.shape, Except.ok.injEq, Prod.mk.injEq, Option.some.injEq,
            Place.taken.injEq]
          constructor
          · rintro ⟨rfl, rfl⟩
            exact ⟨node, ⟨rfl, rfl⟩, rfl⟩
          · rintro ⟨node, ⟨rfl, rfl⟩, rfl⟩
            exact ⟨rfl, rfl⟩

theorem map_shape_eq_free {found : Except IoError Place} :
    found.map Place.shape = .ok (location, none) ↔ found = .ok (.free location) := by
  cases found with
  | error reason => simp [Except.map]
  | ok found => cases found <;> simp [Except.map, Place.shape]

theorem Thinned.follow_taken (h : Thinned gone full thin) (hkept : ¬ gone location)
    (hfollow : follow full here pieces = .ok (.taken location node)) :
    ∃ child, follow thin here pieces = .ok (.taken location child) ∧ child.kind = node.kind := by
  have hsame : (follow thin here pieces).map Place.shape =
      (follow full here pieces).map Place.shape := by
    refine h.follow_eq (fun place child hplace => ?_) ?_
    · rw [hfollow] at hplace
      cases hplace
      exact hkept
    · rw [hfollow]
      simp
  rw [hfollow] at hsame
  exact map_shape_eq_taken.mp hsame

theorem Thinned.follow_free (h : Thinned gone full thin)
    (hfollow : follow full here pieces = .ok (.free location)) :
    follow thin here pieces = .ok (.free location) := by
  have hsame : (follow thin here pieces).map Place.shape =
      (follow full here pieces).map Place.shape := by
    refine h.follow_eq (fun place child hplace => ?_) ?_
    · rw [hfollow] at hplace
      cases hplace
    · rw [hfollow]
      simp
  rw [hfollow] at hsame
  exact map_shape_eq_free.mp hsame

theorem Thinned.follow_notFound (h : Thinned gone full thin)
    (hfollow : follow full here pieces = .error .notFound) :
    follow thin here pieces = .error .notFound := by
  have hsame : (follow thin here pieces).map Place.shape =
      (follow full here pieces).map Place.shape := by
    refine h.follow_eq (fun place child hplace => ?_) ?_
    · rw [hfollow] at hplace
      cases hplace
    · rw [hfollow]
      simp
  rw [hfollow] at hsame
  cases hthin : follow thin here pieces with
  | error reason =>
      rw [hthin] at hsame
      cases hsame
      rfl
  | ok found =>
      rw [hthin] at hsame
      cases hsame

theorem Thinned.place_folder (h : Thinned gone full thin)
    (hplace : full.place path = .ok (.taken location (.folder entries))) :
    ∃ entries, thin.place path = .ok (.taken location (.folder entries)) := by
  obtain ⟨hlegal, hfollow⟩ := place_eq_ok.mp hplace
  have hfolder : full.kindAt location = some .folder :=
    kindAt_eq_folder.mpr ⟨entries, at?_of_follow hfollow⟩
  obtain ⟨child, hchild, hkind⟩ := h.follow_taken (h.not_gone_of_folder hfolder) hfollow
  cases child with
  | file content => cases hkind
  | folder entries => exact ⟨entries, place_eq_ok.mpr ⟨hlegal, hchild⟩⟩

theorem Thinned.isFolder_iff (h : Thinned gone full thin) :
    thin.isFolder path = true ↔ full.isFolder path = true := by
  constructor
  · exact isFolder_of_grown h.grown
  · intro hfolder
    obtain ⟨location, entries, hplace⟩ := Tree.isFolder_iff.mp hfolder
    exact Tree.isFolder_iff.mpr ⟨location, h.place_folder hplace⟩

/-- A file that is not gone is followed to with its content. -/
theorem Thinned.follow_file (h : Thinned gone full thin) (hkept : ¬ gone location)
    (hfollow : follow full here pieces = .ok (.taken location (.file content))) :
    follow thin here pieces = .ok (.taken location (.file content)) := by
  obtain ⟨child, hchild, hkind⟩ := h.follow_taken hkept hfollow
  cases child with
  | folder entries => cases hkind
  | file content' =>
      have hsame := (h.files location hkept content').mp (at?_of_follow hchild)
      rw [at?_of_follow hfollow] at hsame
      cases hsame
      exact hchild

/-! ### Writing -/

/-- A file or an empty folder is put into both trees. -/
theorem Thinned.put_leaf (h : Thinned gone full thin) (hroom : full.Room location)
    (hleaf : node.IsLeaf) (hkept : ¬ gone location) :
    Thinned gone (put location node full) (put location node thin) := by
  have hroom' : thin.Room location := by
    obtain ⟨above, name, rfl, habove, hfree, hname⟩ := hroom
    refine ⟨above, name, rfl, ?_, ?_, ?_⟩
    · rw [h.kinds above (h.not_gone_of_folder habove), habove]
    · rwa [h.kinds _ hkept]
    · rwa [h.kinds _ hkept]
  have hothers (place : List String) (hne : place ≠ location) := hroom.put_leaf_of_ne hleaf hne
  have hothers' (place : List String) (hne : place ≠ location) := hroom'.put_leaf_of_ne hleaf hne
  refine ⟨fun place hplace => ?_, fun place hplace content => ?_, fun place hgone => ?_⟩
  · by_cases hne : place = location
    · rw [hne, kindAt, kindAt, at?_put_self, at?_put_self]
    · rw [(hothers' place hne).1, (hothers place hne).1, h.kinds place hplace]
  · by_cases hne : place = location
    · rw [hne, at?_put_self, at?_put_self]
    · rw [(hothers' place hne).2, (hothers place hne).2, h.files place hplace]
  · have hne : place ≠ location := by
      rintro rfl
      exact hkept hgone
    rw [(hothers' place hne).1, (hothers place hne).1]
    exact h.gone place hgone

theorem Thinned.makeFolder (h : Thinned gone full thin) (hmake : full.makeFolder path = .ok after) :
    ∃ after', thin.makeFolder path = .ok after' ∧ Thinned gone after after' := by
  obtain ⟨location, hlegal, hfree, rfl⟩ := makeFolder_eq_ok hmake
  have hfree' := h.follow_free hfree
  have hkind := kindAt_of_follow_free hfree
  refine ⟨put location empty thin, ?_, h.put_leaf (room_of_trimmedPieces hlegal hfree) isLeaf_empty
    (h.not_gone_of_none hkind)⟩
  simp [Tree.makeFolder, checkText_eq_ok.mpr hlegal, hfree', bind, Except.bind]

theorem Thinned.ensureFolder (h : Thinned gone full thin)
    (hensure : full.ensureFolder path = .ok after) :
    ∃ after', thin.ensureFolder path = .ok after' ∧ Thinned gone after after' := by
  cases hmake : full.makeFolder path with
  | ok made =>
      obtain rfl : made = after := by simpa [Tree.ensureFolder, hmake] using hensure
      obtain ⟨after', hmake', hthin⟩ := h.makeFolder hmake
      exact ⟨after', by simp [Tree.ensureFolder, hmake'], hthin⟩
  | error reason =>
      simp only [Tree.ensureFolder, hmake] at hensure
      split_ifs at hensure with hfolder
      cases hensure
      exact ⟨thin, ensureFolder_of_isFolder (h.isFolder_iff.mpr hfolder), h⟩

theorem Thinned.ensureFolder_notFound (h : Thinned gone full thin)
    (hensure : full.ensureFolder path = .error .notFound) :
    thin.ensureFolder path = .error .notFound := by
  cases hmake : full.makeFolder path with
  | ok made => simp [Tree.ensureFolder, hmake] at hensure
  | error reason =>
      simp only [Tree.ensureFolder, hmake] at hensure
      split_ifs at hensure with hfolder
      cases hensure
      have hthin : thin.makeFolder path = .error .notFound := by
        unfold Tree.makeFolder at hmake ⊢
        cases hcheck : checkText path with
        | error reason => simpa [hcheck, bind, Except.bind] using hmake
        | ok _ =>
            cases hfollow : follow full [] path.trimmedPieces with
            | error reason =>
                obtain rfl : reason = .notFound := by
                  simpa [hcheck, hfollow, bind, Except.bind] using hmake
                simp [h.follow_notFound hfollow, bind, Except.bind]
            | ok found => cases found <;> simp [hcheck, hfollow, bind, Except.bind] at hmake
      have hfolder' : ¬ thin.isFolder path = true := fun hthere =>
        hfolder (h.isFolder_iff.mp hthere)
      simp only [Tree.ensureFolder, hthin, if_neg hfolder']

theorem Thinned.makeFolders (h : Thinned gone full thin)
    (hmake : full.makeFolders chain = (.ok (), after)) :
    ∃ after', thin.makeFolders chain = (.ok (), after') ∧ Thinned gone after after' := by
  induction chain generalizing after with
  | nil =>
      cases hmake
      exact ⟨thin, rfl, h⟩
  | cons path above ih =>
      cases hensure : full.ensureFolder path with
      | ok made =>
          obtain rfl : made = after := by simpa [Tree.makeFolders, hensure] using hmake
          obtain ⟨after', hensure', hthin⟩ := h.ensureFolder hensure
          exact ⟨after', by simp [Tree.makeFolders, hensure'], hthin⟩
      | error reason =>
          -- Only a folder above that is missing makes the others be made.
          cases reason with
          | notFound =>
              have hensure' := h.ensureFolder_notFound hensure
              cases hrest : full.makeFolders above with
              | mk outcome made =>
                  cases outcome with
                  | error reason => simp [Tree.makeFolders, hensure, hrest] at hmake
                  | ok _ =>
                      obtain ⟨made', hrest', hthin⟩ := ih hrest
                      cases hagain : made.ensureFolder path with
                      | error reason => simp [Tree.makeFolders, hensure, hrest, hagain] at hmake
                      | ok final =>
                          obtain rfl : final = after := by
                            simpa [Tree.makeFolders, hensure, hrest, hagain] using hmake
                          obtain ⟨after', hagain', hthin'⟩ := hthin.ensureFolder hagain
                          exact ⟨after', by simp [Tree.makeFolders, hensure', hrest', hagain'],
                            hthin'⟩
          | _ => simp [Tree.makeFolders, hensure] at hmake

theorem Thinned.accepts (h : Thinned gone full thin) (hkept : ¬ gone location)
    (haccepts : full.Accepts path location) : thin.Accepts path location := by
  obtain ⟨hslash, hfree | ⟨old, hfile⟩⟩ := haccepts
  · obtain ⟨hlegal, hfollow⟩ := place_eq_ok.mp hfree
    exact ⟨hslash, .inl (place_eq_ok.mpr ⟨hlegal, h.follow_free hfollow⟩)⟩
  · obtain ⟨hlegal, hfollow⟩ := place_eq_ok.mp hfile
    exact ⟨hslash, .inr ⟨old, place_eq_ok.mpr ⟨hlegal, h.follow_file hkept hfollow⟩⟩⟩

/-- What is written elsewhere is written into both trees. -/
theorem Thinned.writeBytes (h : Thinned gone full thin)
    (hkept : ∀ location, full.Accepts path location → ¬ gone location)
    (hwrite : full.writeBytes path content = .ok after) :
    ∃ after', thin.writeBytes path content = .ok after' ∧ Thinned gone after after' := by
  obtain ⟨location, haccepts, rfl⟩ := writeBytes_iff.mp hwrite
  have hthere := hkept location haccepts
  have hthin := h.put_leaf haccepts.room (isLeaf_file content) hthere
  refine ⟨put location (.file content) thin, ?_, hthin⟩
  exact writeBytes_iff.mpr ⟨location, h.accepts hthere haccepts, rfl⟩

theorem Thinned.disk_makeFolders (h : Thinned gone full thin)
    (hmake : Disk.makeFolders path full = .ok () after) :
    ∃ after', Disk.makeFolders path thin = .ok () after' ∧ Thinned gone after after' := by
  unfold Disk.makeFolders at hmake ⊢
  split_ifs at hmake ⊢ with hempty
  · cases hmake
    exact ⟨thin, rfl, h⟩
  · cases hchain : full.makeFolders (path :: path.parents) with
    | mk outcome made =>
        cases outcome with
        | error reason => simp [hchain] at hmake
        | ok _ =>
            obtain rfl : made = after := by simpa [hchain] using hmake
            obtain ⟨after', hchain', hthin⟩ := h.makeFolders hchain
            exact ⟨after', by rw [hchain'], hthin⟩

/-! ### Finding files -/

/-- The files that are found are those that are not gone. -/
theorem Thinned.finds_iff {extension : String} (h : Thinned gone full thin)
    (hfolder : full.isFolder folder = true) :
    Discovery.Finds extension thin folder path location ↔
      Discovery.Finds extension full folder path location ∧ ¬ gone location := by
  constructor
  · rintro ⟨⟨above, names, name, hreaches, rfl, rfl, hheld, hleaf⟩, hwanted⟩
    have hkept : ¬ gone (above ++ (names ++ [name])) := by
      intro hgone
      have hnone := (h.gone _ hgone).2
      rw [NotEntered, hnone] at hleaf
      simp at hleaf
    refine ⟨⟨⟨above, names, name, hreaches.of_grown h.grown, rfl, rfl, hheld, ?_⟩, hwanted⟩,
      hkept⟩
    rwa [NotEntered, h.kinds _ hkept] at hleaf
  · rintro ⟨⟨⟨above, names, name, hreaches, rfl, rfl, hheld, hleaf⟩, hwanted⟩, hkept⟩
    obtain ⟨above', entries, hplace⟩ := Tree.isFolder_iff.mp hfolder
    obtain rfl := hreaches.unique ⟨_, hplace⟩
    obtain ⟨entries', hplace'⟩ := h.place_folder hplace
    refine ⟨⟨above, names, name, ⟨_, hplace'⟩, rfl, rfl, hheld, ?_⟩, hwanted⟩
    rwa [NotEntered, h.kinds _ hkept]

/-- A file that is not gone is read as it was. -/
theorem Thinned.readBytes_eq (h : Thinned gone full thin) (hwf : full.WellFormed)
    (hlisted : full.ListedBelow folder path location) (hkept : ¬ gone location) :
    thin.readBytes path = full.readBytes path := by
  by_cases hlegal : path.IsLegal
  · obtain ⟨content, hplace⟩ := hlisted.place hwf hlegal
    have hfollow := (place_eq_ok.mp hplace).2
    exact readBytes_congr ((h.follow_file hkept hfollow).trans hfollow.symm)
  · exact readBytes_of_not_legal hlegal thin full

/-- The same folders of databases are found. -/
theorem Thinned.databaseFolders {root : Path} {databases : List String} {folders : List Path}
    (h : Thinned gone full thin) (hwf : full.WellFormed) (hwf' : thin.WellFormed)
    (hfolders : Discovery.databaseFolders full root databases = .ok folders) :
    Discovery.databaseFolders thin root databases = .ok folders := by
  have hsame : thin.isFolder = full.isFolder := by
    funext path
    rw [Bool.eq_iff_iff]
    exact h.isFolder_iff
  cases databases with
  | cons database more =>
      cases hfolders
      unfold Discovery.databaseFolders Discovery.namedFolders
      rw [hsame]
      rfl
  | nil =>
      rw [Discovery.databaseFolders_nil] at hfolders ⊢
      obtain ⟨location, entries, hplace, rfl⟩ := Discovery.foldersIn_eq_ok.mp hfolders
      obtain ⟨entries', hplace'⟩ := h.place_folder hplace
      have hmem := Discovery.mem_foldersIn hwf hplace
      have hmem' := Discovery.mem_foldersIn hwf' hplace'
      refine Discovery.foldersIn_eq_ok.mpr ⟨location, entries', hplace', ?_⟩
      refine Path.sort_eq_of_perm ?_ fun p hp q hq hsteps => ?_
      · rw [List.perm_ext_iff_of_nodup (Discovery.nodup_foldersIn hwf hplace)
          (Discovery.nodup_foldersIn hwf' hplace')]
        intro path
        rw [hmem, hmem', hsame]
      · obtain ⟨name, hname, rfl, -⟩ := (hmem p).mp hp
        obtain ⟨other, hother, rfl, -⟩ := (hmem q).mp hq
        rw [Discovery.eq_of_steps_join hname hother hsteps]

/-! ### Removing files -/

/-- A tree without what stands at a location. -/
def remove : List String → Tree → Tree
  | [], tree => tree
  | _ :: _, .file content => .file content
  | name :: rest, .folder entries =>
      if rest.isEmpty then .folder (entries.filter (·.1 != name))
      else .folder (putEntry name (remove rest ((entries.lookup name).getD empty)) entries)

theorem lookup_filter_ne (name other : String) (entries : List (String × Tree)) :
    (entries.filter (·.1 != name)).lookup other =
      if other = name then none else entries.lookup other := by
  induction entries with
  | nil => simp
  | cons entry more ih =>
      obtain ⟨found, kept⟩ := entry
      by_cases hfound : found = name
      · rw [List.filter_cons_of_neg (by simpa using hfound), ih, lookup_cons_eq_ite]
        split_ifs with hother hsame
        · rfl
        · exact absurd (hsame.trans hfound) hother
        · rfl
      · rw [List.filter_cons_of_pos (by simpa using hfound), lookup_cons_eq_ite, ih,
          lookup_cons_eq_ite]
        split_ifs with hother hsame
        · exact absurd (hother.symm.trans hsame) hfound
        · rfl
        · rfl
        · rfl

/-- Below a folder everything is as it was if it is so below its entries. -/
theorem thinned_folder {entries' : List (String × Tree)} (hempty : ¬ gone [])
    (hentries : ∀ name rest, ¬ gone (name :: rest) →
      (entries'.lookup name).bind (kindAt rest) = (entries.lookup name).bind (kindAt rest) ∧
        ∀ content, (entries'.lookup name).bind (at? rest) = some (.file content) ↔
          (entries.lookup name).bind (at? rest) = some (.file content))
    (hgone : ∀ name rest, gone (name :: rest) →
      (entries.lookup name).bind (kindAt rest) = some .file ∧
        (entries'.lookup name).bind (kindAt rest) = none) :
    Thinned gone (.folder entries) (.folder entries') := by
  have hkind (found : List (String × Tree)) (name : String) (rest : List String) :
      (Tree.folder found).kindAt (name :: rest) = (found.lookup name).bind (kindAt rest) := by
    rw [kindAt, at?]
    cases found.lookup name with
    | none => rfl
    | some child => rfl
  refine ⟨fun place hplace => ?_, fun place hplace content => ?_, fun place hplace => ?_⟩
  · cases place with
    | nil => rfl
    | cons name rest =>
        rw [hkind, hkind]
        exact (hentries name rest hplace).1
  · cases place with
    | nil => simp [at?]
    | cons name rest => exact (hentries name rest hplace).2 content
  · cases place with
    | nil => exact absurd hplace hempty
    | cons name rest =>
        rw [hkind, hkind]
        exact hgone name rest hplace

/-- Without a file everything else is as it was. -/
theorem thinned_remove (h : full.at? location = some (.file content)) (hne : location ≠ []) :
    Thinned (· = location) full (remove location full) := by
  induction location generalizing full with
  | nil => exact absurd rfl hne
  | cons name rest ih =>
      cases full with
      | file content => cases h
      | folder entries =>
          obtain ⟨child, hchild, hfile⟩ := Option.bind_eq_some_iff.mp h
          by_cases hrest : rest = []
          · subst hrest
            obtain rfl : child = .file content := Option.some.inj hfile
            refine thinned_folder (by simp) (fun other more hother => ?_)
              fun other more hother => ?_
            · rw [lookup_filter_ne]
              split_ifs with hname
              · subst hname
                have hmore : more ≠ [] := by
                  rintro rfl
                  exact hother rfl
                simp [hchild, kindAt, isLeaf_file content more hmore]
              · exact ⟨rfl, fun _ => Iff.rfl⟩
            · obtain ⟨rfl, rfl⟩ := List.cons.inj hother
              rw [lookup_filter_ne, if_pos rfl, hchild]
              exact ⟨rfl, rfl⟩
          · have hinner := ih hfile hrest
            have hremove : remove (name :: rest) (.folder entries) =
                .folder (putEntry name (remove rest child) entries) := by
              rw [remove, if_neg (by simpa using hrest), hchild, Option.getD_some]
            rw [hremove]
            refine thinned_folder (by simp) (fun other more hother => ?_)
              fun other more hother => ?_
            · by_cases hname : other = name
              · subst hname
                have hmore : more ≠ rest := fun hsame => hother (by rw [hsame])
                rw [lookup_putEntry_self, hchild]
                exact ⟨hinner.kinds more hmore, hinner.files more hmore⟩
              · rw [lookup_putEntry_of_ne hname]
                exact ⟨rfl, fun _ => Iff.rfl⟩
            · obtain ⟨rfl, rfl⟩ := List.cons.inj hother
              rw [lookup_putEntry_self, hchild]
              exact hinner.gone _ rfl

theorem WellFormed.remove (hwf : full.WellFormed) (h : full.at? location = some (.file content)) :
    (Tree.remove location full).WellFormed := by
  induction location generalizing full with
  | nil => exact hwf
  | cons name rest ih =>
      cases full with
      | file content => exact hwf
      | folder entries =>
          obtain ⟨child, hchild, hfile⟩ := Option.bind_eq_some_iff.mp h
          obtain ⟨hnodup, hnames⟩ := hwf [] entries rfl
          by_cases hrest : rest = []
          · subst hrest
            obtain ⟨-, -, hall⟩ := wellFormed_folder.mp hwf
            have hsublist : ((entries.filter (·.1 != name)).map (·.1)).Sublist
                (entries.map (·.1)) := List.filter_sublist.map _
            refine wellFormed_folder.mpr ⟨hnodup.sublist hsublist, fun other hother => ?_,
              fun entry hentry => hall entry (List.mem_filter.mp hentry).1⟩
            exact hnames other (hsublist.subset hother)
          · have hat : (Tree.folder entries).at? [name] = some child := by simp [Tree.at?, hchild]
            have hinner := ih (hwf.at? hat) hfile
            rw [Tree.remove, if_neg (by simpa using hrest), hchild, Option.getD_some]
            intro place found hfound
            cases place with
            | nil =>
                cases hfound
                rw [names_putEntry, if_pos (mem_names_of_lookup hchild)]
                exact ⟨hnodup, hnames⟩
            | cons other more =>
                obtain ⟨node, hnode, hmore⟩ := Option.bind_eq_some_iff.mp hfound
                by_cases hother : other = name
                · subst hother
                  rw [lookup_putEntry_self] at hnode
                  cases hnode
                  exact hinner more found hmore
                · rw [lookup_putEntry_of_ne hother] at hnode
                  refine hwf (other :: more) found ?_
                  rw [Tree.at?, hnode, Option.bind_some, hmore]

/-- A tree without the files at some locations. -/
def without (locations : List (List String)) (tree : Tree) : Tree :=
  locations.foldl (fun tree location => tree.remove location) tree

/-- A tree without some of its files is well formed if it was. -/
theorem thinned_without {locations : List (List String)} (hwf : full.WellFormed)
    (hnodup : locations.Nodup)
    (hfiles : ∀ location ∈ locations, location ≠ [] ∧ full.kindAt location = some .file) :
    (full.without locations).WellFormed ∧
      Thinned (· ∈ locations) full (full.without locations) := by
  induction locations generalizing full with
  | nil => exact ⟨hwf, (Thinned.refl full).congr (by simp)⟩
  | cons location more ih =>
      rw [List.nodup_cons] at hnodup
      rw [List.forall_mem_cons] at hfiles
      obtain ⟨⟨hne, hkind⟩, hmore⟩ := hfiles
      obtain ⟨content, hfile⟩ := kindAt_eq_file.mp hkind
      have hfirst := thinned_remove hfile hne
      have hothers : ∀ other ∈ more, other ≠ [] ∧
          (Tree.remove location full).kindAt other = some .file := by
        intro other hother
        have hapart : other ≠ location := fun hsame => hnodup.1 (hsame ▸ hother)
        rw [hfirst.kinds other hapart]
        exact hmore other hother
      obtain ⟨hwf', hrest⟩ := ih (hwf.remove hfile) hnodup.2 hothers
      exact ⟨hwf', (hfirst.trans hrest).congr fun other => by rw [List.mem_cons]⟩

end DictionaryDdl.Tree
