import DictionaryDdl.Proofs.Files.Finding
import DictionaryDdl.Proofs.Text.OctetOrder
import Mathlib.Data.List.Perm.Basic
import Mathlib.Logic.Relation

/-!
The walk that finds files. It lists one folder after another, each in an order of its own, and asks
of every path that it meets whether it leads to a folder; if so, the path is put on a stack of those
that are still to be listed. Each listing leaves fewer folders to list, and the files found so far
and the wanted ones below the folders on the stack stay the same altogether. So every walk comes to
an end with the same files, and in order they are the same list.

A folder whose path is too long to be followed is taken for a file: it is found if it has the
extension, and the files below it are not. Where there is no such folder, exactly the files with the
extension are found.
-/

namespace DictionaryDdl

namespace Path

variable {p q : Path}

/-- What paths are ordered by: the octets of one step after the other. -/
def octetSteps (p : Path) : List (List UInt8) :=
  p.steps.map fun step => (Text.octets step).data.toList

theorem octetSteps_lt (hle : p.le q = true) (hne : p.steps ≠ q.steps) :
    p.octetSteps < q.octetSteps := by
  rw [le_eq_true, List.lex_eq_false_iff_ge] at hle
  have hlt : p.steps < q.steps := (List.le_iff_lt_or_eq.mp hle).resolve_right hne
  exact List.map_lt (fun _ _ h => Text.octets_lt h) hlt

end Path

namespace Discovery

open DictionaryDdl.Tree

variable {tree node : Tree} {entries listed : List (String × Tree)} {folder path : Path}
  {names location : List String} {extension name : String} {isFolder : Path → Bool}

/-! ### What is wanted -/

/-- Whether something before the last dot and then an extension, in letters of any case, make a
name. -/
def HasExtension (extension name : String) : Prop :=
  ∃ stem found : String, name = stem ++ "." ++ found ∧ stem ≠ "" ∧ '.' ∉ found.toList ∧
    Text.asciiLowerCase found.toList = Text.asciiLowerCase extension.toList

theorem isWanted_below (h : ∀ other ∈ names ++ [name], Path.IsName other) :
    isWanted extension (folder.below (names ++ [name])) = true ↔
      name ≠ foreignKeyScript ∧ HasExtension extension name := by
  rw [isWanted, Path.extension?, Path.fileName?_below h, Bool.and_eq_true, Option.bind_some,
    Option.any_eq_true]
  simp only [bne_iff_ne, ne_eq, Option.some.injEq, beq_iff_eq, Path.cutName_eq_some]
  refine and_congr_right fun _ => ⟨?_, ?_⟩
  · rintro ⟨found, ⟨stem, hstem, hdot, hname⟩, hcase⟩
    exact ⟨stem, found, hname, hstem, hdot, hcase⟩
  · rintro ⟨stem, found, hname, hstem, hdot, hcase⟩
    exact ⟨found, ⟨stem, hstem, hdot, hname⟩, hcase⟩

/-! ### What is below an entry -/

theorem filesAmong_perm (isFolder : Path → Bool) (folder : Path) (h : listed.Perm entries) :
    (filesAmong isFolder folder listed).Perm (filesAmong isFolder folder entries) := by
  rw [filesAmong_eq_flatMap, filesAmong_eq_flatMap]
  exact h.flatMap_right _

theorem filesBelow_of_not_isFolder (h : ¬ isFolder path = true) (node : Tree) :
    filesBelow isFolder path node = [path] := by
  cases node with
  | file content => rfl
  | folder entries => rw [filesBelow, if_neg h]

/-- An entry whose path leads to a folder is this folder. -/
theorem entry_of_isFolder {entry : String × Tree} (hwf : tree.WellFormed)
    (hentries : tree.entriesAt folder = .ok entries) (hmem : entry ∈ entries)
    (h : tree.isFolder (folder.join entry.1) = true) :
    ∃ inner, entry.2 = .folder inner ∧ tree.entriesAt (folder.join entry.1) = .ok inner := by
  obtain ⟨name, node⟩ := entry
  obtain ⟨location, hplace⟩ := entriesAt_eq_ok.mp hentries
  obtain ⟨hnodup, hnames⟩ := hwf location entries (at?_of_place hplace)
  obtain ⟨found, inner, hinner⟩ := isFolder_iff.mp h
  obtain ⟨above, others, habove, -, hfound⟩ :=
    (follow_join_eq_ok (hnames name (List.mem_map_of_mem hmem)).toIsName).mp
      (place_eq_ok.mp hinner).2
  rw [(place_eq_ok.mp hplace).2] at habove
  cases habove
  rw [lookup_of_mem hnodup hmem] at hfound
  cases hfound
  exact ⟨inner, rfl, entriesAt_eq_ok.mpr ⟨_, hinner⟩⟩

/-! ### How many folders there are -/

mutual

/-- The number of folders in a tree. -/
def countFolders : Tree → Nat
  | .file _ => 0
  | .folder entries => countFoldersAmong entries + 1

/-- The number of folders in the entries of a folder. -/
def countFoldersAmong : List (String × Tree) → Nat
  | [] => 0
  | (_, node) :: more => countFolders node + countFoldersAmong more

end

theorem countFoldersAmong_perm (h : listed.Perm entries) :
    countFoldersAmong listed = countFoldersAmong entries := by
  have hsum (entries : List (String × Tree)) :
      countFoldersAmong entries = (entries.map fun entry => countFolders entry.2).sum := by
    induction entries with
    | nil => rfl
    | cons entry more ih => rw [countFoldersAmong, ih, List.map_cons, List.sum_cons]
  rw [hsum, hsum]
  exact (h.map _).sum_nat

/-! ### The walk -/

/-- The paths of the folders that are still to be listed, the next one first, and the files that
have been found. -/
structure Walk where
  pending : List Path
  found : List Path

namespace Walk

variable {walk walk' : Walk} {entry : String × Tree}

/-- What a name in a folder comes to: one more folder to list, or a file that is found if it is
wanted. -/
def meet (tree : Tree) (extension : String) (folder : Path) (walk : Walk) (name : String) : Walk :=
  if tree.isFolder (folder.join name) then ⟨folder.join name :: walk.pending, walk.found⟩
  else if isWanted extension (folder.join name) then
    ⟨walk.pending, walk.found ++ [folder.join name]⟩
  else walk

/-- What the names in a folder come to, one after another. -/
def meetAll (tree : Tree) (extension : String) (folder : Path) (walk : Walk)
    (listed : List (String × Tree)) : Walk :=
  listed.foldl (fun walk entry => walk.meet tree extension folder entry.1) walk

/-- The next folder is listed, in any order of its entries. -/
inductive Step (tree : Tree) (extension : String) : Walk → Walk → Prop
  | list {folder : Path} {entries listed : List (String × Tree)} {more found : List Path}
      (hentries : tree.entriesAt folder = .ok entries) (hlisted : listed.Perm entries) :
      Step tree extension ⟨folder :: more, found⟩
        (meetAll tree extension folder ⟨more, found⟩ listed)

/-- The walk below a folder before anything is listed. -/
def start (folder : Path) : Walk :=
  ⟨[folder], []⟩

/-- The entries of a folder; none if it cannot be listed. -/
def entriesOf (tree : Tree) (folder : Path) : List (String × Tree) :=
  (tree.entriesAt folder).toOption.getD []

theorem entriesOf_eq (h : tree.entriesAt folder = .ok entries) :
    entriesOf tree folder = entries := by
  rw [entriesOf, h]
  rfl

/-- The files that have been found, followed by those that are still to be found. -/
def outlook (tree : Tree) (extension : String) (walk : Walk) : List Path :=
  walk.found ++ walk.pending.flatMap fun folder =>
    (filesAmong tree.isFolder folder (entriesOf tree folder)).filter (isWanted extension)

/-- No fewer than the folders that are still to be listed, those among them that are still to be met
included. -/
def remaining (tree : Tree) (walk : Walk) : Nat :=
  walk.pending.foldr (fun folder count => countFoldersAmong (entriesOf tree folder) + 1 + count) 0

theorem outlook_meet (hwf : tree.WellFormed) (hentries : tree.entriesAt folder = .ok entries)
    (hmem : entry ∈ entries) (extension : String) (walk : Walk) :
    ((walk.meet tree extension folder entry.1).outlook tree extension).Perm
      (walk.outlook tree extension ++
        (filesBelow tree.isFolder (folder.join entry.1) entry.2).filter (isWanted extension)) := by
  unfold meet
  split_ifs with hfolder hwanted
  · obtain ⟨inner, hnode, hinner⟩ := entry_of_isFolder hwf hentries hmem hfolder
    rw [hnode, filesBelow, if_pos hfolder]
    simp only [outlook, List.flatMap_cons, entriesOf_eq hinner, List.append_assoc]
    exact List.perm_append_comm.append_left walk.found
  · rw [filesBelow_of_not_isFolder hfolder]
    simp only [outlook, List.filter_cons, if_pos hwanted, List.filter_nil, List.append_assoc]
    exact List.perm_append_comm.append_left walk.found
  · rw [filesBelow_of_not_isFolder hfolder]
    simp [hwanted]

theorem outlook_meetAll (hwf : tree.WellFormed) (hentries : tree.entriesAt folder = .ok entries)
    (hlisted : listed ⊆ entries) (extension : String) (walk : Walk) :
    ((meetAll tree extension folder walk listed).outlook tree extension).Perm
      (walk.outlook tree extension ++
        (filesAmong tree.isFolder folder listed).filter (isWanted extension)) := by
  induction listed generalizing walk with
  | nil => simp [meetAll, filesAmong]
  | cons entry more ih =>
      obtain ⟨hentry, hmore⟩ := List.cons_subset.mp hlisted
      refine (ih hmore (walk.meet tree extension folder entry.1)).trans ?_
      rw [filesAmong, List.filter_append, ← List.append_assoc]
      exact (outlook_meet hwf hentries hentry extension walk).append_right _

/-- A listing moves files from those to be found to those found. -/
theorem Step.outlook_perm (hwf : tree.WellFormed) (h : Step tree extension walk walk') :
    (walk'.outlook tree extension).Perm (walk.outlook tree extension) := by
  cases h with
  | @list folder entries listed more found hentries hlisted =>
      refine (outlook_meetAll hwf hentries hlisted.subset extension ⟨more, found⟩).trans ?_
      have hwanted := (filesAmong_perm tree.isFolder folder hlisted).filter (isWanted extension)
      simp only [outlook, List.flatMap_cons, entriesOf_eq hentries, List.append_assoc]
      exact (List.perm_append_comm.trans (hwanted.append_right _)).append_left found

theorem outlook_perm_of_run (hwf : tree.WellFormed)
    (h : Relation.ReflTransGen (Step tree extension) walk walk') :
    (walk'.outlook tree extension).Perm (walk.outlook tree extension) := by
  induction h with
  | refl => exact .rfl
  | tail _ hstep ih => exact (hstep.outlook_perm hwf).trans ih

/-! ### Its end -/

/-- An entry adds no more folders to list than it holds. A folder that is taken for a file adds
none. -/
theorem remaining_meet_le (hwf : tree.WellFormed) (hentries : tree.entriesAt folder = .ok entries)
    (hmem : entry ∈ entries) (extension : String) (walk : Walk) :
    (walk.meet tree extension folder entry.1).remaining tree ≤
      walk.remaining tree + countFolders entry.2 := by
  unfold meet
  split_ifs with hfolder hwanted
  · obtain ⟨inner, hnode, hinner⟩ := entry_of_isFolder hwf hentries hmem hfolder
    simp only [remaining, List.foldr_cons, entriesOf_eq hinner, hnode, countFolders]
    omega
  · exact Nat.le_add_right _ _
  · exact Nat.le_add_right _ _

theorem remaining_meetAll_le (hwf : tree.WellFormed)
    (hentries : tree.entriesAt folder = .ok entries) (hlisted : listed ⊆ entries)
    (extension : String) (walk : Walk) :
    (meetAll tree extension folder walk listed).remaining tree ≤
      walk.remaining tree + countFoldersAmong listed := by
  induction listed generalizing walk with
  | nil => exact Nat.le_refl _
  | cons entry more ih =>
      obtain ⟨hentry, hmore⟩ := List.cons_subset.mp hlisted
      have hfirst := remaining_meet_le hwf hentries hentry extension walk
      have hrest := ih hmore (walk.meet tree extension folder entry.1)
      rw [countFoldersAmong]
      exact hrest.trans (by omega)

/-- A listing leaves fewer folders to list. -/
theorem Step.remaining_lt (hwf : tree.WellFormed) (h : Step tree extension walk walk') :
    walk'.remaining tree < walk.remaining tree := by
  cases h with
  | @list folder entries listed more found hentries hlisted =>
      have hle := remaining_meetAll_le hwf hentries hlisted.subset extension ⟨more, found⟩
      rw [countFoldersAmong_perm hlisted] at hle
      simp only [remaining, List.foldr_cons, entriesOf_eq hentries] at hle ⊢
      omega

/-- No walk goes on for ever. -/
theorem wellFounded_step (hwf : tree.WellFormed) (extension : String) :
    WellFounded fun next walk => Step tree extension walk next :=
  Subrelation.wf (fun {_ _} hstep => hstep.remaining_lt hwf) (measure (remaining tree)).wf

theorem isFolder_of_mem_meetAll (hpending : ∀ path ∈ walk.pending, tree.isFolder path = true) :
    ∀ path ∈ (meetAll tree extension folder walk listed).pending, tree.isFolder path = true := by
  induction listed generalizing walk with
  | nil => exact hpending
  | cons entry more ih =>
      change ∀ path ∈ (meetAll tree extension folder
        (walk.meet tree extension folder entry.1) more).pending, _
      refine ih ?_
      unfold meet
      split_ifs with hfolder hwanted
      · rw [List.forall_mem_cons]
        exact ⟨hfolder, hpending⟩
      · exact hpending
      · exact hpending

/-- What is on the stack is a folder. -/
theorem isFolder_of_mem_pending (hfolder : tree.isFolder folder = true)
    (h : Relation.ReflTransGen (Step tree extension) (start folder) walk) :
    ∀ path ∈ walk.pending, tree.isFolder path = true := by
  induction h with
  | refl =>
      intro path hpath
      rwa [List.mem_singleton.mp hpath]
  | tail _ hstep ih =>
      cases hstep with
      | list hentries hlisted =>
          rw [List.forall_mem_cons] at ih
          exact isFolder_of_mem_meetAll ih.2

/-- A walk goes on as long as there is a folder to list. -/
theorem exists_step_iff (hfolder : tree.isFolder folder = true)
    (h : Relation.ReflTransGen (Step tree extension) (start folder) walk) :
    (∃ next, Step tree extension walk next) ↔ walk.pending ≠ [] := by
  have hpending := isFolder_of_mem_pending hfolder h
  constructor
  · rintro ⟨next, hstep⟩
    cases hstep
    exact List.cons_ne_nil _ _
  · intro hne
    obtain ⟨pending, found⟩ := walk
    obtain ⟨next, more, rfl⟩ := List.exists_cons_of_ne_nil hne
    obtain ⟨location, entries, hplace⟩ := isFolder_iff.mp (hpending next List.mem_cons_self)
    exact ⟨_, .list (entriesAt_eq_ok.mpr ⟨location, hplace⟩) (List.Perm.refl entries)⟩

theorem found_perm_of_run (hwf : tree.WellFormed) (hentries : tree.entriesAt folder = .ok entries)
    (h : Relation.ReflTransGen (Step tree extension) (start folder) walk)
    (hdone : walk.pending = []) :
    walk.found.Perm ((filesAmong tree.isFolder folder entries).filter (isWanted extension)) := by
  have hperm := outlook_perm_of_run hwf h
  rw [outlook, hdone] at hperm
  simpa [outlook, start, entriesOf_eq hentries] using hperm

end Walk

/-! ### What is found -/

/-- What is found has the extension and stands in a folder with a path that can be followed; it is a
file or a folder with a path that is too long. -/
theorem mem_wanted_iff (hwf : tree.WellFormed)
    (hplace : tree.place folder = .ok (.taken location (.folder entries))) :
    path ∈ (filesAmong tree.isFolder folder entries).filter (isWanted extension) ↔
      ∃ names name node, (Tree.folder entries).at? (names ++ [name]) = some node ∧
        path = folder.below (names ++ [name]) ∧ name ≠ foreignKeyScript ∧
        HasExtension extension name ∧ (folder.below names).text.utf8ByteSize ≤ longestPath ∧
        (node.kind = .file ∨ longestPath < path.text.utf8ByteSize) := by
  have hlegal : folder.IsLegal := (place_eq_ok.mp hplace).1
  have hinner : (Tree.folder entries).WellFormed := hwf.at? (at?_of_place hplace)
  have hbelow {names : List String} {node : Tree}
      (hnode : (Tree.folder entries).at? names = some node) :
      (folder.below names).IsLegal ↔ (folder.below names).text.utf8ByteSize ≤ longestPath :=
    isLegal_below_iff hlegal (isEntryName_of_at? hinner hnode)
  have hwantedIff {names : List String} {name : String} {node : Tree}
      (hnode : (Tree.folder entries).at? (names ++ [name]) = some node) :
      isWanted extension (folder.below (names ++ [name])) = true ↔
        name ≠ foreignKeyScript ∧ HasExtension extension name :=
    isWanted_below fun other hother => (isEntryName_of_at? hinner hnode other hother).toIsName
  rw [List.mem_filter, mem_filesAmong hwf hplace]
  constructor
  · rintro ⟨⟨names, name, rfl, hheld, hleaf⟩, hwanted⟩
    obtain ⟨node, hnode⟩ := hleaf.exists_at?
    obtain ⟨hscript, hextension⟩ := (hwantedIff hnode).mp hwanted
    refine ⟨names, name, node, hnode, rfl, hscript, hextension, hheld.short, ?_⟩
    rcases hleaf with hfile | ⟨-, hlong⟩
    · rw [kindAt, hnode] at hfile
      exact .inl (Option.some.inj hfile)
    · rw [hbelow hnode, Nat.not_le] at hlong
      exact .inr hlong
  · rintro ⟨names, name, node, hnode, rfl, hscript, hextension, hheld, hleaf⟩
    obtain ⟨held, hheldAt⟩ : ∃ held, (Tree.folder entries).at? names = some (.folder held) := by
      obtain ⟨held, hheldAt, -⟩ := folder_of_at?_append_cons hnode
      exact ⟨held, hheldAt⟩
    refine ⟨⟨names, name, rfl, (hbelow hheldAt).mpr hheld, ?_⟩,
      (hwantedIff hnode).mpr ⟨hscript, hextension⟩⟩
    cases node with
    | file content => exact .inl (kindAt_eq_file.mpr ⟨content, hnode⟩)
    | folder inner =>
        have hlong := hleaf.resolve_left (by simp [kind])
        exact .inr ⟨kindAt_eq_folder.mpr ⟨inner, hnode⟩, by rwa [hbelow hnode, Nat.not_le]⟩

/-- The files with an extension below a folder stand in folders whose paths are not too long, and a
folder whose path is too long is found in the place of the files below it. Where there is none, they
are the files at any depth that have the extension and are not scripts of foreign keys. Each is
found once, in ascending order of the octets of the steps of their paths. Every walk comes to an
end, none gets stuck, and every one that has come to its end has found them. -/
theorem filesWithExtension_walk (hwf : tree.WellFormed) (h : tree.entriesAt folder = .ok entries)
    (extension : String) :
    ∃ files, filesWithExtension tree folder extension = .ok files ∧
      (∀ path, path ∈ files ↔ ∃ names name node,
        (Tree.folder entries).at? (names ++ [name]) = some node ∧
          path = folder.below (names ++ [name]) ∧ name ≠ foreignKeyScript ∧
          HasExtension extension name ∧ (folder.below names).text.utf8ByteSize ≤ longestPath ∧
          (node.kind = .file ∨ longestPath < path.text.utf8ByteSize)) ∧
      ((∀ names inner, (Tree.folder entries).at? names = some (.folder inner) →
          (folder.below names).text.utf8ByteSize ≤ longestPath) →
        ∀ path, path ∈ files ↔ ∃ names name content,
          (Tree.folder entries).at? (names ++ [name]) = some (.file content) ∧
            path = folder.below (names ++ [name]) ∧ name ≠ foreignKeyScript ∧
            HasExtension extension name) ∧
      files.Nodup ∧ files.Pairwise (fun before after => before.octetSteps < after.octetSteps) ∧
      WellFounded (fun next walk => Walk.Step tree extension walk next) ∧
      ∀ walk, Relation.ReflTransGen (Walk.Step tree extension) (Walk.start folder) walk →
        ((∃ next, Walk.Step tree extension walk next) ↔ walk.pending ≠ []) ∧
          (walk.pending = [] → Path.sort walk.found = files) := by
  obtain ⟨location, hplace⟩ := entriesAt_eq_ok.mp h
  have hfolder : tree.isFolder folder = true := isFolder_iff.mpr ⟨location, entries, hplace⟩
  have hfiles : filesWithExtension tree folder extension =
      .ok (Path.sort ((filesAmong tree.isFolder folder entries).filter (isWanted extension))) :=
    filesWithExtension_eq hplace
  have hnodup := nodup_filesWithExtension hwf hfiles
  have hsteps := eq_of_mem_wanted hwf hplace extension
  have hmem (path : Path) : path ∈ Path.sort ((filesAmong tree.isFolder folder entries).filter
      (isWanted extension)) ↔ _ := (Path.sort_perm _).mem_iff.trans (mem_wanted_iff hwf hplace)
  refine ⟨_, hfiles, hmem, fun hshort path => ?_, hnodup, ?_, Walk.wellFounded_step hwf extension,
    fun walk hrun => ⟨Walk.exists_step_iff hfolder hrun, fun hdone => ?_⟩⟩
  · rw [hmem path]
    constructor
    · rintro ⟨names, name, node, hnode, rfl, hscript, hextension, -, hleaf⟩
      cases node with
      | file content => exact ⟨names, name, content, hnode, rfl, hscript, hextension⟩
      | folder inner =>
          have hlong := hleaf.resolve_left (by simp [kind])
          exact absurd (hshort _ inner hnode) (Nat.not_le.mpr hlong)
    · rintro ⟨names, name, content, hfile, rfl, hscript, hextension⟩
      obtain ⟨held, hheld, -⟩ := folder_of_at?_append_cons hfile
      exact ⟨names, name, .file content, hfile, rfl, hscript, hextension, hshort names held hheld,
        .inl rfl⟩
  · refine ((Path.pairwise_sort _).and hnodup).imp_of_mem fun {p q} hp hq hpq => ?_
    refine Path.octetSteps_lt hpq.1 fun hsame => hpq.2 ?_
    exact hsteps p ((Path.sort_perm _).mem_iff.mp hp) q ((Path.sort_perm _).mem_iff.mp hq) hsame
  · have hfound := Walk.found_perm_of_run hwf h hrun hdone
    exact Path.sort_eq_of_perm hfound fun p hp q hq =>
      hsteps p (hfound.mem_iff.mp hp) q (hfound.mem_iff.mp hq)

/-- A database with documents at two depths and scripts. -/
def shopEntries : List (String × Tree) :=
  [("EVENTS.SDI", .file .empty), ("__foreign_keys.sql", .file .empty),
    ("nested", .folder [("logs.sdi", .file .empty)]), ("orders.sdi", .file .empty),
    ("orders.sql", .file .empty)]

theorem wellFormed_shopEntries : (Tree.folder [("shop", .folder shopEntries)]).WellFormed := by
  simp only [shopEntries, wellFormed_folder, List.forall_mem_cons, List.not_mem_nil,
    false_implies, implies_true, and_true, wellFormed_file]
  decide +kernel

theorem filesWithExtension_shopEntries :
    filesWithExtension (.folder [("shop", .folder shopEntries)]) ⟨"shop"⟩ "sdi" =
      .ok [⟨"shop/EVENTS.SDI"⟩, ⟨"shop/nested/logs.sdi"⟩, ⟨"shop/orders.sdi"⟩] := by
  have hplace : (Tree.folder [("shop", .folder shopEntries)]).place ⟨"shop"⟩ =
      .ok (.taken ["shop"] (.folder shopEntries)) := rfl
  exact filesWithExtension_of_ascending hplace (by decide +kernel) (by decide +kernel)

theorem filesWithExtension_walk_shopEntries :
    (Tree.folder [("shop", .folder shopEntries)]).WellFormed ∧
      (Tree.folder [("shop", .folder shopEntries)]).entriesAt ⟨"shop"⟩ = .ok shopEntries ∧
      (∃ walk, Walk.Step (.folder [("shop", .folder shopEntries)]) "sdi" (Walk.start ⟨"shop"⟩)
        walk) ∧
      ∀ walk, Relation.ReflTransGen (Walk.Step (.folder [("shop", .folder shopEntries)]) "sdi")
        (Walk.start ⟨"shop"⟩) walk → walk.pending = [] → Path.sort walk.found =
          [⟨"shop/EVENTS.SDI"⟩, ⟨"shop/nested/logs.sdi"⟩, ⟨"shop/orders.sdi"⟩] := by
  have hentries : (Tree.folder [("shop", .folder shopEntries)]).entriesAt ⟨"shop"⟩ =
      .ok shopEntries := rfl
  obtain ⟨files, hfiles, -, -, -, -, -, hwalks⟩ :=
    filesWithExtension_walk wellFormed_shopEntries hentries "sdi"
  rw [filesWithExtension_shopEntries, Except.ok.injEq] at hfiles
  subst hfiles
  refine ⟨wellFormed_shopEntries, hentries, ?_, fun walk hrun => (hwalks walk hrun).2⟩
  exact (hwalks _ .refl).1.mpr (List.cons_ne_nil _ _)

/-! ### Paths that are too long -/

theorem not_isFolder_of_long (h : longestPath < path.text.utf8ByteSize) (tree : Tree) :
    ¬ tree.isFolder path = true := by
  intro hfolder
  obtain ⟨location, entries, hplace⟩ := isFolder_iff.mp hfolder
  exact absurd (place_eq_ok.mp hplace).1.short (Nat.not_le.mpr h)

/-- Where the paths are too long, the entries of a folder are listed and nothing below them. -/
theorem filesAmong_of_long
    (h : ∀ entry ∈ entries, longestPath < (folder.join entry.1).text.utf8ByteSize) (tree : Tree) :
    filesAmong tree.isFolder folder entries = entries.map fun entry => folder.join entry.1 := by
  rw [filesAmong_eq_flatMap, List.map_eq_flatMap]
  exact List.flatMap_congr fun entry hentry =>
    filesBelow_of_not_isFolder (not_isFolder_of_long (h entry hentry) tree) entry.2

/-- A long way to write the path of a folder. -/
def dotted : Nat → Path
  | 0 => ⟨"shop"⟩
  | n + 1 => ⟨"." ++ "/" ++ (dotted n).text⟩

theorem utf8ByteSize_dotted (n : Nat) : (dotted n).text.utf8ByteSize = 2 * n + 4 := by
  have hdot : ".".utf8ByteSize = 1 := by decide
  have hslash : "/".utf8ByteSize = 1 := by decide
  induction n with
  | zero => decide
  | succ n ih =>
      rw [dotted, String.utf8ByteSize_append, String.utf8ByteSize_append, ih, hdot, hslash]
      omega

theorem isLegal_dotted {n : Nat} (h : 2 * n + 4 ≤ longestPath) : (dotted n).IsLegal := by
  refine ⟨?_, ?_, (utf8ByteSize_dotted n).trans_le h⟩
  · intro hempty
    have hsize := utf8ByteSize_dotted n
    rw [hempty, String.utf8ByteSize_empty] at hsize
    omega
  · clear h
    induction n with
    | zero => decide
    | succ n ih => simpa [dotted, String.toList_append] using ih

theorem follow_dotted (n : Nat) :
    follow tree [] (dotted n).pieces = follow tree [] ["shop"] := by
  induction n with
  | zero =>
      have hpieces : (dotted 0).pieces = ["shop"] := Path.pieces_of_no_slash (by decide)
      rw [hpieces]
  | succ n ih =>
      have hdot : (Path.mk ".").pieces = ["."] := Path.pieces_of_no_slash (by decide)
      have hpieces : (dotted (n + 1)).pieces = [] ++ "." :: (dotted n).pieces :=
        (Path.pieces_append_slash _ _).trans (by rw [hdot]; rfl)
      rw [hpieces, follow_skip (.inr rfl) (Path.pieces_ne_nil _), List.nil_append, ih]

/-- Two folders with a document each, of which one has a name like a document. -/
def nestedEntries : List (String × Tree) :=
  [("another-one.sdi", .folder [("u.sdi", .file .empty)]),
    ("nested-folder", .folder [("t.sdi", .file .empty)])]

theorem place_dotted {n : Nat} (h : 2 * n + 4 ≤ longestPath) :
    (Tree.folder [("shop", .folder nestedEntries)]).place (dotted n) =
      .ok (.taken ["shop"] (.folder nestedEntries)) :=
  place_eq_ok.mpr ⟨isLegal_dotted h, (follow_dotted n).trans rfl⟩

theorem wellFormed_nestedEntries : (Tree.folder [("shop", .folder nestedEntries)]).WellFormed := by
  simp only [nestedEntries, wellFormed_folder, List.forall_mem_cons, List.not_mem_nil,
    false_implies, implies_true, and_true, wellFormed_file]
  decide +kernel

theorem filesWithExtension_dotted {n : Nat} (hshort : 2 * n + 4 ≤ longestPath)
    (hlong : longestPath < 2 * n + 17) :
    filesWithExtension (.folder [("shop", .folder nestedEntries)]) (dotted n) "sdi" =
      .ok [(dotted n).join "another-one.sdi"] := by
  have hentries : ∀ entry ∈ nestedEntries,
      longestPath < ((dotted n).join entry.1).text.utf8ByteSize := by
    intro entry hentry
    have hsize : 13 ≤ entry.1.utf8ByteSize ∧ Path.IsName entry.1 := by
      revert entry
      simp only [nestedEntries, List.forall_mem_cons]
      decide
    have hjoin := add_le_utf8ByteSize_join (isLegal_dotted hshort).ne_empty hsize.2
    rw [utf8ByteSize_dotted] at hjoin
    omega
  have hname (name : String) (h : Path.IsName name) :
      ((dotted n).join name).fileName? = some name := by
    have hbelow : ((dotted n).below ([] ++ [name])).fileName? = some name :=
      Path.fileName?_below (by simpa using h)
    exact hbelow
  have hdocument : isWanted "sdi" ((dotted n).join "another-one.sdi") = true := by
    rw [isWanted, Path.extension?, hname _ (by decide)]
    decide
  have hother : ¬ isWanted "sdi" ((dotted n).join "nested-folder") = true := by
    rw [isWanted, Path.extension?, hname _ (by decide)]
    decide
  refine filesWithExtension_of_ascending (place_dotted hshort) ?_ (List.pairwise_singleton _ _)
  rw [filesAmong_of_long hentries, nestedEntries, List.map_cons, List.map_singleton,
    List.filter_cons_of_pos hdocument, List.filter_cons_of_neg hother, List.filter_nil]

/-- In a folder with a path that is almost too long, the files further down are not found, and a
folder is. -/
theorem filesWithExtension_nestedEntries :
    (Tree.folder [("shop", .folder nestedEntries)]).WellFormed ∧
      (Tree.folder [("shop", .folder nestedEntries)]).entriesAt (dotted 2040) =
        .ok nestedEntries ∧
      (Tree.folder nestedEntries).at? ["nested-folder", "t.sdi"] = some (.file .empty) ∧
      HasExtension "sdi" "t.sdi" ∧
      (Tree.folder nestedEntries).at? ["another-one.sdi"] =
        some (.folder [("u.sdi", .file .empty)]) ∧
      filesWithExtension (.folder [("shop", .folder nestedEntries)]) (dotted 2040) "sdi" =
        .ok [(dotted 2040).join "another-one.sdi"] := by
  have hshort : 2 * 2040 + 4 ≤ longestPath := by decide
  have hlong : longestPath < 2 * 2040 + 17 := by decide
  exact ⟨wellFormed_nestedEntries, entriesAt_eq_ok.mpr ⟨_, place_dotted hshort⟩, rfl,
    ⟨"t", "sdi", by decide, by decide, by decide, by decide⟩, rfl,
    filesWithExtension_dotted hshort hlong⟩

end Discovery

end DictionaryDdl
