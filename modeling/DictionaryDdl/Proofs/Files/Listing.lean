import DictionaryDdl.Files.Discovery
import DictionaryDdl.Proofs.Files.Writing
import Mathlib.Data.List.Nodup

/-!
Listing the files below a folder. In a tree whose folders have distinct names that can stand in
paths, every file below a folder is listed once, under the path that goes down to it, as long as the
folders on the way have paths that can be followed. A folder with a path that is too long for that
is not entered but listed itself. Lists of different paths are in one order only. Writing keeps a
tree well formed.
-/

namespace DictionaryDdl

namespace Tree

variable {tree node child before after : Tree} {entries : List (String × Tree)} {name : String}
  {location place : List String} {touched : List String → Prop}

mutual

/-- What holds of files, and of a folder if it does of its entries, holds of every tree. -/
@[elab_as_elim]
theorem of_entries {motive : Tree → Prop} (file : ∀ content, motive (.file content))
    (folder : ∀ entries, (∀ entry ∈ entries, motive entry.2) → motive (.folder entries)) :
    (tree : Tree) → motive tree
  | .file content => file content
  | .folder entries => folder entries (forall_entries file folder entries)

theorem forall_entries {motive : Tree → Prop} (file : ∀ content, motive (.file content))
    (folder : ∀ entries, (∀ entry ∈ entries, motive entry.2) → motive (.folder entries)) :
    (entries : List (String × Tree)) → ∀ entry ∈ entries, motive entry.2
  | [] => by simp
  | (name, node) :: more => by
      rw [List.forall_mem_cons]
      exact ⟨of_entries file folder node, forall_entries file folder more⟩

end

/-- A tree in which the entries of every folder have different names that can stand in paths. -/
def WellFormed (tree : Tree) : Prop :=
  ∀ location entries, tree.at? location = some (.folder entries) →
    (entries.map (·.1)).Nodup ∧ ∀ name ∈ entries.map (·.1), IsEntryName name

theorem WellFormed.at? (hwf : tree.WellFormed) (h : tree.at? location = some node) :
    node.WellFormed := by
  intro rest entries hrest
  refine hwf (location ++ rest) entries ?_
  rw [at?_append, h]
  exact hrest

theorem at?_of_mem {entry : String × Tree} (hnodup : (entries.map (·.1)).Nodup)
    (h : entry ∈ entries) : (Tree.folder entries).at? [entry.1] = some entry.2 := by
  simp [Tree.at?, lookup_of_mem hnodup h]

theorem names_putEntry (name : String) (node : Tree) (entries : List (String × Tree)) :
    (putEntry name node entries).map (·.1) =
      if name ∈ entries.map (·.1) then entries.map (·.1) else entries.map (·.1) ++ [name] := by
  induction entries with
  | nil => simp [putEntry]
  | cons entry more ih =>
      obtain ⟨found, kept⟩ := entry
      by_cases hfound : name = found
      · simp [putEntry, hfound]
      · rw [putEntry, if_neg hfound, List.map_cons, List.map_cons, ih]
        simp only [List.mem_cons, hfound, false_or]
        split_ifs
        · rfl
        · rfl

/-- A name that is new in a folder can stand in paths. -/
theorem Room.isEntryName {rest : List String} (hroom : tree.Room (place ++ name :: rest))
    (hplace : tree.at? place = some (.folder entries)) (hnew : name ∉ entries.map (·.1)) :
    IsEntryName name := by
  have hnone : tree.kindAt (place ++ [name]) = none := by
    rw [kindAt_entry hplace, Option.map_eq_none_iff]
    cases hlookup : entries.lookup name with
    | none => rfl
    | some node => exact absurd (mem_names_of_lookup hlookup) hnew
  cases rest with
  | nil =>
      obtain ⟨above, last, hlast, -, -, hname⟩ := hroom
      obtain ⟨-, hsame⟩ := List.append_inj' hlast rfl
      rw [List.singleton_inj.mp hsame]
      exact hname hnone
  | cons next more =>
      have hsplit : place ++ name :: next :: more = (place ++ [name]) ++ next :: more := by simp
      rw [hsplit] at hroom
      have hfolder := hroom.folder_above (List.cons_ne_nil next more)
      rw [hnone] at hfolder
      cases hfolder

/-- A well-formed tree stays so when a well-formed one is put where there is room. -/
theorem WellFormed.put (hwf : tree.WellFormed) (hroom : tree.Room location)
    (hnode : node.WellFormed) : (Tree.put location node tree).WellFormed := by
  intro place entries hplace
  by_cases hbelow : location <+: place
  · obtain ⟨rest, rfl⟩ := hbelow
    rw [at?_append, at?_put_self, Option.bind_some] at hplace
    exact hnode rest entries hplace
  · by_cases hover : place <+: location
    · obtain ⟨rest, rfl⟩ := hover
      have hrest : rest ≠ [] := by
        rintro rfl
        exact hbelow (by simp)
      obtain ⟨old, hold⟩ := kindAt_eq_folder.mp (hroom.folder_above hrest)
      obtain ⟨name, more, rfl⟩ := List.exists_cons_of_ne_nil hrest
      rw [at?_put_above, hold, Option.getD_some, Tree.put, Option.some.injEq, Tree.folder.injEq]
        at hplace
      subst hplace
      obtain ⟨hnodup, hnames⟩ := hwf place old hold
      rw [names_putEntry]
      split_ifs with hmem
      · exact ⟨hnodup, hnames⟩
      · refine ⟨?_, ?_⟩
        · rw [List.nodup_append]
          exact ⟨hnodup, List.nodup_singleton name, by
            rintro a ha b hb rfl
            exact hmem (List.mem_singleton.mp hb ▸ ha)⟩
        · intro other hother
          rcases List.mem_append.mp hother with hother | hother
          · exact hnames other hother
          · rw [List.mem_singleton.mp hother]
            exact hroom.isEntryName hold hmem
    · rw [at?_put_of_apart hbelow hover] at hplace
      exact hwf place entries hplace

theorem wellFormed_file (content : ByteArray) : (file content).WellFormed := by
  intro location entries h
  cases location with
  | nil => cases h
  | cons name rest => cases h

theorem wellFormed_folder : (Tree.folder entries).WellFormed ↔
    (entries.map (·.1)).Nodup ∧ (∀ name ∈ entries.map (·.1), IsEntryName name) ∧
      ∀ entry ∈ entries, entry.2.WellFormed := by
  constructor
  · intro hwf
    obtain ⟨hnodup, hnames⟩ := hwf [] entries rfl
    exact ⟨hnodup, hnames, fun entry hentry => hwf.at? (at?_of_mem hnodup hentry)⟩
  · rintro ⟨hnodup, hnames, hall⟩ location found hfound
    cases location with
    | nil =>
        cases hfound
        exact ⟨hnodup, hnames⟩
    | cons name rest =>
        obtain ⟨child, hchild, hrest⟩ := Option.bind_eq_some_iff.mp hfound
        obtain ⟨front, back, rfl, -⟩ := List.lookup_eq_some_iff.mp hchild
        exact hall (name, child) (by simp) rest found hrest

theorem wellFormed_empty : empty.WellFormed :=
  wellFormed_folder.mpr (by simp)

theorem WellFormed.of_written (hwf : before.WellFormed) (h : Written touched before after) :
    after.WellFormed := by
  induction h with
  | refl => exact hwf
  | folder _ hroom _ ih => exact ih.put hroom wellFormed_empty
  | file _ hroom _ ih => exact ih.put hroom (wellFormed_file _)

/-- Whether what stands at a location is not entered by a path: it is a file, or a folder that the
path is too long to lead to. -/
def NotEntered (path : Path) (location : List String) (tree : Tree) : Prop :=
  tree.kindAt location = some .file ∨ tree.kindAt location = some .folder ∧ ¬ path.IsLegal

theorem NotEntered.exists_at? {path : Path} (h : tree.NotEntered path location) :
    ∃ node, tree.at? location = some node := by
  rcases h with hfile | ⟨hfolder, -⟩
  · obtain ⟨content, hcontent⟩ := kindAt_eq_file.mp hfile
    exact ⟨_, hcontent⟩
  · obtain ⟨entries, hentries⟩ := kindAt_eq_folder.mp hfolder
    exact ⟨_, hentries⟩

end Tree

namespace Path

variable {base : Path} {names others : List String} {name : String} {paths paths' : List Path}

theorem steps_join (h : IsName name) : (base.join name).steps = base.steps ++ [name] := by
  have hname : ([name].filter fun piece => piece != "" && piece != ".") = [name] := by
    simp [h.ne_empty, h.ne_here]
  rcases pieces_join_name base h with hpieces | ⟨before, hbase, hpieces⟩
  · rw [steps, steps, hpieces, List.filter_append, hname]
  · rw [steps, steps, hpieces, hbase, List.filter_append, List.filter_append, hname]
    simp

theorem steps_below (h : ∀ name ∈ names, IsName name) :
    (base.below names).steps = base.steps ++ names := by
  induction names generalizing base with
  | nil => exact (List.append_nil base.steps).symm
  | cons name more ih =>
      have hmore : ((base.join name).below more).steps = (base.join name).steps ++ more :=
        ih fun other hother => h other (List.mem_cons_of_mem name hother)
      rw [steps_join (h name List.mem_cons_self), List.append_assoc] at hmore
      exact hmore

theorem fileName?_below (h : ∀ other ∈ names ++ [name], IsName other) :
    (base.below (names ++ [name])).fileName? = some name := by
  have hname : IsName name := h name (by simp)
  rw [fileName?, steps_below h, ← List.append_assoc, List.getLast?_append]
  simp [hname.ne_up]

theorem le_eq_true {p q : Path} :
    p.le q = true ↔ List.lex q.steps p.steps (· < ·) = false := by
  rw [le, Bool.not_eq_true']

theorem le_trans {p q r : Path} (hpq : p.le q = true) (hqr : q.le r = true) : p.le r = true := by
  rw [le_eq_true, List.lex_eq_false_iff_ge] at hpq hqr ⊢
  exact List.le_trans hpq hqr

theorem le_total (p q : Path) : p.le q = true ∨ q.le p = true := by
  rw [le_eq_true, le_eq_true, List.lex_eq_false_iff_ge, List.lex_eq_false_iff_ge]
  exact List.le_total p.steps q.steps

/-- Paths that stand in each other's place take the same steps. -/
theorem steps_eq_of_le {p q : Path} (hpq : p.le q = true) (hqp : q.le p = true) :
    p.steps = q.steps := by
  rw [le_eq_true, List.lex_eq_false_iff_ge] at hpq hqp
  exact List.le_antisymm hpq hqp

theorem pairwise_sort (paths : List Path) : (sort paths).Pairwise (·.le · = true) := by
  refine List.pairwise_mergeSort ?_ ?_ paths
  · intro p q r hpq hqr
    exact le_trans hpq hqr
  · intro p q
    rw [Bool.or_eq_true]
    exact le_total p q

/-- Paths with different steps stand in ascending order in one way only. -/
theorem eq_of_perm_of_pairwise (hperm : paths.Perm paths')
    (hsteps : ∀ p ∈ paths, ∀ q ∈ paths, p.steps = q.steps → p = q)
    (hpaths : paths.Pairwise (·.le · = true)) (hpaths' : paths'.Pairwise (·.le · = true)) :
    paths = paths' := by
  refine hperm.eq_of_pairwise (fun p q hp hq hpq hqp => ?_) hpaths hpaths'
  exact hsteps p hp q (hperm.mem_iff.mpr hq) (steps_eq_of_le hpq hqp)

theorem sort_perm (paths : List Path) : (sort paths).Perm paths :=
  List.mergeSort_perm paths _

theorem sort_eq_of_perm (hperm : paths.Perm paths')
    (hsteps : ∀ p ∈ paths, ∀ q ∈ paths, p.steps = q.steps → p = q) :
    sort paths = sort paths' := by
  have hboth : (sort paths).Perm (sort paths') :=
    (sort_perm paths).trans (hperm.trans (sort_perm paths').symm)
  refine eq_of_perm_of_pairwise hboth (fun p hp q hq => ?_) (pairwise_sort paths)
    (pairwise_sort paths')
  exact hsteps p ((sort_perm paths).mem_iff.mp hp) q ((sort_perm paths).mem_iff.mp hq)

/-- Paths are left out before they are put in order or after it. -/
theorem filter_sort (kept : Path → Bool) (paths : List Path)
    (hsteps : ∀ p ∈ paths, ∀ q ∈ paths, p.steps = q.steps → p = q) :
    (sort paths).filter kept = sort (paths.filter kept) := by
  have hboth : ((sort paths).filter kept).Perm (sort (paths.filter kept)) :=
    ((sort_perm paths).filter kept).trans (sort_perm _).symm
  refine eq_of_perm_of_pairwise hboth (fun p hp q hq => ?_)
    ((pairwise_sort paths).filter kept) (pairwise_sort _)
  have hmem (path : Path) (h : path ∈ (sort paths).filter kept) : path ∈ paths :=
    (sort_perm paths).mem_iff.mp (List.mem_filter.mp h).1
  exact hsteps p (hmem p hp) q (hmem q hq)

end Path

namespace Discovery

open DictionaryDdl.Tree

variable {tree node : Tree} {entries : List (String × Tree)} {folder path : Path}
  {names location : List String} {isFolder : Path → Bool}

/-- What goes down to something from a well-formed tree are names of entries. -/
theorem isEntryName_of_at? (hwf : tree.WellFormed) {node : Tree}
    (h : tree.at? names = some node) : ∀ name ∈ names, IsEntryName name := by
  intro name hname
  obtain ⟨above, rest, rfl⟩ := List.append_of_mem hname
  obtain ⟨entries, habove, child, hchild, -⟩ := folder_of_at?_append_cons h
  exact (hwf above entries habove).2 name (mem_names_of_lookup hchild)

theorem filesAmong_eq_flatMap (isFolder : Path → Bool) (folder : Path)
    (entries : List (String × Tree)) :
    filesAmong isFolder folder entries =
      entries.flatMap fun entry => filesBelow isFolder (folder.join entry.1) entry.2 := by
  induction entries with
  | nil => rfl
  | cons entry more ih => rw [filesAmong, ih, List.flatMap_cons]

/-- What is listed is something in the tree, under the path that goes down to it. -/
theorem exists_of_mem_filesBelow (hwf : node.WellFormed) {base : Path}
    (h : path ∈ filesBelow isFolder base node) :
    ∃ names child, node.at? names = some child ∧ path = base.below names := by
  induction node using Tree.of_entries generalizing base with
  | file content =>
      rw [filesBelow, List.mem_singleton] at h
      exact ⟨[], .file content, rfl, h⟩
  | folder entries ih =>
      rw [filesBelow] at h
      split_ifs at h with hentered
      · obtain ⟨hnodup, -⟩ := hwf [] entries rfl
        rw [filesAmong_eq_flatMap, List.mem_flatMap] at h
        obtain ⟨entry, hmem, hpath⟩ := h
        obtain ⟨names, child, hchild, rfl⟩ := ih entry hmem (hwf.at? (at?_of_mem hnodup hmem)) hpath
        refine ⟨entry.1 :: names, child, ?_, rfl⟩
        simpa [Tree.at?, lookup_of_mem hnodup hmem] using hchild
      · exact ⟨[], .folder entries, rfl, List.mem_singleton.mp h⟩

/-- The steps of a listed path are those of the folder and the names that go down from it. -/
theorem steps_of_mem_filesBelow (hwf : node.WellFormed) {base : Path}
    (h : path ∈ filesBelow isFolder base node) :
    ∃ names, path = base.below names ∧ path.steps = base.steps ++ names := by
  obtain ⟨names, child, hchild, rfl⟩ := exists_of_mem_filesBelow hwf h
  exact ⟨names, rfl, Path.steps_below fun name hname =>
    (isEntryName_of_at? hwf hchild name hname).toIsName⟩

theorem nodup_filesBelow (hwf : node.WellFormed) (base : Path) :
    (filesBelow isFolder base node).Nodup := by
  induction node using Tree.of_entries generalizing base with
  | file content => exact List.nodup_singleton base
  | folder entries ih =>
      rw [filesBelow]
      split_ifs with hentered
      · obtain ⟨hnodup, hnames⟩ := hwf [] entries rfl
        have hentry (entry : String × Tree) (hmem : entry ∈ entries) : entry.2.WellFormed :=
          hwf.at? (at?_of_mem hnodup hmem)
        have hsteps (entry : String × Tree) (hmem : entry ∈ entries) :
            (base.join entry.1).steps = base.steps ++ [entry.1] :=
          Path.steps_join (hnames entry.1 (List.mem_map_of_mem hmem)).toIsName
        rw [filesAmong_eq_flatMap, List.nodup_flatMap]
        refine ⟨fun entry hmem => ih entry hmem (hentry entry hmem) _, ?_⟩
        refine (List.pairwise_map.mp hnodup).imp_of_mem fun {entry other} hmem hother hne => ?_
        intro path hpath hpath'
        obtain ⟨rest, -, hrest⟩ := steps_of_mem_filesBelow (hentry entry hmem) hpath
        obtain ⟨rest', -, hrest'⟩ := steps_of_mem_filesBelow (hentry other hother) hpath'
        rw [hrest, hsteps entry hmem, hsteps other hother, List.append_assoc, List.append_assoc,
          List.append_cancel_left_eq, List.singleton_append, List.singleton_append] at hrest'
        exact hne (List.cons.inj hrest').1
      · exact List.nodup_singleton base

/-- Listed paths with the same steps are the same. -/
theorem eq_of_mem_filesBelow (hwf : node.WellFormed) {base other : Path}
    (h : path ∈ filesBelow isFolder base node) (h' : other ∈ filesBelow isFolder base node)
    (hsteps : path.steps = other.steps) : path = other := by
  obtain ⟨names, rfl, hnames⟩ := steps_of_mem_filesBelow hwf h
  obtain ⟨names', rfl, hnames'⟩ := steps_of_mem_filesBelow hwf h'
  rw [hnames, hnames', List.append_cancel_left_eq] at hsteps
  rw [hsteps]

/-! ### What is listed -/

/-- Whether the folders of a tree that stands at a path are entered exactly where their paths can
be followed. -/
def EntersLegal (isFolder : Path → Bool) (base : Path) (node : Tree) : Prop :=
  ∀ names entries, node.at? names = some (.folder entries) →
    (isFolder (base.below names) = true ↔ (base.below names).IsLegal)

theorem entersLegal_of_follow (hwf : tree.WellFormed)
    (h : follow tree [] folder.pieces = .ok (.taken location node)) :
    EntersLegal tree.isFolder folder node := by
  intro names entries hentries
  have hnames := isEntryName_of_at? (hwf.at? (at?_of_follow h)) hentries
  have hbelow := follow_below_of_at? hnames h hentries
  rw [isFolder_iff]
  constructor
  · rintro ⟨place, inner, hplace⟩
    exact (place_eq_ok.mp hplace).1
  · intro hlegal
    exact ⟨_, entries, place_eq_ok.mpr ⟨hlegal, hbelow⟩⟩

theorem EntersLegal.entry {base : Path} {entry : String × Tree}
    (h : EntersLegal isFolder base (.folder entries)) (hnodup : (entries.map (·.1)).Nodup)
    (hmem : entry ∈ entries) : EntersLegal isFolder (base.join entry.1) entry.2 := by
  intro names inner hinner
  refine h (entry.1 :: names) inner ?_
  simpa [Tree.at?, lookup_of_mem hnodup hmem] using hinner

theorem isEntryName_of_notEntered (hwf : node.WellFormed) (h : node.NotEntered path names) :
    ∀ name ∈ names, IsEntryName name := by
  obtain ⟨child, hchild⟩ := h.exists_at?
  exact isEntryName_of_at? hwf hchild

/-- Every file below a folder is listed under the path that goes down to it, if the path of the
folder that holds it can be followed, and so is every folder with a path that cannot. -/
theorem mem_filesBelow (hwf : node.WellFormed) {base : Path} (hne : base.text ≠ "")
    (henters : EntersLegal isFolder base node) :
    path ∈ filesBelow isFolder base node ↔
      ∃ names, path = base.below names ∧ node.NotEntered path names ∧
        ∀ above name, names = above ++ [name] → (base.below above).IsLegal := by
  induction node using Tree.of_entries generalizing base with
  | file content =>
      rw [filesBelow, List.mem_singleton]
      constructor
      · rintro rfl
        exact ⟨[], rfl, .inl rfl, by simp⟩
      · rintro ⟨names, rfl, hleaf, -⟩
        cases names with
        | nil => rfl
        | cons name rest => simp [NotEntered, kindAt, Tree.at?] at hleaf
  | folder entries ih =>
      obtain ⟨hnodup, hnames⟩ := hwf [] entries rfl
      have hbase : isFolder base = true ↔ base.IsLegal := henters [] entries rfl
      have hentry (entry : String × Tree) (hmem : entry ∈ entries) :
          path ∈ filesBelow isFolder (base.join entry.1) entry.2 ↔ _ :=
        ih entry hmem (hwf.at? (at?_of_mem hnodup hmem))
          (join_ne_empty base (hnames entry.1 (List.mem_map_of_mem hmem)).toIsName)
          (henters.entry hnodup hmem)
      rw [filesBelow]
      split_ifs with hentered
      · rw [filesAmong_eq_flatMap, List.mem_flatMap]
        constructor
        · rintro ⟨entry, hmem, hpath⟩
          obtain ⟨names, rfl, hleaf, hheld⟩ := (hentry entry hmem).mp hpath
          refine ⟨entry.1 :: names, rfl, ?_, fun above name hsplit => ?_⟩
          · simpa [NotEntered, kindAt, Tree.at?, lookup_of_mem hnodup hmem] using hleaf
          · cases above with
            | nil => exact hbase.mp hentered
            | cons first rest =>
                obtain ⟨rfl, hrest⟩ := List.cons.inj hsplit
                exact hheld rest name hrest
        · rintro ⟨names, rfl, hleaf, hheld⟩
          cases names with
          | nil => simp [NotEntered, kindAt, Tree.at?, kind, Path.below, hbase.mp hentered] at hleaf
          | cons name rest =>
              cases hchild : entries.lookup name with
              | none => simp [NotEntered, kindAt, Tree.at?, hchild] at hleaf
              | some child =>
                  obtain ⟨before, after, rfl, -⟩ := List.lookup_eq_some_iff.mp hchild
                  have hmem : (name, child) ∈ before ++ (name, child) :: after := by simp
                  refine ⟨(name, child), hmem, (hentry _ hmem).mpr ⟨rest, rfl, ?_, ?_⟩⟩
                  · simpa [NotEntered, kindAt, Tree.at?, hchild] using hleaf
                  · intro above last hsplit
                    exact hheld (name :: above) last (by rw [hsplit, List.cons_append])
      · rw [List.mem_singleton]
        have hlong : ¬ base.IsLegal := fun hlegal => hentered (hbase.mpr hlegal)
        constructor
        · rintro rfl
          exact ⟨[], rfl, .inr ⟨rfl, hlong⟩, by simp⟩
        · rintro ⟨names, rfl, hleaf, hheld⟩
          rcases List.eq_nil_or_concat names with rfl | ⟨above, name, rfl⟩
          · rfl
          · rw [List.concat_eq_append] at hleaf hheld
            have hall := isEntryName_of_notEntered hwf hleaf
            exact absurd (isLegal_of_below hne
              (fun other hother => (hall other (List.mem_append_left [name] hother)).toIsName)
              (hheld above name rfl)) hlong

theorem filesBelow_of_place (hplace : tree.place folder = .ok (.taken location (.folder entries))) :
    filesBelow tree.isFolder folder (.folder entries) =
      filesAmong tree.isFolder folder entries := by
  rw [filesBelow, if_pos (isFolder_iff.mpr ⟨location, entries, hplace⟩)]

theorem nodup_filesAmong (hwf : tree.WellFormed)
    (hplace : tree.place folder = .ok (.taken location (.folder entries))) :
    (filesAmong tree.isFolder folder entries).Nodup := by
  rw [← filesBelow_of_place hplace]
  exact nodup_filesBelow (hwf.at? (at?_of_place hplace)) folder

theorem eq_of_mem_filesAmong (hwf : tree.WellFormed)
    (hplace : tree.place folder = .ok (.taken location (.folder entries))) {other : Path}
    (h : path ∈ filesAmong tree.isFolder folder entries)
    (h' : other ∈ filesAmong tree.isFolder folder entries) (hsteps : path.steps = other.steps) :
    path = other := by
  rw [← filesBelow_of_place hplace] at h h'
  exact eq_of_mem_filesBelow (hwf.at? (at?_of_place hplace)) h h' hsteps

/-- What is listed below a folder stands in a folder with a path that can be followed, and is a file
or a folder with a path that cannot. -/
theorem mem_filesAmong (hwf : tree.WellFormed)
    (hplace : tree.place folder = .ok (.taken location (.folder entries))) :
    path ∈ filesAmong tree.isFolder folder entries ↔
      ∃ names name, path = folder.below (names ++ [name]) ∧ (folder.below names).IsLegal ∧
        (Tree.folder entries).NotEntered path (names ++ [name]) := by
  obtain ⟨hlegal, hfollow⟩ := place_eq_ok.mp hplace
  rw [← filesBelow_of_place hplace, mem_filesBelow (hwf.at? (at?_of_place hplace)) hlegal.ne_empty
    (entersLegal_of_follow hwf hfollow)]
  constructor
  · rintro ⟨names, hpath, hleaf, hheld⟩
    rcases List.eq_nil_or_concat names with rfl | ⟨above, name, rfl⟩
    · subst hpath
      rcases hleaf with hfile | ⟨-, hlong⟩
      · cases hfile
      · exact absurd hlegal hlong
    · rw [List.concat_eq_append] at hpath hleaf hheld
      exact ⟨above, name, hpath, hheld above name rfl, hleaf⟩
  · rintro ⟨names, name, hpath, hheld, hleaf⟩
    refine ⟨names ++ [name], hpath, hleaf, fun above last hsplit => ?_⟩
    rwa [← (List.append_inj' hsplit rfl).1]

end Discovery

end DictionaryDdl
