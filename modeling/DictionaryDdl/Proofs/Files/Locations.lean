import DictionaryDdl.Proofs.Files.PathText
import DictionaryDdl.Proofs.Lookup
import Mathlib.Data.List.Infix

/-!
What stands where after something is put at a location. Putting replaces what is there, makes the
folders above it where they are missing, and leaves every location alone that is neither above nor
below; putting at two locations of which none is above the other may be done in either order. A
tree has grown when files and folders stay what they are and only some files have a new content.
-/

namespace DictionaryDdl.Tree

variable {name other : String} {location place above rest : List String} {tree node child : Tree}
  {entries : List (String × Tree)} {content : ByteArray}

/-- Whether a tree is a file or a folder. -/
inductive Kind where
  | file
  | folder
  deriving DecidableEq, Repr

def kind : Tree → Kind
  | .file _ => .file
  | .folder _ => .folder

/-- What kind of thing stands at a location, if anything does. -/
def kindAt (location : List String) (tree : Tree) : Option Kind :=
  (tree.at? location).map kind

theorem kindAt_eq_folder :
    tree.kindAt location = some .folder ↔
      ∃ entries, tree.at? location = some (.folder entries) := by
  unfold kindAt
  cases h : tree.at? location with
  | none => simp
  | some node => cases node <;> simp [kind]

theorem kindAt_eq_file :
    tree.kindAt location = some .file ↔ ∃ content, tree.at? location = some (.file content) := by
  unfold kindAt
  cases h : tree.at? location with
  | none => simp
  | some node => cases node <;> simp [kind]

/-! ### Entries -/

@[simp]
theorem lookup_putEntry_self (name : String) (node : Tree) (entries : List (String × Tree)) :
    (putEntry name node entries).lookup name = some node := by
  induction entries with
  | nil => simp [putEntry]
  | cons entry more ih =>
      obtain ⟨found, kept⟩ := entry
      by_cases h : name = found
      · simp [putEntry, h]
      · simp [putEntry, lookup_cons_eq_ite, h, ih]

theorem lookup_putEntry_of_ne (h : other ≠ name) :
    (putEntry name node entries).lookup other = entries.lookup other := by
  induction entries with
  | nil => simp [putEntry, lookup_cons_eq_ite, h]
  | cons entry more ih =>
      obtain ⟨found, kept⟩ := entry
      by_cases hfound : name = found
      · subst hfound
        simp [putEntry, lookup_cons_eq_ite, h]
      · simp [putEntry, lookup_cons_eq_ite, hfound, ih]

theorem putEntry_putEntry (name : String) (node child : Tree) (entries : List (String × Tree)) :
    putEntry name node (putEntry name child entries) = putEntry name node entries := by
  induction entries with
  | nil => simp [putEntry]
  | cons entry more ih =>
      obtain ⟨found, kept⟩ := entry
      by_cases h : name = found
      · simp [putEntry, h]
      · simp [putEntry, h, ih]

theorem putEntry_of_lookup (h : entries.lookup name = some node) :
    putEntry name node entries = entries := by
  induction entries with
  | nil => simp at h
  | cons entry more ih =>
      obtain ⟨found, kept⟩ := entry
      rw [lookup_cons_eq_ite] at h
      by_cases hfound : name = found
      · simp only [hfound, if_true, Option.some.injEq] at h
        simp [putEntry, hfound, h]
      · rw [if_neg hfound] at h
        simp [putEntry, hfound, ih h]

/-- Two names that a folder has already keep their places, whichever is put first. -/
theorem putEntry_comm (hname : (entries.lookup name).isSome)
    (hother : (entries.lookup other).isSome)
    (h : name ≠ other) :
    putEntry name node (putEntry other child entries) =
      putEntry other child (putEntry name node entries) := by
  induction entries with
  | nil => simp at hname
  | cons entry more ih =>
      obtain ⟨found, kept⟩ := entry
      rw [lookup_cons_eq_ite] at hname hother
      by_cases hfound : name = found
      · have hne : other ≠ found := fun heq => h (hfound.trans heq.symm)
        simp [putEntry, hfound, hne]
      · by_cases hfound' : other = found
        · subst hfound'
          simp [putEntry, hfound]
        · rw [if_neg hfound] at hname
          rw [if_neg hfound'] at hother
          simp [putEntry, hfound, hfound', ih hname hother]

/-! ### Locations -/

theorem at?_append (above rest : List String) (tree : Tree) :
    tree.at? (above ++ rest) = (tree.at? above).bind (at? rest) := by
  induction above generalizing tree with
  | nil => rfl
  | cons name more ih =>
      cases tree with
      | file content => rfl
      | folder entries =>
          simp only [List.cons_append, at?]
          cases entries.lookup name with
          | none => rfl
          | some node => exact ih node

theorem kindAt_append_of_at? (h : tree.at? above = some node) :
    tree.kindAt (above ++ rest) = node.kindAt rest := by
  simp [kindAt, at?_append, h]

/-- What stands in a folder under a name. -/
theorem kindAt_entry (h : tree.at? above = some (.folder entries)) :
    tree.kindAt (above ++ [name]) = (entries.lookup name).map kind := by
  rw [kindAt_append_of_at? h, kindAt]
  cases hlookup : entries.lookup name with
  | none => simp [at?, hlookup]
  | some node => simp [at?, hlookup]

/-- What stands above something is a folder. -/
theorem folder_of_at?_append_cons (h : tree.at? (above ++ name :: rest) = some node) :
    ∃ entries, tree.at? above = some (.folder entries) ∧
      ∃ child, entries.lookup name = some child ∧ child.at? rest = some node := by
  rw [at?_append] at h
  cases habove : tree.at? above with
  | none => simp [habove] at h
  | some found =>
      rw [habove, Option.bind_some] at h
      cases found with
      | file content => simp [at?] at h
      | folder entries =>
          obtain ⟨child, hchild, hnode⟩ := Option.bind_eq_some_iff.mp h
          exact ⟨entries, rfl, child, hchild, hnode⟩

theorem at?_empty_of_ne_nil (h : rest ≠ []) : empty.at? rest = none := by
  cases rest with
  | nil => exact absurd rfl h
  | cons name more => rfl

theorem at?_put_above (above rest : List String) (node tree : Tree) :
    (put (above ++ rest) node tree).at? above =
      some (put rest node ((tree.at? above).getD empty)) := by
  induction above generalizing tree with
  | nil => rfl
  | cons name more ih =>
      cases tree with
      | file content =>
          simp only [List.cons_append, put, at?, lookup_cons_eq_ite, if_true, Option.bind_some, ih]
          cases more with
          | nil => rfl
          | cons next others => rfl
      | folder entries =>
          simp only [List.cons_append, put, at?, lookup_putEntry_self, Option.bind_some, ih]
          cases hlookup : entries.lookup name with
          | some found => rfl
          | none =>
              cases more with
              | nil => rfl
              | cons next others => rfl

@[simp]
theorem at?_put_self (location : List String) (node tree : Tree) :
    (put location node tree).at? location = some node := by
  simpa [put] using at?_put_above location [] node tree

theorem at?_put_of_apart (hbelow : ¬ location <+: place) (habove : ¬ place <+: location) :
    (put location node tree).at? place = tree.at? place := by
  induction location generalizing tree place with
  | nil => exact absurd List.nil_prefix hbelow
  | cons name more ih =>
      cases place with
      | nil => exact absurd List.nil_prefix habove
      | cons next others =>
          by_cases h : next = name
          · subst h
            rw [List.cons_prefix_cons] at hbelow habove
            have hmore (tree : Tree) : (put more node tree).at? others = tree.at? others :=
              ih (fun hprefix => hbelow ⟨rfl, hprefix⟩) (fun hprefix => habove ⟨rfl, hprefix⟩)
            have hothers : others ≠ [] := by
              rintro rfl
              exact habove ⟨rfl, List.nil_prefix⟩
            cases tree with
            | file content =>
                simp [put, at?, hmore, at?_empty_of_ne_nil hothers]
            | folder entries =>
                simp only [put, at?, lookup_putEntry_self, Option.bind_some, hmore]
                cases entries.lookup next with
                | none => exact at?_empty_of_ne_nil hothers
                | some found => rfl
          · cases tree with
            | file content => simp [put, at?, lookup_cons_eq_ite, h]
            | folder entries => simp only [put, at?, lookup_putEntry_of_ne h]

theorem put_put (location : List String) (node child tree : Tree) :
    put location node (put location child tree) = put location node tree := by
  induction location generalizing tree with
  | nil => rfl
  | cons name more ih =>
      cases tree with
      | file content => simp [put, putEntry, ih]
      | folder entries => simp [put, putEntry_putEntry, ih]

theorem put_of_at? (h : tree.at? location = some node) : put location node tree = tree := by
  induction location generalizing tree with
  | nil => exact (Option.some.inj h).symm
  | cons name more ih =>
      cases tree with
      | file content => simp [at?] at h
      | folder entries =>
          obtain ⟨found, hfound, hnode⟩ := Option.bind_eq_some_iff.mp h
          simp only [put, hfound, Option.getD_some, ih hnode, putEntry_of_lookup hfound]

/-- Where something stands at two locations, and neither is above the other, both may be replaced
in either order. -/
theorem put_comm (hlocation : (tree.at? location).isSome) (hplace : (tree.at? place).isSome)
    (hbelow : ¬ location <+: place) (habove : ¬ place <+: location) :
    put location node (put place child tree) = put place child (put location node tree) := by
  induction location generalizing tree place with
  | nil => exact absurd List.nil_prefix hbelow
  | cons name more ih =>
      cases place with
      | nil => exact absurd List.nil_prefix habove
      | cons next others =>
          cases tree with
          | file content => simp [at?] at hlocation
          | folder entries =>
              obtain ⟨found, hfound, hmore⟩ :
                  ∃ found, entries.lookup name = some found ∧ (found.at? more).isSome := by
                simpa [at?, Option.isSome_bind, Option.any_eq_true] using hlocation
              obtain ⟨found', hfound', hothers⟩ :
                  ∃ found, entries.lookup next = some found ∧ (found.at? others).isSome := by
                simpa [at?, Option.isSome_bind, Option.any_eq_true] using hplace
              by_cases h : name = next
              · subst h
                obtain rfl : found = found' := Option.some.inj (hfound.symm.trans hfound')
                rw [List.cons_prefix_cons] at hbelow habove
                have hswap := ih hmore hothers (fun hprefix => hbelow ⟨rfl, hprefix⟩)
                  (fun hprefix => habove ⟨rfl, hprefix⟩)
                simp [put, hfound, putEntry_putEntry, hswap]
              · simp only [put, hfound, hfound', lookup_putEntry_of_ne h,
                  lookup_putEntry_of_ne (Ne.symm h), Option.getD_some]
                rw [putEntry_comm (by simp [hfound]) (by simp [hfound']) h]

/-! ### Growth -/

/-- A name that an entry of a folder can have. -/
structure IsEntryName (name : String) : Prop extends Path.IsName name where
  no_nul : '\x00' ∉ name.toList
  short : name.utf8ByteSize ≤ longestName

instance (name : String) : Decidable (IsEntryName name) :=
  decidable_of_iff (Path.IsName name ∧ '\x00' ∉ name.toList ∧ name.utf8ByteSize ≤ longestName)
    ⟨fun h => ⟨h.1, h.2.1, h.2.2⟩, fun h => ⟨h.toIsName, h.no_nul, h.short⟩⟩

/-- A location where a file or a folder can be made, or a file be replaced: there is a folder above
it and none at it. -/
def Room (location : List String) (tree : Tree) : Prop :=
  ∃ above name, location = above ++ [name] ∧ tree.kindAt above = some .folder ∧
    tree.kindAt location ≠ some .folder ∧ (tree.kindAt location = none → IsEntryName name)

theorem Room.ne_nil (hroom : tree.Room location) : location ≠ [] := by
  obtain ⟨above, name, rfl, -⟩ := hroom
  simp

/-- A file or an empty folder. -/
def IsLeaf (node : Tree) : Prop :=
  ∀ rest, rest ≠ [] → node.at? rest = none

theorem isLeaf_file (content : ByteArray) : (file content).IsLeaf := by
  intro rest hrest
  cases rest with
  | nil => exact absurd rfl hrest
  | cons name more => rfl

theorem isLeaf_empty : empty.IsLeaf :=
  fun _ => at?_empty_of_ne_nil

theorem kind_put_of_ne_nil (h : rest ≠ []) : (put rest node tree).kind = .folder := by
  cases rest with
  | nil => exact absurd rfl h
  | cons name more => cases tree <;> rfl

theorem not_file_of_kindAt (h : tree.kindAt location = some .folder) :
    tree.at? location ≠ some (.file content) := by
  intro hfile
  simp [kindAt, hfile, kind] at h

/-- What stands above a location with a folder right above it is a folder. -/
theorem Room.folder_above (hroom : tree.Room (place ++ rest)) (hrest : rest ≠ []) :
    tree.kindAt place = some .folder := by
  obtain ⟨above, name, hlocation, habove, -, -⟩ := hroom
  obtain ⟨more, last, rfl⟩ : ∃ more last, rest = more ++ [last] :=
    ⟨_, _, (List.dropLast_append_getLast hrest).symm⟩
  rw [← List.append_assoc] at hlocation
  obtain ⟨rfl, -⟩ := List.append_inj' hlocation rfl
  cases more with
  | nil => simpa using habove
  | cons first between =>
      obtain ⟨entries, hentries⟩ := kindAt_eq_folder.mp habove
      obtain ⟨entries, hplace, -⟩ := folder_of_at?_append_cons hentries
      exact kindAt_eq_folder.mpr ⟨entries, hplace⟩

theorem room_of_file (h : tree.at? location = some (.file content)) (hne : location ≠ []) :
    tree.Room location := by
  obtain ⟨above, name, rfl⟩ : ∃ above name, location = above ++ [name] :=
    ⟨_, _, (List.dropLast_append_getLast hne).symm⟩
  obtain ⟨entries, habove, -⟩ := folder_of_at?_append_cons h
  refine ⟨above, name, rfl, kindAt_eq_folder.mpr ⟨entries, habove⟩, ?_, ?_⟩
  · simp [kindAt, h, kind]
  · simp [kindAt, h]

/-- Where there is no folder, there is nothing below. -/
theorem at?_append_of_not_folder (h : tree.kindAt above ≠ some .folder) (hrest : rest ≠ []) :
    tree.at? (above ++ rest) = none := by
  by_contra hsome
  obtain ⟨found, hfound⟩ := Option.ne_none_iff_exists'.mp hsome
  obtain ⟨next, others, rfl⟩ := List.exists_cons_of_ne_nil hrest
  obtain ⟨entries, hentries, -⟩ := folder_of_at?_append_cons hfound
  exact h (kindAt_eq_folder.mpr ⟨entries, hentries⟩)

/-- There is nothing below a file. -/
theorem not_prefix_of_file (hfile : tree.at? location = some (.file content))
    (hplace : (tree.at? place).isSome) (hne : location ≠ place) : ¬ location <+: place := by
  rintro ⟨rest, rfl⟩
  have hrest : rest ≠ [] := by
    rintro rfl
    exact hne (List.append_nil location).symm
  have hkind : tree.kindAt location ≠ some .folder := by simp [kindAt, hfile, kind]
  rw [at?_append_of_not_folder hkind hrest] at hplace
  cases hplace

/-- A new leaf changes nothing of any other location. -/
theorem Room.put_leaf_of_ne (hroom : tree.Room location) (hleaf : node.IsLeaf)
    (hne : place ≠ location) :
    (put location node tree).kindAt place = tree.kindAt place ∧
      ∀ content, (put location node tree).at? place = some (.file content) ↔
        tree.at? place = some (.file content) := by
  by_cases hbelow : location <+: place
  · obtain ⟨rest, rfl⟩ := hbelow
    have hrest : rest ≠ [] := by
      rintro rfl
      exact hne (List.append_nil location)
    have hnew : (put location node tree).at? (location ++ rest) = none := by
      rw [at?_append, at?_put_self, Option.bind_some, hleaf rest hrest]
    obtain ⟨-, -, -, -, hfree, -⟩ := hroom
    simp [kindAt, hnew, at?_append_of_not_folder hfree hrest]
  · by_cases hover : place <+: location
    · obtain ⟨rest, rfl⟩ := hover
      have hrest : rest ≠ [] := by
        rintro rfl
        exact hne (List.append_nil place).symm
      have hnew : (put (place ++ rest) node tree).kindAt place = some .folder := by
        rw [kindAt, at?_put_above, Option.map_some, kind_put_of_ne_nil hrest]
      have hold : tree.kindAt place = some .folder := hroom.folder_above hrest
      refine ⟨hnew.trans hold.symm, fun content => ?_⟩
      simp [not_file_of_kindAt hnew, not_file_of_kindAt hold]
    · have hsame : (put location node tree).at? place = tree.at? place :=
        at?_put_of_apart hbelow hover
      simp [kindAt, hsame]

/-- A tree after some writing: files and folders stay what they are, new ones may have come, and
only files at the touched locations are new or have another content. -/
structure Grown (touched : List String → Prop) (before after : Tree) : Prop where
  kinds : ∀ location kind, before.kindAt location = some kind → after.kindAt location = some kind
  files : ∀ location, ¬ touched location → ∀ content,
    after.at? location = some (.file content) ↔ before.at? location = some (.file content)

section

variable {touched touched' : List String → Prop} {first second third : Tree}

theorem Grown.refl (touched : List String → Prop) (tree : Tree) : Grown touched tree tree :=
  ⟨fun _ _ h => h, fun _ _ _ => Iff.rfl⟩

theorem Grown.trans (h : Grown touched first second) (h' : Grown touched second third) :
    Grown touched first third :=
  ⟨fun location kind hkind => h'.kinds location kind (h.kinds location kind hkind),
    fun location hlocation content =>
      (h'.files location hlocation content).trans (h.files location hlocation content)⟩

theorem Grown.mono (h : Grown touched first second) (himp : ∀ l, touched l → touched' l) :
    Grown touched' first second :=
  ⟨h.kinds, fun location hlocation => h.files location fun ht => hlocation (himp location ht)⟩

theorem Room.grown_file (hroom : tree.Room location) (content : ByteArray) :
    Grown (· = location) tree (put location (.file content) tree) := by
  have hothers (place : List String) (hne : place ≠ location) :=
    hroom.put_leaf_of_ne (isLeaf_file content) hne
  refine ⟨fun place kind hkind => ?_, fun place hne => (hothers place hne).2⟩
  by_cases hne : place = location
  · subst hne
    obtain ⟨-, -, -, -, hfree, -⟩ := hroom
    cases kind with
    | folder => exact absurd hkind hfree
    | file => simp [kindAt, Tree.kind]
  · rw [(hothers place hne).1, hkind]

theorem Room.grown_folder (hroom : tree.Room location) (hfree : tree.kindAt location = none) :
    Grown (fun _ => False) tree (put location empty tree) := by
  have hothers (place : List String) (hne : place ≠ location) :=
    hroom.put_leaf_of_ne isLeaf_empty hne
  constructor
  · intro place kind hkind
    have hne : place ≠ location := by
      rintro rfl
      simp [hfree] at hkind
    rw [(hothers place hne).1, hkind]
  · intro place _ content
    by_cases hne : place = location
    · subst hne
      have hnone : tree.at? place = none := by simpa [kindAt] using hfree
      simp [hnone, empty]
    · exact (hothers place hne).2 content

end

end DictionaryDdl.Tree
