import DictionaryDdl.CommandLine.Settings
import DictionaryDdl.Proofs.Files.Finding

/-!
What the databases that flags name restrict a run to. An item of the flags that is not blank keeps
the run to the folders that items name, whatever the variables say. Blank items are passed over, so
flags with no other items name no database, and then all folders are processed, also where a
variable would have named some.
-/

namespace DictionaryDdl.Settings

open Discovery

variable {flags : Flags} {env : Environment} {settings : Settings}

/-- The trimmed texts between the commas of the flags, blank ones included. -/
def flagItems (flags : Flags) : List String :=
  flags.databases.flatMap fun value =>
    (Text.pieces ',' value.toList).map fun piece => String.ofList (Text.trim piece)

/-- The items that are not blank. -/
def namedItems (flags : Flags) : List String :=
  (flagItems flags).filter fun item => item ≠ ""

theorem mem_namedItems {item : String} :
    item ∈ namedItems flags ↔ item ∈ flagItems flags ∧ item ≠ "" := by
  rw [namedItems, List.mem_filter, decide_eq_true_eq]

theorem namedItems_ne_nil : namedItems flags ≠ [] ↔ ∃ item ∈ flagItems flags, item ≠ "" := by
  rw [namedItems, ne_eq, List.filter_eq_nil_iff]
  simp only [decide_eq_true_eq, not_forall, not_not, exists_prop]

theorem listItems_eq (text : String) :
    listItems text = ((Text.pieces ',' text.toList).map fun piece =>
      String.ofList (Text.trim piece)).filter fun item => item ≠ "" := by
  unfold listItems
  rw [List.filter_map, List.filter_map, List.map_map]
  apply congrArg
  apply List.filter_congr
  intro piece _
  by_cases h : Text.trim piece = []
  · simp [h]
  · simp [h, List.isEmpty_eq_false_iff.mpr h]

theorem databasesOf_flags (h : flags.databases ≠ []) (env : Environment) :
    databasesOf flags env = namedItems flags := by
  have hgiven : flags.databases.isEmpty = false := List.isEmpty_eq_false_iff.mpr h
  rw [databasesOf, hgiven, namedItems, flagItems, List.filter_flatMap]
  simp only [Bool.false_eq_true, if_false]
  apply congrArg (flags.databases.flatMap ·)
  funext value
  exact listItems_eq value

theorem databases_of_resolve (h : resolve flags env = .ok settings) :
    settings.databases = databasesOf flags env := by
  obtain ⟨jobs, -, hsettings⟩ := bind_eq_ok.mp h
  cases hsettings
  rfl

theorem databaseFolders_of_ne_nil {databases : List String} (h : databases ≠ []) (tree : Tree)
    (root : Path) :
    databaseFolders tree root databases = .ok (namedFolders tree root databases) := by
  rw [databaseFolders, List.isEmpty_eq_false_iff.mpr h]
  rfl

/-- A backup of the databases `old` and `shop`, with a document each. -/
def oldAndShop : Tree :=
  .folder [("backup", .folder [
    ("old", .folder [("u.sdi", .file .empty)]),
    ("shop", .folder [("t.sdi", .file .empty)])])]

theorem databaseFolders_oldAndShop :
    databaseFolders oldAndShop ⟨"backup"⟩ [] = .ok [⟨"backup/old"⟩, ⟨"backup/shop"⟩] := by
  refine databaseFolders_nil.mpr (foldersIn_eq_ok.mpr ⟨_, _, rfl, ?_⟩)
  exact (List.mergeSort_of_pairwise (by decide +kernel)).symm

/-- Flags restrict every run to the folders that their items name if, and only if, an item is not
blank. Then the folders are those of the items that are there; otherwise they are the ones that
would be processed with neither flags nor variables. -/
theorem databaseFolders_restricted_iff (hflags : flags.databases ≠ [])
    (h : resolve flags env = .ok settings) :
    ((∀ tree root folders, databaseFolders tree root settings.databases = .ok folders →
          ∀ folder ∈ folders, ∃ item ∈ flagItems flags, folder = root.join item) ↔
        ∃ item ∈ flagItems flags, item ≠ "") ∧
      ((∃ item ∈ flagItems flags, item ≠ "") → ∀ tree root,
        databaseFolders tree root settings.databases =
          .ok (((namedItems flags).map root.join).filter tree.isFolder)) ∧
      ((∀ item ∈ flagItems flags, item = "") → ∀ tree root,
        databaseFolders tree root settings.databases = databaseFolders tree root []) := by
  have hdatabases : settings.databases = namedItems flags :=
    (databases_of_resolve h).trans (databasesOf_flags hflags env)
  have hnamed : (∃ item ∈ flagItems flags, item ≠ "") → ∀ tree root,
      databaseFolders tree root settings.databases =
        .ok (((namedItems flags).map root.join).filter tree.isFolder) := by
    intro hitem tree root
    rw [hdatabases]
    exact databaseFolders_of_ne_nil (namedItems_ne_nil.mpr hitem) tree root
  have hblank : (∀ item ∈ flagItems flags, item = "") → settings.databases = [] := by
    intro hitems
    rw [hdatabases, namedItems, List.filter_eq_nil_iff]
    intro item hitem
    simp [hitems item hitem]
  refine ⟨⟨?_, ?_⟩, hnamed, fun hitems tree root => by rw [hblank hitems]⟩
  · intro hrestricted
    by_contra hnone
    have hitems : ∀ item ∈ flagItems flags, item = "" := by
      intro item hitem
      by_contra hne
      exact hnone ⟨item, hitem, hne⟩
    -- the folder of a database is not the root with a blank item after it
    have hfolders := databaseFolders_oldAndShop
    rw [← hblank hitems] at hfolders
    obtain ⟨item, hitem, hjoin⟩ :=
      hrestricted oldAndShop ⟨"backup"⟩ _ hfolders ⟨"backup/old"⟩ List.mem_cons_self
    rw [hitems item hitem] at hjoin
    exact absurd hjoin (by decide +kernel)
  · intro hitem tree root folders hfolders folder hfolder
    rw [hnamed hitem] at hfolders
    cases hfolders
    have hlisted := (List.mem_filter.mp hfolder).1
    obtain ⟨item, hmem, rfl⟩ := List.mem_map.mp hlisted
    exact ⟨item, (mem_namedItems.mp hmem).1, rfl⟩

/-- Two flags of which one item is not blank. -/
def blanksAndShop : Flags where
  databases := [" , shop", ""]
  jobs := some 1

/-- Blank items beside one that is not blank, and a variable that names another database. -/
theorem databaseFolders_restricted_iff_shop :
    ∃ settings, resolve blanksAndShop ⟨[("SDI2DDL_DATABASES", "old")]⟩ = .ok settings ∧
      databaseFolders oldAndShop ⟨"backup"⟩ settings.databases = .ok [⟨"backup/shop"⟩] := by
  have hflags : blanksAndShop.databases ≠ [] := by decide
  have hitem : ∃ item ∈ flagItems blanksAndShop, item ≠ "" :=
    ⟨"shop", by decide +kernel, by decide⟩
  have hresolve : ∃ settings,
      resolve blanksAndShop ⟨[("SDI2DDL_DATABASES", "old")]⟩ = .ok settings := ⟨_, rfl⟩
  obtain ⟨settings, hsettings⟩ := hresolve
  have hfolders := (databaseFolders_restricted_iff hflags hsettings).2.1 hitem
  refine ⟨settings, hsettings, ?_⟩
  rw [hfolders oldAndShop ⟨"backup"⟩]
  apply congrArg
  decide +kernel

/-- A flag of blank items does not restrict a run, and it hides the variable that does. -/
theorem databaseFolders_blank_flag :
    ∃ settings, resolve { databases := [","], jobs := some 1 }
        ⟨[("SDI2DDL_DATABASES", "shop")]⟩ = .ok settings ∧
      databaseFolders oldAndShop ⟨"backup"⟩ settings.databases =
        .ok [⟨"backup/old"⟩, ⟨"backup/shop"⟩] ∧
      ¬ ∃ item ∈ flagItems { databases := [","], jobs := some 1 },
        (⟨"backup/old"⟩ : Path) = Path.join ⟨"backup"⟩ item := by
  have hitems : flagItems { databases := [","], jobs := some 1 } = ["", ""] := by decide +kernel
  refine ⟨_, rfl, databaseFolders_oldAndShop, ?_⟩
  rw [hitems]
  decide +kernel

end DictionaryDdl.Settings
