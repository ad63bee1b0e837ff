import DictionaryDdl.Files.Discovery
import DictionaryDdl.Proofs.Files.Following

/-!
The outline of a tree: its files and folders without the contents of the files. Where a path leads,
which folders stand for databases and which files are found below them depends on the outline alone,
and another content of a file leaves the outline as it is.
-/

namespace DictionaryDdl

namespace Tree

variable {tree top node child : Tree} {entries : List (String × Tree)} {name : String}
  {location here pieces : List String} {path folder : Path} {old content : ByteArray}

mutual

/-- A tree in which all files are empty. -/
def outline : Tree → Tree
  | .file _ => .file .empty
  | .folder entries => .folder (outlineAmong entries)

/-- The entries of a folder with all files empty. -/
def outlineAmong : List (String × Tree) → List (String × Tree)
  | [] => []
  | (name, node) :: more => (name, outline node) :: outlineAmong more

end

/-- The outline of what a path leads to. -/
def Place.outline : Place → Place
  | .taken location node => .taken location node.outline
  | .free location => .free location

theorem lookup_outlineAmong (name : String) (entries : List (String × Tree)) :
    (outlineAmong entries).lookup name = (entries.lookup name).map outline := by
  induction entries with
  | nil => rfl
  | cons entry more ih =>
      obtain ⟨found, node⟩ := entry
      rw [outlineAmong, lookup_cons_eq_ite, lookup_cons_eq_ite, ih]
      split <;> rfl

theorem at?_outline (location : List String) (tree : Tree) :
    tree.outline.at? location = (tree.at? location).map outline := by
  induction location generalizing tree with
  | nil => rfl
  | cons name more ih =>
      cases tree with
      | file content => rfl
      | folder entries =>
          simp only [outline, at?, lookup_outlineAmong]
          cases entries.lookup name with
          | none => rfl
          | some node => exact ih node

theorem follow_outline (here pieces : List String) (tree : Tree) :
    follow tree.outline here pieces = (follow tree here pieces).map Place.outline := by
  induction pieces generalizing here with
  | nil =>
      unfold follow
      rw [at?_outline]
      cases tree.at? here.reverse <;> rfl
  | cons piece rest ih =>
      unfold follow
      rw [at?_outline]
      cases tree.at? here.reverse with
      | none => rfl
      | some node =>
          cases node with
          | file content => rfl
          | folder entries =>
              simp only [Option.map_some, outline, lookup_outlineAmong, Option.isSome_map, ih]
              split_ifs <;> rfl

theorem place_outline (path : Path) (tree : Tree) :
    tree.outline.place path = (tree.place path).map Place.outline := by
  unfold place
  cases checkText path with
  | error reason => rfl
  | ok _ => exact follow_outline [] path.pieces tree

theorem node_outline (path : Path) (tree : Tree) :
    tree.outline.node path = (tree.node path).map outline := by
  unfold Tree.node
  rw [place_outline]
  cases tree.place path with
  | error reason => rfl
  | ok found => cases found <;> rfl

theorem isFolder_outline (path : Path) (tree : Tree) :
    tree.outline.isFolder path = tree.isFolder path := by
  unfold isFolder
  rw [node_outline]
  cases tree.node path with
  | error reason => rfl
  | ok node => cases node <;> rfl

theorem entriesAt_outline (path : Path) (tree : Tree) :
    tree.outline.entriesAt path = (tree.entriesAt path).map outlineAmong := by
  unfold entriesAt
  rw [node_outline]
  cases tree.node path with
  | error reason => rfl
  | ok node => cases node <;> rfl

theorem outlineAmong_putEntry (h : entries.lookup name = some child)
    (hnode : node.outline = child.outline) :
    outlineAmong (putEntry name node entries) = outlineAmong entries := by
  induction entries with
  | nil => simp at h
  | cons entry more ih =>
      obtain ⟨found, kept⟩ := entry
      rw [lookup_cons_eq_ite] at h
      by_cases hfound : name = found
      · simp only [hfound, if_true, Option.some.injEq] at h
        simp [putEntry, outlineAmong, hfound, hnode, h]
      · rw [if_neg hfound] at h
        simp [putEntry, outlineAmong, hfound, ih h]

/-- Another content of a file is not seen in the outline. -/
theorem outline_put_file (h : tree.at? location = some (.file old)) :
    (put location (.file content) tree).outline = tree.outline := by
  induction location generalizing tree with
  | nil =>
      obtain rfl : tree = .file old := Option.some.inj h
      rfl
  | cons name more ih =>
      cases tree with
      | file other => simp [at?] at h
      | folder entries =>
          obtain ⟨child, hchild, hmore⟩ := Option.bind_eq_some_iff.mp h
          simp only [put, hchild, Option.getD_some, outline]
          rw [outlineAmong_putEntry hchild (ih hmore)]

end Tree

namespace Discovery

open DictionaryDdl.Tree

mutual

theorem filesBelow_outline (isFolder : Path → Bool) (path : Path) :
    (tree : Tree) → filesBelow isFolder path tree.outline = filesBelow isFolder path tree
  | .file _ => rfl
  | .folder entries => by
      rw [outline, filesBelow, filesBelow, filesAmong_outline isFolder path entries]

theorem filesAmong_outline (isFolder : Path → Bool) (folder : Path) :
    (entries : List (String × Tree)) →
      filesAmong isFolder folder (outlineAmong entries) = filesAmong isFolder folder entries
  | [] => rfl
  | (name, node) :: more => by
      rw [outlineAmong, filesAmong, filesAmong,
        filesBelow_outline isFolder (folder.join name) node,
        filesAmong_outline isFolder folder more]

end

theorem isFolder_outline_eq (tree : Tree) : tree.outline.isFolder = tree.isFolder :=
  funext fun path => isFolder_outline path tree

theorem names_outlineAmong (entries : List (String × Tree)) :
    (outlineAmong entries).map (·.1) = entries.map (·.1) := by
  induction entries with
  | nil => rfl
  | cons entry more ih => simp [outlineAmong, ih]

theorem databaseFolders_outline (tree : Tree) (root : Path) (databases : List String) :
    databaseFolders tree.outline root databases = databaseFolders tree root databases := by
  have hfolder := isFolder_outline_eq tree
  have hfolders : foldersIn tree.outline root = foldersIn tree root := by
    unfold foldersIn
    rw [entriesAt_outline, hfolder]
    cases tree.entriesAt root with
    | error reason => rfl
    | ok entries =>
        have hjoined := congrArg (List.map root.join) (names_outlineAmong entries)
        rw [List.map_map, List.map_map] at hjoined
        change Except.ok (Path.sort (((outlineAmong entries).map _).filter _)) = Except.ok _
        exact congrArg (fun paths => Except.ok (Path.sort (paths.filter tree.isFolder))) hjoined
  unfold databaseFolders namedFolders
  rw [hfolders, hfolder]

theorem filesWithExtension_outline (tree : Tree) (folder : Path) (extension : String) :
    filesWithExtension tree.outline folder extension =
      filesWithExtension tree folder extension := by
  unfold filesWithExtension
  rw [entriesAt_outline, isFolder_outline_eq]
  cases tree.entriesAt folder with
  | error reason => rfl
  | ok entries =>
      change Except.ok (Path.sort ((filesAmong _ folder (outlineAmong entries)).filter _)) = _
      rw [filesAmong_outline]
      rfl

end Discovery

end DictionaryDdl
