import DictionaryDdl.Files.Tree

/-!
What a tree consists of, as a list, and how one tree differs from another. Folders that are not
empty are left out, because the files below them say that they are there.
-/

namespace DictionaryDdl.Tree

/-- A file or an empty folder, with the names that lead to it from the top. -/
structure Leaf where
  location : List String
  /-- Absent for a folder. -/
  content : Option ByteArray

mutual

/-- The files and the empty folders of a tree that stands at a location. -/
def leavesAt (location : List String) : Tree → List Leaf
  | .file content => [⟨location, some content⟩]
  | .folder [] => [⟨location, none⟩]
  | .folder (entry :: more) => leavesAmong location (entry :: more)

/-- The files and the empty folders of the entries of a folder. -/
def leavesAmong (location : List String) : List (String × Tree) → List Leaf
  | [] => []
  | (name, node) :: more => leavesAt (location ++ [name]) node ++ leavesAmong location more

end

/-- The files and the empty folders of a tree, of which an empty one has none. -/
def leaves : Tree → List Leaf
  | .folder entries => leavesAmong [] entries
  | tree => leavesAt [] tree

/-- Whether a tree has a file or folder in its place, with the same content. -/
def hasLeaf (tree : Tree) (leaf : Leaf) : Bool :=
  match tree.at? leaf.location, leaf.content with
  | some (.file content), some wanted => content == wanted
  | some (.folder _), none => true
  | _, _ => false

/-- The files and the empty folders of a new tree that an old one does not have. -/
def changes (old new : Tree) : List Leaf :=
  new.leaves.filter (!old.hasLeaf ·)

end DictionaryDdl.Tree
