import DictionaryDdl.Files.Path
import DictionaryDdl.Text.Utf8

/-!
A tree of files and folders, and what reading and writing through paths does to it. There are no
links, and the top of the tree is both the working folder and its own parent. Paths are followed
step by step, so that a path through a file or a missing folder fails where it leaves the tree.
-/

namespace DictionaryDdl

/-- Why a file or folder cannot be read or written. -/
inductive IoError where
  | notFound
  | alreadyExists
  | notADirectory
  | isADirectory
  | invalidData
  | invalidFilename
  | invalidInput
  deriving DecidableEq, Repr

def IoError.message : IoError → String
  | notFound => "No such file or directory (os error 2)"
  | alreadyExists => "File exists (os error 17)"
  | notADirectory => "Not a directory (os error 20)"
  | isADirectory => "Is a directory (os error 21)"
  | invalidData => "stream did not contain valid UTF-8"
  | invalidFilename => "File name too long (os error 36)"
  | invalidInput => "file name contained an unexpected NUL byte"

inductive Tree where
  | file (content : ByteArray)
  | folder (entries : List (String × Tree))
  deriving Inhabited

namespace Tree

def empty : Tree := .folder []

/-- What stands at a location, a list of names from the top. -/
def at? : List String → Tree → Option Tree
  | [], tree => some tree
  | _ :: _, .file _ => none
  | name :: rest, .folder entries => (entries.lookup name).bind (at? rest)

/-- Puts something under a name, in the place of what has that name. -/
def putEntry (name : String) (node : Tree) : List (String × Tree) → List (String × Tree)
  | [] => [(name, node)]
  | (other, kept) :: more =>
      if name = other then (name, node) :: more else (other, kept) :: putEntry name node more

/-- Puts something at a location; the folders on the way there are made where they are missing. -/
def put : List String → Tree → Tree → Tree
  | [], node, _ => node
  | name :: rest, node, .file _ => .folder [(name, put rest node empty)]
  | name :: rest, node, .folder entries =>
      .folder (putEntry name (put rest node ((entries.lookup name).getD empty)) entries)

/-- Where a path leads: to something that is there, or to a free name in a folder. -/
inductive Place where
  | taken (location : List String) (node : Tree)
  | free (location : List String)

/-- The longest name, in octets, that a file can have. -/
def longestName : Nat := 255

/-- The longest path, in octets, that is followed at all. -/
def longestPath : Nat := 4095

/-- Follows the pieces of a path from a location, whose names come nearest first. -/
def follow (top : Tree) (here : List String) : List String → Except IoError Place
  | [] =>
      match at? here.reverse top with
      | some node => .ok (.taken here.reverse node)
      | none => .error .notFound
  | piece :: rest =>
      match at? here.reverse top with
      | none => .error .notFound
      | some (.file _) => .error .notADirectory
      | some (.folder entries) =>
          if piece = "" ∨ piece = "." then follow top here rest
          else if piece = ".." then follow top here.tail rest
          else if longestName < piece.utf8ByteSize then .error .invalidFilename
          else if (entries.lookup piece).isSome then follow top (piece :: here) rest
          else if rest.isEmpty then .ok (.free (piece :: here).reverse)
          else .error .notFound

/-- Refuses a path whose text cannot be followed in any tree. -/
def checkText (path : Path) : Except IoError Unit :=
  if path.text.isEmpty then .error .notFound
  else if path.text.toList.contains '\x00' then .error .invalidInput
  else if longestPath < path.text.utf8ByteSize then .error .invalidFilename
  else .ok ()

/-- Where a path leads. -/
def place (top : Tree) (path : Path) : Except IoError Place := do
  checkText path
  follow top [] path.pieces

/-- What a path leads to. -/
def node (top : Tree) (path : Path) : Except IoError Tree := do
  match ← place top path with
  | .taken _ node => .ok node
  | .free _ => .error .notFound

def isFolder (top : Tree) (path : Path) : Bool :=
  match node top path with
  | .ok (.folder _) => true
  | _ => false

def isFile (top : Tree) (path : Path) : Bool :=
  match node top path with
  | .ok (.file _) => true
  | _ => false

/-- The entries of a folder. -/
def entriesAt (top : Tree) (path : Path) : Except IoError (List (String × Tree)) := do
  match ← node top path with
  | .folder entries => .ok entries
  | .file _ => .error .notADirectory

/-- The content of a file. -/
def readBytes (top : Tree) (path : Path) : Except IoError ByteArray := do
  match ← node top path with
  | .file content => .ok content
  | .folder _ => .error .isADirectory

/-- The content of a file as text. -/
def readText (top : Tree) (path : Path) : Except IoError String := do
  match Text.strictText? (← readBytes top path) with
  | some text => .ok text
  | none => .error .invalidData

/-- The tree with a file of the given content, new or in the place of an old one. A path that ends
in a slash names a folder, whatever is there. -/
def writeBytes (top : Tree) (path : Path) (content : ByteArray) : Except IoError Tree := do
  if path.endsInSlash then
    discard <| entriesAt top path.holder
    .error .isADirectory
  else
    match ← place top path with
    | .taken location (.file _) => .ok (put location (.file content) top)
    | .taken _ (.folder _) => .error .isADirectory
    | .free location => .ok (put location (.file content) top)

/-- The tree with a new folder, whose name slashes may follow. -/
def makeFolder (top : Tree) (path : Path) : Except IoError Tree := do
  checkText path
  match ← follow top [] path.trimmedPieces with
  | .taken _ _ => .error .alreadyExists
  | .free location => .ok (put location empty top)

/-- Makes a folder; the folder may be there already. -/
def ensureFolder (top : Tree) (path : Path) : Except IoError Tree :=
  match makeFolder top path with
  | .ok tree => .ok tree
  | .error reason => if isFolder top path then .ok top else .error reason

/-- Makes the first of some folders and, where they are missing, the folders above it, which
follow it nearest first. Gives back the tree also when it fails, because folders may have been
made by then. -/
def makeFolders (top : Tree) : List Path → Except IoError Unit × Tree
  | [] => (.ok (), top)
  | path :: above =>
      match ensureFolder top path with
      | .ok tree => (.ok (), tree)
      | .error .notFound =>
          match makeFolders top above with
          | (.error reason, tree) => (.error reason, tree)
          | (.ok (), tree) =>
              match ensureFolder tree path with
              | .ok tree => (.ok (), tree)
              | .error reason => (.error reason, tree)
      | .error reason => (.error reason, top)

end Tree

/-- An action on a tree. An action that fails leaves what it has done so far. -/
abbrev Disk (ε α : Type) := EStateM ε Tree α

namespace Disk

/-- An action that gives back the new tree or leaves the old one. -/
def ofStep {ε : Type} (step : Tree → Except ε Tree) : Disk ε Unit := fun tree =>
  match step tree with
  | .ok tree => .ok () tree
  | .error reason => .error reason tree

/-- An action that only looks at the tree. -/
def look {ε α : Type} (view : Tree → Except ε α) : Disk ε α := fun tree =>
  match view tree with
  | .ok result => .ok result tree
  | .error reason => .error reason tree

/-- Makes a folder with all folders above it. -/
def makeFolders (path : Path) : Disk IoError Unit := fun tree =>
  if path.text.isEmpty then .ok () tree
  else
    match tree.makeFolders (path :: path.parents) with
    | (.ok (), tree) => .ok () tree
    | (.error reason, tree) => .error reason tree

/-- Writes a file. -/
def write (path : Path) (content : ByteArray) : Disk IoError Unit :=
  ofStep (·.writeBytes path content)

/-- Writes a file of text. -/
def writeText (path : Path) (text : String) : Disk IoError Unit :=
  write path (Text.octets text)

/-- Copies a file. The target is emptied before the source is read, so a file that is copied onto
itself loses its content. -/
def copy (source target : Path) : Disk IoError Unit := do
  discard <| look (·.readBytes source)
  write target ByteArray.empty
  write target (← look (·.readBytes source))

/-- An action whose error is put in other words. -/
def mapError {ε ε' α : Type} (rephrase : ε → ε') (action : Disk ε α) : Disk ε' α := fun tree =>
  match action tree with
  | .ok result tree => .ok result tree
  | .error reason tree => .error (rephrase reason) tree

end Disk

end DictionaryDdl
