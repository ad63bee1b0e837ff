import DictionaryDdl.Text.Split

/-!
Paths of files. A path keeps the text it was written with, because messages show it; its steps
are what it names, without empty pieces and without the ones that stay in place. Paths are
ordered step by step.
-/

namespace DictionaryDdl

structure Path where
  text : String
  deriving DecidableEq, Repr

namespace Path

/-- The pieces of the text between the slashes. -/
def pieces (p : Path) : List String :=
  (Text.pieces '/' p.text.toList).map String.ofList

/-- The pieces without the empty ones that slashes leave at the end. -/
def trimmedPieces (p : Path) : List String :=
  (p.pieces.reverse.dropWhile (·.isEmpty)).reverse

/-- Whether a slash stands at the end, so that only a folder can be meant. -/
def endsInSlash (p : Path) : Bool :=
  p.text.toList.getLast? == some '/'

/-- The folder that holds what the last piece names. -/
def holder (p : Path) : Path :=
  ⟨Text.joined "/" (p.trimmedPieces.dropLast ++ ["."])⟩

/-- The pieces that lead somewhere. -/
def steps (p : Path) : List String :=
  p.pieces.filter fun piece => piece != "" && piece != "."

def isAbsolute (p : Path) : Bool :=
  p.text.toList.head? == some '/'

/-- A path seen from another one; an absolute path stays what it is. -/
def join (base : Path) (text : String) : Path :=
  if text.toList.head? = some '/' ∨ base.text.isEmpty then ⟨text⟩
  else if base.text.toList.getLast? = some '/' then ⟨base.text ++ text⟩
  else ⟨base.text ++ "/" ++ text⟩

/-- The name of the file that a path leads to; none where it ends by going up or names nothing. -/
def fileName? (p : Path) : Option String :=
  p.steps.getLast?.filter (· != "..")

/-- A file name cut at its last dot, unless that is its first character. -/
def cutName (name : String) : String × Option String :=
  match Text.cutAt '.' name.toList.reverse with
  | some (extension, stem) =>
      if stem.isEmpty then (name, none)
      else (String.ofList stem.reverse, some (String.ofList extension.reverse))
  | none => (name, none)

/-- The file name without its extension. -/
def stem? (p : Path) : Option String :=
  p.fileName?.map fun name => (cutName name).1

def extension? (p : Path) : Option String :=
  p.fileName?.bind fun name => (cutName name).2

/-- The path that takes the given steps. -/
def ofSteps (absolute : Bool) (steps : List String) : Path :=
  ⟨(if absolute then "/" else "") ++ Text.joined "/" steps⟩

/-- The paths above a path, nearest first, as long as they name something. -/
def parents (p : Path) : List Path :=
  let count := p.steps.length
  let shorter := (List.range count).reverse.map fun n => ofSteps p.isAbsolute (p.steps.take n)
  shorter.filter (!·.text.isEmpty)

/-- Whether one path comes before another or is in its place. -/
def le (p q : Path) : Bool :=
  !List.lex q.steps p.steps (· < ·)

/-- Paths in ascending order. -/
def sort (paths : List Path) : List Path :=
  paths.mergeSort le

end Path

end DictionaryDdl
