import DictionaryDdl.CommandLine.Error
import DictionaryDdl.Text.Blank

/-!
The variables that settings fall back on: those of the process, and the assignments of a file,
which win over them. A file holds one assignment a line, with an optional `export` before it and
optional quotes around the value; blank lines and lines that start with a hash are passed over.
A faulty line ends the reading, and the assignments before it stay.
-/

namespace DictionaryDdl

/-- A line of a settings file. -/
inductive SettingsLine where
  | blank
  | assignment (key value : String)
  | malformed
  | emptyKey
  deriving DecidableEq, Repr

namespace SettingsLine

/-- The word that may stand before an assignment. -/
def exportWord : List Char := "export ".toList

/-- Takes the word off an assignment. -/
def withoutExport (line : List Char) : List Char :=
  if exportWord.isPrefixOf line then line.drop exportWord.length else line

/-- Whether a text stands between two quotes of a kind. -/
def isQuotedBy (quote : Char) (text : List Char) : Bool :=
  text.length ≥ 2 && text.head? == some quote && text.getLast? == some quote

/-- A value without the quotes around it. -/
def unquoted (value : List Char) : List Char :=
  let text := Text.trim value
  if isQuotedBy '"' text || isQuotedBy '\'' text then (text.drop 1).dropLast else text

/-- What a line says. -/
def ofText (line : List Char) : SettingsLine :=
  let text := Text.trim line
  if text.isEmpty ∨ text.head? = some '#' then .blank
  else
    match Text.cutAt '=' (withoutExport text) with
    | none => .malformed
    | some (key, value) =>
        if (Text.trim key).isEmpty then .emptyKey
        else .assignment (String.ofList (Text.trim key)) (String.ofList (unquoted value))

end SettingsLine

/-- Assignments of variables, the latest first. -/
structure Environment where
  assignments : List (String × String)
  deriving DecidableEq, Repr

namespace Environment

/-- The value of a variable. -/
def value? (env : Environment) (key : String) : Option String :=
  env.assignments.lookup key

/-- The value of a variable, unless it is empty. -/
def get? (env : Environment) (key : String) : Option String :=
  (env.value? key).filter (!·.isEmpty)

def set (env : Environment) (key value : String) : Environment :=
  ⟨(key, value) :: env.assignments⟩

/-- The variables after some lines, of which the first one has a number, and the fault that ended
the reading, if one did. -/
def loadLines (env : Environment) (number : Nat) :
    List (List Char) → Environment × Option ConfigFault
  | [] => (env, none)
  | line :: more =>
      match SettingsLine.ofText line with
      | .blank => loadLines env (number + 1) more
      | .assignment key value => loadLines (env.set key value) (number + 1) more
      | .malformed => (env, some (.malformedLine number))
      | .emptyKey => (env, some (.emptyKey number))

/-- The variables after the text of a settings file. Lines end at line feeds; a carriage return
before it is blank. -/
def load (env : Environment) (text : String) : Environment × Option ConfigFault :=
  env.loadLines 1 (Text.pieces '\n' text.toList)

/-- The variables after a settings file. -/
def loadFile (env : Environment) (tree : Tree) (path : Path) :
    Environment × Option ConfigFault :=
  match tree.readText path with
  | .error reason => (env, some (.unreadableFile path reason))
  | .ok text => env.load text

/-- The settings file that is read when none is named, if it is there. -/
def defaultFile : Path := ⟨".env"⟩

/-- The variables after the named settings file, or after the default one if it is there. -/
def loadNamed (env : Environment) (tree : Tree) (file : Option Path) :
    Except ConfigFault Environment :=
  let (loaded, fault) := match file with
    | some path => env.loadFile tree path
    | none => if tree.isFile defaultFile then env.loadFile tree defaultFile else (env, none)
  match fault with
  | some fault => .error fault
  | none => .ok loaded

end Environment

end DictionaryDdl
