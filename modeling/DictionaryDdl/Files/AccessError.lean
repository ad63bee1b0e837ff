import DictionaryDdl.Files.Tree
import DictionaryDdl.Json.Mismatch

/-!
What can go wrong between the program and the world around it: files, the extracting program and
the server.
-/

namespace DictionaryDdl

inductive AccessError where
  | io (path : Path) (reason : IoError)
  /-- The text of a file is no JSON or not of the wanted shape. -/
  | json (path : Path) (reason : Json.Error)
  /-- The extracting program gave up, with a status and what it wrote about it. -/
  | extractor (path : Path) (status : Nat) (complaint : String)
  /-- The document does not describe a table. -/
  | noTable (path : Path)
  /-- The server cannot be reached. -/
  | server

/-- What is wrong with the text of a file. -/
def faultText : Json.Error → String
  | .truncated => "unexpected end of the text"
  | .malformed => "malformed text"
  | .mismatch reason => reason.message

def AccessError.message : AccessError → String
  | io path reason => "I/O error on '" ++ path.text ++ "': " ++ reason.message
  | json path reason => "Invalid JSON in '" ++ path.text ++ "': " ++ faultText reason
  | extractor path status complaint =>
      "ibd2sdi failed on '" ++ path.text ++ "' (exit status: " ++ toString status ++ "): " ++
        complaint
  | noTable path => "'" ++ path.text ++ "' does not describe a table"
  | server => "MySQL error: no connection"

/-- The text of a file, or an error that names the file. -/
def Tree.readTextAt (tree : Tree) (path : Path) : Except AccessError String :=
  (tree.readText path).mapError (.io path)

end DictionaryDdl
