import DictionaryDdl.Documents
import DictionaryDdl.Table.Compiled

/-!
Compiling many documents. Every document is compiled on its own; the results are collected in the
order in which they come in, and the tables are put in the order of their schemas and names. A
document that fails is counted and does not stop the others.
-/

namespace DictionaryDdl

namespace CompiledTable

/-- Whether a table comes before another or in its place, by schema and then by name. -/
def le (a b : CompiledTable) : Bool :=
  a.schema < b.schema || (a.schema == b.schema && a.name ≤ b.name)

end CompiledTable

/-- What a document comes to. -/
abbrev CompileResult := Except DecodeError (Option CompiledTable)

structure Batch where
  /-- In the order of schemas and names. -/
  tables : List CompiledTable
  skipped : Nat
  failed : Nat
  deriving DecidableEq, Repr

namespace Batch

/-- The table of a result, if it has one. -/
def tableOf? : CompileResult → Option CompiledTable
  | .ok table => table
  | .error _ => none

/-- Whether a result says that the document describes no table. -/
def isSkipped : CompileResult → Bool
  | .ok none => true
  | _ => false

def isFailed : CompileResult → Bool
  | .error _ => true
  | .ok _ => false

/-- Collects results in the order in which they come in. -/
def collect (results : List CompileResult) : Batch where
  tables := (results.filterMap tableOf?).mergeSort CompiledTable.le
  skipped := results.countP isSkipped
  failed := results.countP isFailed

/-- Compiles documents that come in one after another. -/
def compile (catalog : Collation.Catalog) (documents : List Document) : Batch :=
  collect (documents.map fun document => CompiledTable.ofText catalog document.text)

/-- What is reported of a document. -/
def noticesOf (catalog : Collation.Catalog) (document : Document) : List Notice :=
  CompiledTable.notices catalog document.text ++
    match CompiledTable.ofText catalog document.text with
    | .ok (some _) => []
    | .ok none => [.noTable document.path.text]
    | .error reason => [.tableFailed (document.path.stem?.getD "") document.database reason]

/-- What is reported of a batch. -/
def notices (catalog : Collation.Catalog) (documents : List Document) : List Notice :=
  documents.flatMap (noticesOf catalog)

end Batch

end DictionaryDdl
