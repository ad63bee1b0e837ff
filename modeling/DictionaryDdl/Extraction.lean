import DictionaryDdl.Documents
import DictionaryDdl.Text.Blank
import DictionaryDdl.Text.DecimalDigit

/-!
Gathering the dictionary documents of a backup. Standalone documents are copied, and an extracting
program is asked for the documents of tablespaces. The auxiliary tablespaces of full-text indexes
hold no table and are passed over. A tablespace that cannot be read is counted and does not stop
the others.
-/

namespace DictionaryDdl

namespace Tablespace

def isHexadecimal (c : Char) : Bool :=
  ('0' ≤ c && c ≤ '9') || ('a' ≤ c && c ≤ 'f')

/-- Takes sixteen hexadecimal digits, in small letters, off a text. -/
def afterId? (cs : List Char) : Option (List Char) :=
  let id := cs.take 16
  if id.length = 16 ∧ id.all isHexadecimal then some (cs.drop 16) else none

/-- Takes a given beginning off a text. -/
def after? (start : String) (cs : List Char) : Option (List Char) :=
  if start.toList.isPrefixOf cs then some (cs.drop start.toList.length) else none

/-- Whether a text is the extension of a tablespace. -/
def isExtension (cs : List Char) : Bool :=
  cs == ".ibd".toList

/-- What the common tables of a full-text index are called. -/
def commonTables : List String :=
  ["being_deleted", "being_deleted_cache", "config", "deleted", "deleted_cache"]

/-- Whether a text is the number of an index table, with the extension: one or more decimal
digits of any script. -/
def isIndexTable (cs : List Char) : Bool :=
  let digits := cs.takeWhile isDecimal
  !digits.isEmpty && isExtension (cs.drop digits.length)
where
  isDecimal (c : Char) : Bool := Text.isDecimalDigit c

/-- Whether a file name is the one of an auxiliary tablespace of a full-text index. -/
def isFullTextAuxiliary (fileName : String) : Bool :=
  match (after? "fts_" fileName.toList).bind afterId? |>.bind (after? "_") with
  | none => false
  | some rest =>
      commonTables.any (fun table => (after? table rest).any isExtension) ||
        ((afterId? rest).bind (after? "_index_")).any isIndexTable

/-- What stands before the mark of a partition, which is `#p#` in letters of any case. -/
def beforePartitionMark : List Char → List Char
  | [] => []
  | c :: rest =>
      if Text.asciiLowerCase ((c :: rest).take 3) = "#p#".toList then []
      else c :: beforePartitionMark rest

/-- The table that a tablespace belongs to, by the stem of its file name. -/
def tableName (stem : String) : String :=
  String.ofList (beforePartitionMark stem.toList)

end Tablespace

/-- What a run of the extracting program comes to. -/
structure Extract where
  status : Nat
  output : ByteArray
  complaint : ByteArray

/-- An extracting program: what it makes of a tablespace, given by its path and content, or why
it cannot be run. -/
abbrev Extractor := Path → ByteArray → Except IoError Extract

namespace Extraction

/-- Whether an extract holds nothing but the name of the program, as for a tablespace without
tables. -/
def isEmptyExtract : Json → Bool
  | .array [.string name] => name == "ibd2sdi"
  | _ => false

/-- The document in the output of the program, if it holds a table. -/
def documentOf (path : Path) (output : ByteArray) : Except AccessError (Option String) :=
  let text := Text.lenientText output
  match Json.parse text with
  | .error reason => .error (.json path reason)
  | .ok value => .ok (if isEmptyExtract value then none else some text)

/-- The document of a tablespace, if it holds a table. -/
def ofTablespace (executable : Path) (extractor : Extractor) (path : Path)
    (content : ByteArray) : Except AccessError (Option String) :=
  match extractor path content with
  | .error reason => .error (.io executable reason)
  | .ok extract =>
      if extract.status ≠ 0 then
        .error (.extractor path extract.status (Text.trimmed (Text.lenientText extract.complaint)))
      else
        documentOf path extract.output

/-- How many files were copied, extracted, found without a table, and given up. -/
structure Summary where
  copied : Nat := 0
  extracted : Nat := 0
  empty : Nat := 0
  failed : Nat := 0
  deriving DecidableEq, Repr

/-- An extraction: where it takes its files from and where it puts its documents. -/
structure Job where
  executable : Path
  extractor : Extractor
  backup : Path
  output : Path
  databases : List String

namespace Job

/-- The folder for the documents of a database, which is made if it is missing. -/
def outputFolder (job : Job) (folder : Path) : Disk AccessError Path := do
  let path := job.output.join (Discovery.databaseName folder)
  (Disk.makeFolders path).mapError (.io path)
  return path

/-- Copies a standalone document. -/
def copyDocument (output : Path) (summary : Summary) (source : Path) :
    Disk AccessError Summary := do
  match source.fileName? with
  | none => return summary
  | some name => do
      let target := output.join name
      (Disk.copy source target).mapError (.io target)
      return { summary with copied := summary.copied + 1 }

/-- Copies the standalone documents of a database. -/
def copyFolder (job : Job) (summary : Summary) (folder : Path) :
    Disk AccessError Summary := do
  let output ← job.outputFolder folder
  let files ← Disk.look (Discovery.filesWithExtension · folder Document.extension)
  files.foldlM (copyDocument output) summary

/-- The document of the tablespace at a path. -/
def documentAt (job : Job) (tree : Tree) (path : Path) : Except AccessError (Option String) := do
  let content ← (tree.readBytes path).mapError (.io path)
  ofTablespace job.executable job.extractor path content

/-- Extracts the document of a tablespace. -/
def extractDocument (job : Job) (output : Path) (summary : Summary) (path : Path) :
    Disk AccessError Summary := do
  if Tablespace.isFullTextAuxiliary (path.fileName?.getD "") then
    return summary
  else
    match ← Disk.look fun tree => .ok (job.documentAt tree path) with
    | .error _ => return { summary with failed := summary.failed + 1 }
    | .ok none => return { summary with empty := summary.empty + 1 }
    | .ok (some text) => do
        let target := output.join (Tablespace.tableName (path.stem?.getD "") ++ ".sdi")
        (Disk.writeText target text).mapError (.io target)
        return { summary with extracted := summary.extracted + 1 }

/-- Extracts the documents of the tablespaces of a database. -/
def extractFolder (job : Job) (summary : Summary) (folder : Path) :
    Disk AccessError Summary := do
  let output ← job.outputFolder folder
  let files ← Disk.look (Discovery.filesWithExtension · folder "ibd")
  files.foldlM (job.extractDocument output) summary

/-- Copies and extracts the documents of all databases, the copies first. -/
def run (job : Job) : Disk AccessError Summary := do
  let folders ← Disk.look (Discovery.databaseFolders · job.backup job.databases)
  let summary ← folders.foldlM job.copyFolder {}
  folders.foldlM job.extractFolder summary

end Job

end Extraction

end DictionaryDdl
