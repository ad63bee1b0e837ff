import DictionaryDdl.Proofs.Batch.Accounts
import DictionaryDdl.Proofs.Files.Outline

/-!
What another content of one file does to the documents that are read and to the tables that are
compiled from them. The other documents are found and read as before, so their tables stay, as long
as the new content is text; what it says does not matter. One that is no text fails them all.
-/

namespace DictionaryDdl.Document

open DictionaryDdl.Tree

variable {tree : Tree} {root path folder : Path} {databases : List String} {database : String}
  {location : List String} {old content : ByteArray} {document : Document}
  {documents : List Document} {reason : AccessError}

theorem ofFile_eq_ok : ofFile tree database path = .ok document ↔
    ∃ text, tree.readText path = .ok text ∧ document = ⟨database, path, text⟩ := by
  unfold ofFile Tree.readTextAt
  cases tree.readText path with
  | error reason => simp [Except.mapError, bind, Except.bind]
  | ok text => simp [Except.mapError, bind, Except.bind, pure, Except.pure, eq_comm]

/-- What becomes of a document when the file at a location has got another content. -/
def reread (tree : Tree) (location : List String) (content : ByteArray) (document : Document) :
    Except AccessError Document :=
  if tree.Reaches document.path location then
    match Text.strictText? content with
    | some text => .ok { document with text }
    | none => .error (.io document.path .invalidData)
  else .ok document

theorem ofFile_put (content : ByteArray) (hfile : tree.at? location = some (.file old))
    (hne : location ≠ [])
    (h : ofFile tree database path = .ok document) :
    ofFile (put location (.file content) tree) database path =
      document.reread tree location content := by
  obtain ⟨text, htext, rfl⟩ := ofFile_eq_ok.mp h
  obtain ⟨place, found, hplace, hstrict⟩ := readText_eq_ok.mp htext
  have hgrown := (room_of_file hfile hne).grown_file content
  obtain ⟨found', hplace'⟩ := place_file_of_grown hgrown hplace
  unfold reread
  by_cases hsame : place = location
  · subst hsame
    have hcontent := at?_of_place hplace'
    rw [at?_put_self] at hcontent
    cases hcontent
    rw [if_pos ⟨_, hplace⟩]
    unfold ofFile Tree.readTextAt
    rw [readText_of_place hplace']
    cases Text.strictText? content <;> rfl
  · have hother : ¬ tree.Reaches path location := fun hreaches =>
      hsame (Reaches.unique ⟨_, hplace⟩ hreaches)
    have hcontent := (hgrown.files place hsame found').mp (at?_of_place hplace')
    rw [at?_of_place hplace] at hcontent
    cases hcontent
    rw [if_neg hother]
    exact ofFile_eq_ok.mpr ⟨text, readText_eq_ok.mpr ⟨place, found, hplace', hstrict⟩, rfl⟩

theorem inFolder_put (content : ByteArray) (hfile : tree.at? location = some (.file old))
    (hne : location ≠ [])
    (h : inFolder tree folder = .ok documents) :
    inFolder (put location (.file content) tree) folder =
      documents.mapM (reread tree location content) := by
  obtain ⟨files, hfiles, hread⟩ := bind_eq_ok.mp h
  have hsame : Discovery.filesWithExtension (put location (.file content) tree) folder extension =
      .ok files := by
    rw [← hfiles, ← Discovery.filesWithExtension_outline, outline_put_file hfile,
      Discovery.filesWithExtension_outline]
  unfold inFolder
  rw [hsame]
  refine mapM_of_mapM_eq_ok (fun path document hdocument => ?_) hread
  exact ofFile_put content hfile hne hdocument

/-- With another content of one file the documents are found again and read once more. -/
theorem inDatabases_put (content : ByteArray) (hfile : tree.at? location = some (.file old))
    (hne : location ≠ [])
    (h : inDatabases tree root databases = .ok documents) :
    inDatabases (put location (.file content) tree) root databases =
      documents.mapM (reread tree location content) := by
  obtain ⟨folders, hfolders, hrest⟩ := bind_eq_ok.mp h
  obtain ⟨groups, hgroups, hflat⟩ := bind_eq_ok.mp hrest
  cases hflat
  have hsame : Discovery.databaseFolders (put location (.file content) tree) root databases =
      .ok folders := by
    rw [← hfolders, ← Discovery.databaseFolders_outline, outline_put_file hfile,
      Discovery.databaseFolders_outline]
  have hread := mapM_of_mapM_eq_ok
    (fun folder group hgroup => inFolder_put content hfile hne hgroup) hgroups
  unfold inDatabases
  rw [hsame, mapM_flatten, ← hread]
  change (folders.mapM (inFolder _)).bind (fun groups => .ok groups.flatten) = _
  cases folders.mapM (inFolder (put location (.file content) tree)) <;> rfl

/-- The documents that are not in the file at a location. -/
def others (tree : Tree) (location : List String) (documents : List Document) : List Document :=
  documents.filter fun document => !decide (tree.Reaches document.path location)

/-- The documents that are in the file at a location. -/
def own (tree : Tree) (location : List String) (documents : List Document) : List Document :=
  documents.filter fun document => decide (tree.Reaches document.path location)

/-- A document of which the file has got another text. -/
def withText (tree : Tree) (location : List String) (text : String) (document : Document) :
    Document :=
  if tree.Reaches document.path location then { document with text } else document

theorem path_withText (tree : Tree) (location : List String) (text : String)
    (document : Document) : (withText tree location text document).path = document.path := by
  unfold withText
  split_ifs <;> rfl

theorem mapM_reread_of_text {text : String} (htext : Text.strictText? content = some text) :
    documents.mapM (reread tree location content) =
      .ok (documents.map (withText tree location text)) := by
  rw [mapM_eq_ok, List.forall₂_map_right_iff, List.forall₂_same]
  intro document _
  unfold reread withText
  split_ifs
  · rw [htext]
  · rfl

theorem others_map_withText (text : String) :
    others tree location (documents.map (withText tree location text)) =
      others tree location documents := by
  unfold others
  rw [List.filter_map]
  simp only [Function.comp_def, path_withText]
  rw [List.map_congr_left (g := id), List.map_id]
  intro document hdocument
  have hother := (List.mem_filter.mp hdocument).2
  simp only [Bool.not_eq_true', decide_eq_false_iff_not] at hother
  exact if_neg hother

theorem mapM_reread_of_no_text (hnone : Text.strictText? content = none)
    (hfound : ∃ document ∈ documents, tree.Reaches document.path location) :
    ∃ document ∈ documents, tree.Reaches document.path location ∧
      documents.mapM (reread tree location content) = .error (.io document.path .invalidData) := by
  cases hread : documents.mapM (reread tree location content) with
  | ok read =>
      obtain ⟨document, hdocument, hreaches⟩ := hfound
      obtain ⟨found, hok⟩ := succeeds_mapM.mp ⟨read, hread⟩ document hdocument
      rw [reread, if_pos hreaches, hnone] at hok
      cases hok
  | error reason =>
      obtain ⟨document, hdocument, herror⟩ := exists_of_mapM_eq_error hread
      refine ⟨document, hdocument, ?_⟩
      unfold reread at herror
      split_ifs at herror with hreaches
      rw [hnone] at herror
      cases herror
      exact ⟨hreaches, rfl⟩

/-- The tables of some documents are those of the ones in a file and those of the others. -/
theorem tables_perm_own_others {catalog : Collation.Catalog} {results : List CompileResult}
    (tree : Tree) (location : List String) (h : Batch.Completion catalog documents results) :
    (Batch.collect results).tables.Perm
      ((own tree location documents).filterMap (Batch.tableFrom catalog) ++
        (others tree location documents).filterMap (Batch.tableFrom catalog)) := by
  rw [← List.filterMap_append]
  exact (Batch.collect_accounts h).tables.trans
    ((List.filter_append_perm _ documents).symm.filterMap _)

/-- Another content of one file leaves the tables of the other documents as they are, whatever room
there is and in whatever order the documents are finished, if the content is text; if it is none,
no document is read at all. -/
theorem tables_isolated (content : ByteArray)
    (hread : inDatabases tree root databases = .ok documents)
    (hfile : tree.at? location = some (.file old))
    (hfound : ∃ document ∈ documents, tree.Reaches document.path location) :
    (∀ text, Text.strictText? content = some text →
      ∃ documents', inDatabases (put location (.file content) tree) root databases =
          .ok documents' ∧
        others tree location documents' = others tree location documents ∧
        ∀ catalog jobs results results', Batch.Pool.Yields catalog jobs documents results →
          Batch.Pool.Yields catalog jobs documents' results' →
          (Batch.collect results).tables.Perm
            ((own tree location documents).filterMap (Batch.tableFrom catalog) ++
              (others tree location documents).filterMap (Batch.tableFrom catalog)) ∧
          (Batch.collect results').tables.Perm
            ((own tree location documents').filterMap (Batch.tableFrom catalog) ++
              (others tree location documents).filterMap (Batch.tableFrom catalog))) ∧
    (Text.strictText? content = none →
      ∃ document ∈ documents, tree.Reaches document.path location ∧
        inDatabases (put location (.file content) tree) root databases =
          .error (.io document.path .invalidData)) := by
  have hne : location ≠ [] := by
    obtain ⟨document, -, node, hplace⟩ := hfound
    have hnode := at?_of_place hplace
    rw [hfile] at hnode
    cases hnode
    exact (room_of_place_file hplace).ne_nil
  have hput := inDatabases_put content hfile hne hread
  constructor
  · intro text htext
    rw [mapM_reread_of_text htext] at hput
    refine ⟨_, hput, others_map_withText text, ?_⟩
    intro catalog jobs results results' hyields hyields'
    have hafter := tables_perm_own_others tree location
      (Batch.Pool.completion_of_yields hyields')
    rw [others_map_withText] at hafter
    exact ⟨tables_perm_own_others tree location (Batch.Pool.completion_of_yields hyields), hafter⟩
  · intro hnone
    rw [hput]
    exact mapM_reread_of_no_text hnone hfound

/-- A tree with two documents of a database, of which the first one describes nothing. -/
def twoDocuments : Tree :=
  .folder [("out", .folder [("shop", .folder
    [("a.sdi", .file (Text.octets "[]")),
      ("b.sdi", .file (Text.octets (Batch.bareDocument "MEMORY").text))])])]

/-- What is read from the second file of `twoDocuments`. -/
def secondDocument : Document :=
  ⟨"shop", ⟨"out/shop/b.sdi"⟩, (Batch.bareDocument "MEMORY").text⟩

theorem tableFrom_secondDocument :
    Batch.tableFrom (.ofList [.general]) secondDocument = some (Batch.bareTable "MEMORY") := by
  have hresult : Batch.resultOf (.ofList [.general]) secondDocument =
      .ok (some (Batch.bareTable "MEMORY")) := Batch.resultOf_bareDocument_memory
  rw [Batch.tableFrom, hresult]
  rfl

theorem filesWithExtension_twoDocuments :
    Discovery.filesWithExtension twoDocuments ⟨"out/shop"⟩ extension =
      .ok [⟨"out/shop/a.sdi"⟩, ⟨"out/shop/b.sdi"⟩] := by
  have hfiles : (Discovery.filesAmong twoDocuments.isFolder ⟨"out/shop"⟩
      [("a.sdi", .file (Text.octets "[]")),
        ("b.sdi", .file (Text.octets (Batch.bareDocument "MEMORY").text))]).filter
        (Discovery.isWanted extension) = [⟨"out/shop/a.sdi"⟩, ⟨"out/shop/b.sdi"⟩] := by
    decide +kernel
  have hsorted : Path.sort [⟨"out/shop/a.sdi"⟩, ⟨"out/shop/b.sdi"⟩] =
      [⟨"out/shop/a.sdi"⟩, ⟨"out/shop/b.sdi"⟩] :=
    List.mergeSort_of_pairwise (by decide +kernel)
  change Except.ok (Path.sort (List.filter _ _)) = _
  rw [hfiles, hsorted]

theorem inFolder_twoDocuments :
    inFolder twoDocuments ⟨"out/shop"⟩ =
      .ok [⟨"shop", ⟨"out/shop/a.sdi"⟩, "[]"⟩, secondDocument] := by
  have hfirst : ofFile twoDocuments "shop" ⟨"out/shop/a.sdi"⟩ =
      .ok ⟨"shop", ⟨"out/shop/a.sdi"⟩, "[]"⟩ :=
    ofFile_eq_ok.mpr ⟨_, readText_eq_ok.mpr ⟨["out", "shop", "a.sdi"], _, rfl,
      Text.strictText?_octets _⟩, rfl⟩
  have hsecond : ofFile twoDocuments "shop" ⟨"out/shop/b.sdi"⟩ = .ok secondDocument :=
    ofFile_eq_ok.mpr ⟨_, readText_eq_ok.mpr ⟨["out", "shop", "b.sdi"], _, rfl,
      Text.strictText?_octets _⟩, rfl⟩
  exact bind_eq_ok.mpr ⟨_, filesWithExtension_twoDocuments,
    mapM_eq_ok.mpr (.cons hfirst (.cons hsecond .nil))⟩

theorem inDatabases_twoDocuments :
    inDatabases twoDocuments ⟨"out"⟩ ["shop"] =
      .ok [⟨"shop", ⟨"out/shop/a.sdi"⟩, "[]"⟩, secondDocument] := by
  have hfolders : Discovery.databaseFolders twoDocuments ⟨"out"⟩ ["shop"] =
      .ok [⟨"out/shop"⟩] := by rfl
  exact bind_eq_ok.mpr ⟨_, hfolders,
    bind_eq_ok.mpr ⟨_, mapM_eq_ok.mpr (.cons inFolder_twoDocuments .nil), rfl⟩⟩

theorem reaches_twoDocuments :
    twoDocuments.Reaches ⟨"out/shop/a.sdi"⟩ ["out", "shop", "a.sdi"] ∧
      ¬ twoDocuments.Reaches ⟨"out/shop/b.sdi"⟩ ["out", "shop", "a.sdi"] := by
  have hsecond : twoDocuments.Reaches ⟨"out/shop/b.sdi"⟩ ["out", "shop", "b.sdi"] := ⟨_, rfl⟩
  exact ⟨⟨_, rfl⟩, fun hfirst => absurd (hfirst.unique hsecond) (by decide)⟩

theorem tables_isolated_twoDocuments :
    inDatabases twoDocuments ⟨"out"⟩ ["shop"] =
        .ok [⟨"shop", ⟨"out/shop/a.sdi"⟩, "[]"⟩, secondDocument] ∧
      twoDocuments.at? ["out", "shop", "a.sdi"] = some (.file (Text.octets "[]")) ∧
      twoDocuments.Reaches ⟨"out/shop/a.sdi"⟩ ["out", "shop", "a.sdi"] ∧
      ∃ documents', inDatabases (put ["out", "shop", "a.sdi"] (.file (Text.octets "\x7b"))
          twoDocuments) ⟨"out"⟩ ["shop"] = .ok documents' ∧
        others twoDocuments ["out", "shop", "a.sdi"] documents' = [secondDocument] := by
  have hfile : twoDocuments.at? ["out", "shop", "a.sdi"] = some (.file (Text.octets "[]")) := rfl
  obtain ⟨hfirst, hsecond⟩ := reaches_twoDocuments
  obtain ⟨htext, -⟩ := tables_isolated (Text.octets "\x7b") inDatabases_twoDocuments hfile
    ⟨_, List.mem_cons_self, hfirst⟩
  obtain ⟨documents', hread, hothers, -⟩ := htext "\x7b" (Text.strictText?_octets _)
  refine ⟨inDatabases_twoDocuments, hfile, hfirst, documents', hread, ?_⟩
  rw [hothers]
  simp [others, hfirst, secondDocument, hsecond]

/-- One octet that is no text in the place of a document keeps the other one from being read, which
has a table. -/
theorem inDatabases_spoilt :
    Batch.tableFrom (.ofList [.general]) secondDocument = some (Batch.bareTable "MEMORY") ∧
      inDatabases (put ["out", "shop", "a.sdi"] (.file ⟨#[0xFF]⟩) twoDocuments) ⟨"out"⟩
        ["shop"] = .error (.io ⟨"out/shop/a.sdi"⟩ .invalidData) := by
  have hnone : Text.strictText? ⟨#[0xFF]⟩ = none := by decide +kernel
  refine ⟨tableFrom_secondDocument, ?_⟩
  rw [inDatabases_put ⟨#[0xFF]⟩ rfl (by decide) inDatabases_twoDocuments, List.mapM_cons, reread,
    if_pos reaches_twoDocuments.1, hnone]
  rfl

end DictionaryDdl.Document
