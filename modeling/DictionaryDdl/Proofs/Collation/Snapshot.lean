import DictionaryDdl.Collation.Snapshot
import DictionaryDdl.Proofs.Collation.Reading
import DictionaryDdl.Proofs.Files.Sequences
import DictionaryDdl.Proofs.Files.Writing
import DictionaryDdl.Table.Column

/-!
Catalogues that are kept as JSON. The text of a catalogue is read back as that catalogue, from a file
as well, and has its numbers in ascending order, so no two catalogues have one text. A list of
collations in any order and with repeated numbers is read as the catalogue of the last ones, and the
text of that depends on nothing else.
-/

namespace DictionaryDdl.Collation.Catalog

open Json

variable {catalog other : Catalog} {text : String} {tree after : Tree} {path : Path}

/-- The texts of a catalogue: without blanks, and as it is kept in a file. -/
def texts (catalog : Catalog) : List String :=
  [catalog.toJson.compact, catalog.snapshot]

theorem forall₂_gives_toJson (entries : List Collation) :
    List.Forall₂ Gives (entries.map Collation.toJson) entries := by
  rw [List.forall₂_map_left_iff, List.forall₂_same]
  intro c _
  exact gives_toJson c

theorem exists_layout (h : text ∈ catalog.texts) :
    ∃ layout, text.toList = spelt layout 0 catalog.toJson := by
  simp only [texts, List.mem_cons, List.not_mem_nil, or_false] at h
  rcases h with rfl | rfl
  · exact ⟨.compact, toList_compact catalog.toJson 0⟩
  · exact ⟨.pretty, toList_prettyAt catalog.toJson 0⟩

theorem spells_text (h : text ∈ catalog.texts) : Spells text catalog.entries := by
  obtain ⟨layout, htext⟩ := exists_layout h
  refine ⟨_, layout, 0, [], [], forall₂_gives_toJson catalog.entries, List.forall_mem_nil _,
    List.forall_mem_nil _, ?_⟩
  rw [List.nil_append, List.append_nil]
  exact htext

theorem read_text (h : text ∈ catalog.texts) : read text = .ok catalog := by
  rw [(spells_text h).read, ofList_entries]

theorem exact_toJson (catalog : Catalog) : catalog.toJson.IsExact :=
  .array (exact_of_forall₂_gives (forall₂_gives_toJson catalog.entries))

theorem depth_toJson_le (catalog : Catalog) : catalog.toJson.depth ≤ 2 := by
  rw [toJson, depth, Nat.add_le_add_iff_right, depthOfItems_le_iff, List.forall_mem_map]
  intro c _
  exact Nat.le_refl 1

/-- The numbers in a text of a catalogue are in strictly ascending order. -/
theorem ascending_text (h : text ∈ catalog.texts) :
    ∃ (items : List Json) (ids : List UInt32), parse text = .ok (.array items) ∧
      items.map (Json.get? "id") = ids.map (fun id => some (.ofNat id.toNat)) ∧
      ids.Pairwise (· < ·) := by
  obtain ⟨layout, htext⟩ := exists_layout h
  have hdepth : catalog.toJson.depth ≤ maxDepth := catalog.depth_toJson_le.trans (by decide)
  have hparse := parse_spelt catalog.exact_toJson hdepth htext
  rw [toJson, ordered, orderedItems_eq_map] at hparse
  refine ⟨_, catalog.entries.map Collation.id, hparse, ?_, List.pairwise_map.mpr catalog.ascending⟩
  rw [List.map_map, List.map_map, List.map_map]
  apply List.map_congr_left
  intro c _
  exact (gives_toJson c).exact.get?_ordered "id"

theorem ofFile_of_text (h : text ∈ catalog.texts) (hread : tree.readText path = .ok text) :
    ofFile tree path = .ok catalog := by
  unfold ofFile Tree.readTextAt
  rw [hread]
  change (read text).mapError (AccessError.json path) = _
  rw [read_text h]
  rfl

/-- A catalogue that was kept in a file is found there. -/
theorem ofFile_of_writeFile (h : catalog.writeFile path tree = .ok () after) :
    ofFile after path = .ok catalog := by
  have hwrite := Disk.write_eq_ok.mp (Disk.mapError_eq_ok.mp h)
  obtain ⟨location, -, -, hplace⟩ := Tree.writeBytes_eq_ok hwrite
  have htext : catalog.snapshot ∈ catalog.texts := by simp [texts]
  apply ofFile_of_text htext
  rw [Tree.readText_of_place hplace, Text.strictText?_octets]

/-- What is found in a catalogue of some collations is the last one of its number. -/
theorem findCollation_ofList (entries : List Collation) :
    (∀ c ∈ entries, ∃ last, IsLast entries last ∧ last.id = c.id ∧
        Column.findCollation (ofList entries) c.id = .ok last) ∧
      ∀ id, (∀ c ∈ entries, c.id ≠ id) →
        Column.findCollation (ofList entries) id = .error (.unknownCollation id) := by
  constructor
  · intro c hmem
    obtain ⟨last, hlast, hid⟩ := exists_isLast hmem
    refine ⟨last, hlast, hid, ?_⟩
    rw [Column.findCollation, ← hid, lookup?_ofList_of_isLast hlast]
  · intro id hnone
    rw [Column.findCollation, lookup?_ofList_eq_none hnone]

/-- A text of a catalogue is read back as that catalogue, from a file as well; it has the numbers in
ascending order, and no other catalogue has it. A text of any collations is read as a catalogue
that finds the last one of each number, and whose value is the array of these in ascending
order. -/
theorem read_texts_canonical :
    (∀ catalog : Catalog, ∀ text ∈ catalog.texts,
      read text = .ok catalog ∧
        (∀ tree path, Tree.readText tree path = .ok text → ofFile tree path = .ok catalog) ∧
        (∃ (items : List Json) (ids : List UInt32), parse text = .ok (.array items) ∧
          items.map (Json.get? "id") = ids.map (fun id => some (.ofNat id.toNat)) ∧
          ids.Pairwise (· < ·)) ∧
        ∀ other : Catalog, text ∈ other.texts → catalog = other) ∧
      (∀ (catalog : Catalog) (path : Path) (tree after : Tree),
        catalog.writeFile path tree = .ok () after → ofFile after path = .ok catalog) ∧
      ∀ (text : String) (entries : List Collation), Spells text entries →
        ∃ (catalog : Catalog) (kept : List Collation), read text = .ok catalog ∧
          (∀ c ∈ entries, ∃ last, IsLast entries last ∧ last.id = c.id ∧
            Column.findCollation catalog c.id = .ok last) ∧
          (∀ id, (∀ c ∈ entries, c.id ≠ id) →
            Column.findCollation catalog id = .error (.unknownCollation id)) ∧
          kept.Pairwise (·.id < ·.id) ∧ (∀ c, c ∈ kept ↔ IsLast entries c) ∧
          catalog.toJson = .array (kept.map Collation.toJson) := by
  refine ⟨fun catalog text htext => ⟨read_text htext, ?_, ascending_text htext, ?_⟩,
    fun _ _ _ _ h => ofFile_of_writeFile h, ?_⟩
  · intro tree path hread
    exact ofFile_of_text htext hread
  · intro other hother
    have hread := read_text htext
    rw [read_text hother] at hread
    exact (Except.ok.inj hread).symm
  · intro text entries hspells
    obtain ⟨hfound, hmissing⟩ := findCollation_ofList entries
    exact ⟨ofList entries, (ofList entries).entries, hspells.read, hfound, hmissing,
      (ofList entries).ascending, fun c => mem_ofList, rfl⟩

/-- Three collations, of which the first and the last have one number. -/
def repeatedNumber : List Collation :=
  [⟨45, "utf8mb4_general_ci", "utf8mb4", 3⟩, ⟨8, "latin1_swedish_ci", "latin1", 1⟩,
    ⟨45, "utf8mb4_general_ci", "utf8mb4", 4⟩]

/-- Their values: the fields from the last to the first, an array, and the fields in order. -/
def repeatedNumberItems : List Json :=
  [.object (fields ⟨45, "utf8mb4_general_ci", "utf8mb4", 3⟩).reverse,
    .array (cells ⟨8, "latin1_swedish_ci", "latin1", 1⟩),
    Collation.toJson ⟨45, "utf8mb4_general_ci", "utf8mb4", 4⟩]

theorem spells_repeatedNumber : Spells (Json.array repeatedNumberItems).pretty repeatedNumber := by
  refine ⟨repeatedNumberItems, .pretty, 0, [], [], ?_, List.forall_mem_nil _,
    List.forall_mem_nil _, ?_⟩
  · exact .cons (.inl ⟨_, rfl, List.reverse_perm _⟩)
      (.cons (.inr rfl) (.cons (gives_toJson _) .nil))
  · rw [List.nil_append, List.append_nil]
    exact toList_prettyAt _ 0

/-- The last collation of the repeated number is the one that stays. -/
theorem read_texts_canonical_repeatedNumber :
    Spells (Json.array repeatedNumberItems).pretty repeatedNumber ∧
      ∃ catalog, read (Json.array repeatedNumberItems).pretty = .ok catalog ∧
        Column.findCollation catalog 63 = .error (.unknownCollation 63) ∧
        catalog.toJson = .array
          [Collation.toJson ⟨8, "latin1_swedish_ci", "latin1", 1⟩,
            Collation.toJson ⟨45, "utf8mb4_general_ci", "utf8mb4", 4⟩] := by
  obtain ⟨catalog, kept, hread, -, hmissing, hascending, hkept, hvalue⟩ :=
    read_texts_canonical.2.2 _ _ spells_repeatedNumber
  have hentries : kept = [⟨8, "latin1_swedish_ci", "latin1", 1⟩,
      ⟨45, "utf8mb4_general_ci", "utf8mb4", 4⟩] := by
    apply eq_of_mem_iff hascending (by decide)
    intro c
    rw [hkept, ← mem_ofList]
    rfl
  rw [hentries] at hvalue
  exact ⟨spells_repeatedNumber, catalog, hread, hmissing 63 (by decide), hvalue⟩

end DictionaryDdl.Collation.Catalog
