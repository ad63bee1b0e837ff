import DictionaryDdl.Proofs.Table.Consistency
import Mathlib.Data.List.Forall2
import Mathlib.Order.Bounds.Basic

/-!
What the indexes of a table take over from the dictionary. The indexes follow the entries of the
record one by one, without those that are hidden or have no elements but hidden ones, and so do
the elements of each index. An element names the column that its position leads to, and the length
of a prefix is the least number of characters that the stored octets fit into, whatever the length
and the width of a character are.

The columns are those that were read from some record; nothing else is assumed of them.
-/

namespace DictionaryDdl

namespace Collation

theorem toNat_width (c : Collation) :
    (max c.maxBytesPerChar 1).toUInt64.toNat = max 1 c.maxBytesPerChar.toNat := by
  have hmax : max c.maxBytesPerChar 1 = if c.maxBytesPerChar ≤ 1 then 1 else c.maxBytesPerChar :=
    rfl
  rw [hmax, UInt32.toNat_toUInt64]
  split
  · next hle =>
      have hle' : c.maxBytesPerChar.toNat ≤ 1 := UInt32.le_iff_toNat_le.mp hle
      rw [Nat.max_eq_left hle']
      rfl
  · next hgt =>
      have hgt' : ¬c.maxBytesPerChar.toNat ≤ 1 := fun hle => hgt (UInt32.le_iff_toNat_le.mpr hle)
      omega

/-- The rounded-up quotient does not overflow, since a width of one leaves no remainder. -/
theorem toNat_bytesToChars (c : Collation) (bytes : UInt64) :
    (c.bytesToChars bytes).toNat =
      bytes.toNat / max 1 c.maxBytesPerChar.toNat +
        if bytes.toNat % max 1 c.maxBytesPerChar.toNat = 0 then 0 else 1 := by
  have hwidth := c.toNat_width
  unfold bytesToChars
  dsimp only
  generalize (max c.maxBytesPerChar 1).toUInt64 = width at hwidth
  have hremainder : bytes % width = 0 ↔ bytes.toNat % width.toNat = 0 := by
    rw [← UInt64.toNat_inj, UInt64.toNat_mod]
    rfl
  rw [← hwidth]
  split
  · next hzero => rw [if_pos (hremainder.mp hzero), UInt64.toNat_div, Nat.add_zero]
  · next hrest =>
      have hrest' := mt hremainder.mpr hrest
      have hwide : 2 ≤ width.toNat := by
        by_contra hnarrow
        have hone : width.toNat = 1 := by omega
        rw [hone] at hrest'
        omega
      have hbound : bytes.toNat / width.toNat ≤ bytes.toNat / 2 :=
        Nat.div_le_div_left hwide (by decide)
      have hbytes := bytes.toNat_lt
      rw [if_neg hrest', UInt64.toNat_add, UInt64.toNat_div]
      exact Nat.mod_eq_of_lt (by change _ + 1 < _; omega)

/-- A prefix of so many octets fits into so many characters of a collation, and not into fewer. -/
theorem isLeast_bytesToChars (c : Collation) (bytes : UInt64) :
    IsLeast {n : Nat | bytes.toNat ≤ n * max 1 c.maxBytesPerChar.toNat}
      (c.bytesToChars bytes).toNat := by
  rw [toNat_bytesToChars]
  have hwidth : 0 < max 1 c.maxBytesPerChar.toNat := by omega
  generalize max 1 c.maxBytesPerChar.toNat = width at hwidth
  have hparts := Nat.div_add_mod' bytes.toNat width
  have hrest := Nat.mod_lt bytes.toNat hwidth
  split
  · next hzero =>
      rw [Nat.add_zero]
      refine ⟨?_, fun n hn => ?_⟩
      · change bytes.toNat ≤ bytes.toNat / width * width
        omega
      · have hn' : bytes.toNat ≤ n * width := hn
        exact Nat.le_of_mul_le_mul_right (by omega) hwidth
  · next hpositive =>
      refine ⟨?_, fun n hn => ?_⟩
      · change bytes.toNat ≤ (bytes.toNat / width + 1) * width
        rw [Nat.succ_mul]
        omega
      · have hn' : bytes.toNat ≤ n * width := hn
        exact Nat.lt_of_mul_lt_mul_right (a := width) (by omega)

end Collation

/-- The prefix length of an element on a column: there is one if the column belongs to the string
family and the element does not take the whole column, and it is the least number of characters
that hold the stored octets. -/
structure Column.PrefixOf (c : Column) (length : UInt64) (prefixChars : Option UInt64) : Prop where
  isSome_iff : prefixChars.isSome = true ↔ c.baseType.isString = true ∧ length ≠ 4294967295
  least : ∀ n, prefixChars = some n → ∃ collation, c.collation = some collation ∧
    IsLeast {k : Nat | length.toNat ≤ k * max 1 collation.maxBytesPerChar.toNat} n.toNat

/-- An element that says by the name of a column what its dictionary entry says by a position. -/
structure IndexElement.Follows (columns : List Column) (entry : Sdi.IndexElement)
    (e : IndexElement) : Prop where
  column : ∃ c ∈ columns, c.ordinal.toNat = entry.columnPosition.toNat + 1 ∧
    (∀ d ∈ columns, d.ordinal = c.ordinal → d = c) ∧
    e.columnName = c.name ∧ e.columnOrdinal = c.ordinal ∧ c.PrefixOf entry.length e.prefixChars
  lengthBytes : e.lengthBytes = entry.length

/-- An index with the name of its dictionary entry, the kind of its code and the elements that are
not hidden, in their order. -/
structure Index.Follows (columns : List Column) (entry : Sdi.Index) (index : Index) : Prop where
  name : index.name = entry.name
  kind : IndexKind.ofCode? entry.kindCode = some index.kind
  elements : List.Forall₂ (IndexElement.Follows columns) (entry.elements.filter (!·.hidden))
    index.elements

namespace Column

variable {catalog : Collation.Catalog} {entries : List Sdi.Column} {columns : List Column}

theorem eq_of_ordinal_eq (h : listOfSdi catalog entries = .ok columns) {c d : Column}
    (hc : c ∈ columns) (hd : d ∈ columns) (hordinal : d.ordinal = c.ordinal) : d = c := by
  have hcount := (listOfSdi_eq_ok_iff_perm.mp h).1
  have hdistinct : (columns.map (·.ordinal.toNat)).Nodup := hcount ▸ List.nodup_range'
  exact List.inj_on_of_nodup_map hdistinct hd hc (congrArg UInt32.toNat hordinal)

theorem resolved_of_listOfSdi (h : listOfSdi catalog entries = .ok columns) {c : Column}
    (hc : c ∈ columns) : c.Resolved catalog := by
  obtain ⟨-, read, hread, hperm⟩ := listOfSdi_eq_ok_iff_perm.mp h
  obtain ⟨entry, -, hentry⟩ := exists_of_mem_mapM hread (hperm.mem_iff.mp hc)
  exact resolved_of_ofSdi hentry

end Column

namespace Index

theorem prefixOf_prefixCharsOf {catalog : Collation.Catalog} {c : Column}
    (h : c.Resolved catalog) (length : UInt64) : c.PrefixOf length (prefixCharsOf c length) := by
  have hpresent := h.present
  unfold prefixCharsOf
  cases hcollation : c.collation with
  | none =>
      rw [hcollation] at hpresent
      exact ⟨by simp [← hpresent], nofun⟩
  | some collation =>
      rw [hcollation] at hpresent
      dsimp only
      split
      · next hfull => exact ⟨by simp [hfull, Sdi.fullColumn], nofun⟩
      · next hpart =>
          refine ⟨by simpa [← hpresent, Sdi.fullColumn] using hpart, fun n hn => ?_⟩
          cases hn
          exact ⟨collation, hcollation, collation.isLeast_bytesToChars length⟩

variable {catalog : Collation.Catalog} {entries : List Sdi.Column} {columns : List Column}

theorem follows_of_elementOfSdi (hcolumns : Column.listOfSdi catalog entries = .ok columns)
    {name : String} {entry : Sdi.IndexElement} {e : IndexElement}
    (h : elementOfSdi columns name entry = .ok e) : e.Follows columns entry := by
  obtain ⟨c, hat, he⟩ := bind_eq_ok.mp h
  cases he
  obtain ⟨hc, hordinal⟩ := Column.ordinal_of_columnAt hcolumns hat
  have honly : ∀ d ∈ columns, d.ordinal = c.ordinal → d = c :=
    fun d hd => Column.eq_of_ordinal_eq hcolumns hc hd
  have hprefix := prefixOf_prefixCharsOf (Column.resolved_of_listOfSdi hcolumns hc) entry.length
  exact ⟨⟨c, hc, hordinal, honly, rfl, rfl, hprefix⟩, rfl⟩

theorem follows_of_ofSdi (hcolumns : Column.listOfSdi catalog entries = .ok columns)
    {entry : Sdi.Index} {index : Index} (h : ofSdi columns entry = .ok index) :
    index.Follows columns entry := by
  obtain ⟨kind, hkind, h⟩ := bind_eq_ok.mp h
  obtain ⟨elements, helements, h⟩ := bind_eq_ok.mp h
  cases h
  exact ⟨rfl, known_eq_ok.mp hkind,
    (mapM_eq_ok.mp helements).imp fun _ _ he => follows_of_elementOfSdi hcolumns he⟩

/-- The indexes of a table follow, in the order of the dictionary, the entries that are not hidden
and have an element that is not hidden. -/
theorem listOfSdi_follows (hcolumns : Column.listOfSdi catalog entries = .ok columns)
    {indexEntries : List Sdi.Index} {indexes : List Index}
    (h : listOfSdi columns indexEntries = .ok indexes) :
    List.Forall₂ (Follows columns)
      (indexEntries.filter fun entry => !entry.hidden && entry.elements.any (!·.hidden))
      indexes := by
  obtain ⟨visible, hvisible, h⟩ := bind_eq_ok.mp h
  cases h
  have hfollow : List.Forall₂ (Follows columns) (indexEntries.filter (!·.hidden)) visible :=
    (mapM_eq_ok.mp hvisible).imp fun _ _ hindex => follows_of_ofSdi hcolumns hindex
  have hkept (entry : Sdi.Index) (index : Index) (hindex : Follows columns entry index) :
      entry.elements.any (!·.hidden) = true ↔ (!index.elements.isEmpty) = true := by
    have hempty : index.elements = [] ↔ entry.elements.filter (!·.hidden) = [] := by
      rw [← List.length_eq_zero_iff, ← hindex.elements.length_eq, List.length_eq_zero_iff]
    simp [hempty]
  have hboth := List.rel_filter (fun _ _ hindex => hkept _ _ hindex) hfollow
  rw [List.filter_filter] at hboth
  simpa only [Bool.and_comm] using hboth

/-- Indexes of the table `Sdi.Table.orderLines`: one with a prefix whose octets do not fill its
characters, one that takes a whole column, and two that are passed over although a code and a
position in them are unknown. -/
def lineEntries : List Sdi.Index :=
  [⟨"by_note", 3, false, [⟨1, 10, false⟩, ⟨9, 4, true⟩, ⟨0, 4, false⟩]⟩, ⟨"spare", 9, true, []⟩,
    ⟨"unseen", 3, false, [⟨9, 4, true⟩]⟩, ⟨"whole", 2, false, [⟨1, 4294967295, false⟩]⟩]

/-- What `lineEntries` are read as. -/
def lineIndexes : List Index :=
  [⟨"by_note", .multiple, [⟨2, "note", 10, some 3⟩, ⟨1, "id", 4, none⟩]⟩,
    ⟨"whole", .unique, [⟨2, "note", 4294967295, none⟩]⟩]

theorem listOfSdi_follows_orderLines :
    Column.listOfSdi (.ofList [.general]) Sdi.Table.orderLines.columns =
        .ok TableDefinition.orderLines.columns ∧
      listOfSdi TableDefinition.orderLines.columns lineEntries = .ok lineIndexes ∧
      List.Forall₂ (Follows TableDefinition.orderLines.columns)
        (lineEntries.filter fun entry => !entry.hidden && entry.elements.any (!·.hidden))
        lineIndexes :=
  ⟨TableDefinition.columns_orderLines, rfl,
    listOfSdi_follows TableDefinition.columns_orderLines rfl⟩

end Index

end DictionaryDdl
