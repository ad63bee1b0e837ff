import DictionaryDdl.Proofs.Table.Success
import DictionaryDdl.Table.Column
import Mathlib.Data.List.Nodup
import Mathlib.Data.List.Sort

/-!
When the columns of a table can be read. Each column of the string family needs its collation,
and the ordinal positions have to be the numbers from one on, each of them once and in any order.
The columns that the storage engine adds count for neither.
-/

namespace DictionaryDdl

/-- A catalogue that has a collation of a number. -/
def Collation.Catalog.Has (catalog : Collation.Catalog) (id : UInt32) : Prop :=
  ∃ collation ∈ catalog.entries, collation.id = id

namespace Column

theorem findCollation_eq_ok {catalog : Collation.Catalog} {id : UInt32} {c : Collation} :
    findCollation catalog id = .ok c ↔ catalog.lookup? id = some c := by
  unfold findCollation
  cases catalog.lookup? id <;> simp

theorem succeeds_findCollation {catalog : Collation.Catalog} {id : UInt32} :
    Succeeds (findCollation catalog id) ↔ catalog.Has id := by
  have hfind : (∃ c, catalog.lookup? id = some c) ↔ catalog.Has id := by
    rw [← Option.isSome_iff_exists]
    simp [Collation.Catalog.lookup?, Collation.Catalog.Has]
  simp only [Succeeds, findCollation_eq_ok, hfind]

theorem succeeds_ofSdi {catalog : Collation.Catalog} {c : Sdi.Column} :
    Succeeds (ofSdi catalog c) ↔
      ((DataType.ofTypeText c.columnType).isString = true → catalog.Has c.collationId) := by
  unfold ofSdi
  rw [succeeds_bind_pure]
  unfold collationOf
  split
  · next hstring =>
      rw [succeeds_map, succeeds_findCollation]
      exact ⟨fun h _ => h, fun h => h hstring⟩
  · next hother => simp [hother]

theorem ordinal_of_ofSdi {catalog : Collation.Catalog} {c : Sdi.Column} {column : Column}
    (h : ofSdi catalog c = .ok column) : column.ordinal = c.ordinalPosition := by
  obtain ⟨_, _, hcolumn⟩ := bind_eq_ok.mp h
  cases hcolumn
  rfl

theorem checkDense_eq_ok {expected : Nat} {columns : List Column} :
    checkDense expected columns = .ok () ↔
      columns.map (·.ordinal.toNat) = List.range' expected columns.length := by
  induction columns generalizing expected with
  | nil => simp [checkDense]
  | cons c more ih =>
      simp only [checkDense, List.map_cons, List.length_cons, List.range'_succ, List.cons.injEq]
      split
      · next hlt =>
          have hne : c.ordinal.toNat ≠ expected := by omega
          simp [hne]
      · split
        · next heq => simp [heq, ih]
        · next hne => simp [hne]

theorem sorted_perm (columns : List Column) : (sorted columns).Perm columns :=
  List.mergeSort_perm columns _

theorem sorted_pairwise (columns : List Column) :
    (sorted columns).Pairwise (·.ordinal ≤ ·.ordinal) := by
  have htrans (a b c : Column) (hab : decide (a.ordinal ≤ b.ordinal) = true)
      (hbc : decide (b.ordinal ≤ c.ordinal) = true) : decide (a.ordinal ≤ c.ordinal) = true := by
    simp only [decide_eq_true_eq] at hab hbc ⊢
    exact UInt32.le_trans hab hbc
  have htotal (a b : Column) :
      (decide (a.ordinal ≤ b.ordinal) || decide (b.ordinal ≤ a.ordinal)) = true := by
    simpa using UInt32.le_total a.ordinal b.ordinal
  simpa [sorted] using List.pairwise_mergeSort htrans htotal columns

/-- Sorted columns count up from one exactly if the positions, in whatever order, are the numbers
from one on. -/
theorem checkDense_sorted {columns : List Column} :
    checkDense 1 (sorted columns) = .ok () ↔
      (columns.map (·.ordinal.toNat)).Perm (List.range' 1 columns.length) := by
  have hperm : ((sorted columns).map (·.ordinal.toNat)).Perm
      (columns.map (·.ordinal.toNat)) := (sorted_perm columns).map _
  rw [checkDense_eq_ok, (sorted_perm columns).length_eq]
  constructor
  · intro h
    exact h ▸ hperm.symm
  · intro h
    have hascending : ((sorted columns).map (·.ordinal.toNat)).Pairwise (· ≤ ·) := by
      rw [List.pairwise_map]
      exact (sorted_pairwise columns).imp fun hle => UInt32.le_iff_toNat_le.mp hle
    have hrange : (List.range' 1 columns.length).Pairwise (· ≤ ·) :=
      (List.pairwise_lt_range' 1).imp fun hlt => Nat.le_of_lt hlt
    exact (hperm.trans h).eq_of_pairwise (fun _ _ _ _ hab hba => Nat.le_antisymm hab hba)
      hascending hrange

end Column

/-- The columns of a dictionary record without those that the storage engine adds. -/
def Sdi.ownColumns (columns : List Sdi.Column) : List Sdi.Column :=
  columns.filter (·.hidden != Sdi.hiddenByEngine)

namespace Column

theorem listOfSdi_eq_ok {catalog : Collation.Catalog} {entries : List Sdi.Column}
    {columns : List Column} :
    listOfSdi catalog entries = .ok columns ↔
      ∃ read, (Sdi.ownColumns entries).mapM (ofSdi catalog) = .ok read ∧
        checkDense 1 (sorted read) = .ok () ∧ columns = sorted read := by
  unfold listOfSdi
  rw [bind_eq_ok]
  constructor
  · rintro ⟨read, hread, hrest⟩
    obtain ⟨⟨⟩, hdense, hcolumns⟩ := bind_eq_ok.mp hrest
    cases hcolumns
    exact ⟨read, hread, hdense, rfl⟩
  · rintro ⟨read, hread, hdense, rfl⟩
    exact ⟨read, hread, bind_eq_ok.mpr ⟨(), hdense, rfl⟩⟩

/-- Sorting leads to the only order in which the positions count up, whatever order the columns
come in. -/
theorem sorted_eq_of_perm {read columns : List Column} (hperm : columns.Perm read)
    (hcount : columns.map (·.ordinal.toNat) = List.range' 1 columns.length) :
    sorted read = columns := by
  have hdistinct : (columns.map (·.ordinal.toNat)).Nodup := hcount ▸ List.nodup_range'
  have hascending : (columns.map (·.ordinal.toNat)).Pairwise (· ≤ ·) := by
    rw [hcount]
    exact (List.pairwise_lt_range' 1).imp fun hlt => Nat.le_of_lt hlt
  have hcolumns : columns.Pairwise (·.ordinal.toNat ≤ ·.ordinal.toNat) :=
    List.pairwise_map.mp hascending
  have hsorted : (sorted read).Pairwise (·.ordinal.toNat ≤ ·.ordinal.toNat) :=
    (sorted_pairwise read).imp fun hle => UInt32.le_iff_toNat_le.mp hle
  have hsame : (sorted read).Perm columns := (sorted_perm read).trans hperm.symm
  refine hsame.eq_of_pairwise (fun a b ha hb hab hba => ?_) hsorted hcolumns
  exact List.inj_on_of_nodup_map hdistinct (hsame.mem_iff.mp ha) hb (Nat.le_antisymm hab hba)

/-- The columns of a table are its own columns in the document, each read by itself and put where
the positions count up from one. -/
theorem listOfSdi_eq_ok_iff_perm {catalog : Collation.Catalog} {entries : List Sdi.Column}
    {columns : List Column} :
    listOfSdi catalog entries = .ok columns ↔
      columns.map (·.ordinal.toNat) = List.range' 1 columns.length ∧
        ∃ read, (Sdi.ownColumns entries).mapM (ofSdi catalog) = .ok read ∧ columns.Perm read := by
  rw [listOfSdi_eq_ok]
  constructor
  · rintro ⟨read, hread, hdense, rfl⟩
    exact ⟨checkDense_eq_ok.mp hdense, read, hread, sorted_perm read⟩
  · rintro ⟨hcount, read, hread, hperm⟩
    have hsorted : sorted read = columns := sorted_eq_of_perm hperm hcount
    exact ⟨read, hread, by rw [hsorted, checkDense_eq_ok, hcount], hsorted.symm⟩

theorem length_of_listOfSdi {catalog : Collation.Catalog} {entries : List Sdi.Column}
    {columns : List Column} (h : listOfSdi catalog entries = .ok columns) :
    columns.length = (Sdi.ownColumns entries).length := by
  obtain ⟨read, hread, -, rfl⟩ := listOfSdi_eq_ok.mp h
  rw [(sorted_perm read).length_eq, (mapM_eq_ok.mp hread).length_eq]

/-- The columns of a table can be read if the collations are known and the positions are the
numbers from one on. -/
theorem succeeds_listOfSdi {catalog : Collation.Catalog} {entries : List Sdi.Column} :
    Succeeds (listOfSdi catalog entries) ↔
      (∀ c ∈ Sdi.ownColumns entries,
        (DataType.ofTypeText c.columnType).isString = true → catalog.Has c.collationId) ∧
      ((Sdi.ownColumns entries).map (·.ordinalPosition.toNat)).Perm
        (List.range' 1 (Sdi.ownColumns entries).length) := by
  have hpositions {read : List Column}
      (hread : (Sdi.ownColumns entries).mapM (ofSdi catalog) = .ok read) :
      checkDense 1 (sorted read) = .ok () ↔
        ((Sdi.ownColumns entries).map (·.ordinalPosition.toNat)).Perm
          (List.range' 1 (Sdi.ownColumns entries).length) := by
    have hordinals : read.map (·.ordinal.toNat) =
        (Sdi.ownColumns entries).map (·.ordinalPosition.toNat) :=
      map_of_mapM_eq_ok (fun _ _ hc => by rw [ordinal_of_ofSdi hc]) hread
    rw [checkDense_sorted, hordinals, (mapM_eq_ok.mp hread).length_eq]
  have hcollations : Succeeds ((Sdi.ownColumns entries).mapM (ofSdi catalog)) ↔
      ∀ c ∈ Sdi.ownColumns entries,
        (DataType.ofTypeText c.columnType).isString = true → catalog.Has c.collationId := by
    simp only [succeeds_mapM, succeeds_ofSdi]
  rw [← hcollations]
  constructor
  · rintro ⟨columns, hcolumns⟩
    obtain ⟨read, hread, hdense, -⟩ := listOfSdi_eq_ok.mp hcolumns
    exact ⟨⟨read, hread⟩, (hpositions hread).mp hdense⟩
  · rintro ⟨⟨read, hread⟩, hperm⟩
    exact ⟨sorted read, listOfSdi_eq_ok.mpr ⟨read, hread, (hpositions hread).mpr hperm, rfl⟩⟩

end Column

end DictionaryDdl
