import DictionaryDdl.Proofs.Table.HiddenEntries
import Mathlib.Order.Bounds.Basic

/-!
What is reported of columns whose ordinal positions are not the numbers from one on. It is the
first number that is not taken exactly once, and so it does not depend on the order in which the
record lists the columns. A number that no column takes is reported as a gap, together with the
next position that is taken, and one that several columns take as a repetition.

Zero is no number of a column. The check does not tell a column at zero from one at a position
that was taken before, so it is reported as a repetition even where a single column has it.
-/

namespace DictionaryDdl

namespace Sdi

/-- The ordinal positions in a record, without those of the columns that the storage engine
adds. -/
def ordinals (entries : List Column) : List Nat :=
  (ownColumns entries).map (·.ordinalPosition.toNat)

/-- Columns whose collations are in the catalogue, where their types have one. -/
def CollationsKnown (catalog : Collation.Catalog) (entries : List Column) : Prop :=
  ∀ c ∈ ownColumns entries,
    (DataType.ofTypeText c.columnType).isString = true → catalog.Has c.collationId

theorem ordinals_perm {entries entries' : List Column} (h : entries'.Perm entries) :
    (ordinals entries').Perm (ordinals entries) :=
  (h.filter _).map _

theorem CollationsKnown.of_perm {catalog : Collation.Catalog} {entries entries' : List Column}
    (h : entries'.Perm entries) (hknown : CollationsKnown catalog entries) :
    CollationsKnown catalog entries' :=
  fun c hc => hknown c ((h.filter _).mem_iff.mp hc)

/-- Without columns of the string family there is nothing to look up. -/
theorem collationsKnown_of_no_string {catalog : Collation.Catalog} {entries : List Column}
    (h : ∀ c ∈ ownColumns entries, (DataType.ofTypeText c.columnType).isString = false) :
    CollationsKnown catalog entries := by
  intro c hc hstring
  rw [h c hc] at hstring
  cases hstring

end Sdi

namespace Ordinals

/-- How many columns have to be at a position. -/
def regularCount (position : Nat) : Nat :=
  if position = 0 then 0 else 1

/-- Positions that are as they have to be below a bound: zero is free, and every other number is
taken once. -/
def RegularBelow (ordinals : List Nat) (bound : Nat) : Prop :=
  ∀ position < bound, ordinals.count position = regularCount position

/-- The first position that is not as it has to be, and more columns than one are there, or a
single one if the position is zero. -/
structure FirstRepeated (ordinals : List Nat) (position : Nat) : Prop where
  below : RegularBelow ordinals position
  repeated : 2 ≤ ordinals.count position ∨ position = 0 ∧ ordinals.count 0 = 1

/-- The first position that is not as it has to be, and no column is there; `found` is the next
one with a column. -/
structure FirstGap (ordinals : List Nat) (expected found : Nat) : Prop where
  positive : 1 ≤ expected
  below : RegularBelow ordinals expected
  absent : expected ∉ ordinals
  next : IsLeast {position | position ∈ ordinals ∧ expected < position} found

/-- The report of the first position that is not as it has to be. -/
inductive FirstFault (ordinals : List Nat) : DecodeError → Prop
  | repeated {position : Nat} (h : FirstRepeated ordinals position) :
      FirstFault ordinals (.duplicateOrdinal position)
  | gap {expected found : Nat} (h : FirstGap ordinals expected found) :
      FirstFault ordinals (.ordinalGap expected found)

variable {ordinals ordinals' : List Nat} {position expected found : Nat}

theorem RegularBelow.unique {p q : Nat} (hp : RegularBelow ordinals p)
    (hp' : ordinals.count p ≠ regularCount p) (hq : RegularBelow ordinals q)
    (hq' : ordinals.count q ≠ regularCount q) : p = q := by
  rcases Nat.lt_trichotomy p q with hlt | heq | hlt
  · exact absurd (hq p hlt) hp'
  · exact heq
  · exact absurd (hp q hlt) hq'

theorem FirstRepeated.count_ne (h : FirstRepeated ordinals position) :
    ordinals.count position ≠ regularCount position := by
  unfold regularCount
  rcases h.repeated with htwice | ⟨rfl, honce⟩
  · split <;> omega
  · simp [honce]

theorem FirstGap.count_ne (h : FirstGap ordinals expected found) :
    ordinals.count expected ≠ regularCount expected := by
  have hpositive := h.positive
  have hzero : ordinals.count expected = 0 := List.count_eq_zero.mpr h.absent
  unfold regularCount
  rw [hzero, if_neg (by omega)]
  decide

theorem FirstRepeated.not_firstGap (h : FirstRepeated ordinals position) :
    ¬FirstGap ordinals expected found := by
  intro hgap
  obtain rfl : position = expected := h.below.unique h.count_ne hgap.below hgap.count_ne
  have hzero : ordinals.count position = 0 := List.count_eq_zero.mpr hgap.absent
  rcases h.repeated with htwice | ⟨rfl, honce⟩
  · omega
  · omega

theorem FirstFault.unique {e e' : DecodeError} (h : FirstFault ordinals e)
    (h' : FirstFault ordinals e') : e = e' := by
  cases h with
  | repeated h =>
      cases h' with
      | repeated h' => rw [h.below.unique h.count_ne h'.below h'.count_ne]
      | gap h' => exact absurd h' h.not_firstGap
  | gap h =>
      cases h' with
      | repeated h' => exact absurd h h'.not_firstGap
      | gap h' =>
          obtain rfl := h.below.unique h.count_ne h'.below h'.count_ne
          rw [h.next.unique h'.next]

theorem FirstRepeated.of_perm (hperm : ordinals.Perm ordinals')
    (h : FirstRepeated ordinals position) : FirstRepeated ordinals' position :=
  ⟨fun p hp => hperm.count_eq p ▸ h.below p hp,
    by rw [← hperm.count_eq, ← hperm.count_eq]; exact h.repeated⟩

theorem FirstGap.of_perm (hperm : ordinals.Perm ordinals')
    (h : FirstGap ordinals expected found) : FirstGap ordinals' expected found := by
  have hnext := h.next
  simp only [hperm.mem_iff] at hnext
  exact ⟨h.positive, fun p hp => hperm.count_eq p ▸ h.below p hp,
    fun hmem => h.absent (hperm.mem_iff.mpr hmem), hnext⟩

theorem FirstFault.of_perm {e : DecodeError} (hperm : ordinals.Perm ordinals')
    (h : FirstFault ordinals e) : FirstFault ordinals' e := by
  cases h with
  | repeated h => exact .repeated (h.of_perm hperm)
  | gap h => exact .gap (h.of_perm hperm)

/-! ### Positions that count up from one -/

theorem count_range' (n position : Nat) :
    (List.range' 1 n).count position = if 1 ≤ position ∧ position ≤ n then 1 else 0 := by
  rw [List.Nodup.count List.nodup_range']
  simp only [List.mem_range'_1, Nat.add_comm 1 n, Nat.lt_succ_iff]

theorem FirstRepeated.not_perm {n : Nat} (h : FirstRepeated ordinals position) :
    ¬ordinals.Perm (List.range' 1 n) := by
  intro hperm
  have hcount (p : Nat) : ordinals.count p = if 1 ≤ p ∧ p ≤ n then 1 else 0 := by
    rw [hperm.count_eq, count_range']
  rcases h.repeated with htwice | ⟨-, honce⟩
  · rw [hcount] at htwice
    split at htwice <;> omega
  · simp [hcount] at honce

theorem FirstGap.not_perm {n : Nat} (h : FirstGap ordinals expected found) :
    ¬ordinals.Perm (List.range' 1 n) := by
  intro hperm
  have hmem (p : Nat) : p ∈ ordinals ↔ 1 ≤ p ∧ p ≤ n := by
    rw [hperm.mem_iff, List.mem_range'_1]
    omega
  have hpositive := h.positive
  have habsent := h.absent
  obtain ⟨hfound, hlt⟩ := h.next.1
  rw [hmem] at habsent hfound
  omega

theorem FirstFault.not_perm {n : Nat} {e : DecodeError} (h : FirstFault ordinals e) :
    ¬ordinals.Perm (List.range' 1 n) := by
  cases h with
  | repeated h => exact h.not_perm
  | gap h => exact h.not_perm

/-! ### Positions in ascending order that count up to the one that is reported -/

section Ascending

variable {n : Nat} {more : List Nat}

theorem regularBelow_append {bound : Nat} {rest : List Nat} (hbound : bound ≤ n + 1)
    (hrest : ∀ p ∈ rest, bound ≤ p) : RegularBelow (List.range' 1 n ++ rest) bound := by
  intro p hp
  have habsent : p ∉ rest := fun hmem => absurd (hrest p hmem) (by omega)
  rw [List.count_append, count_range', List.count_eq_zero.mpr habsent]
  unfold regularCount
  split <;> split <;> omega

theorem firstRepeated_append
    (hascending : (List.range' 1 n ++ position :: more).Pairwise (· ≤ ·))
    (hlow : position ≤ n) : FirstRepeated (List.range' 1 n ++ position :: more) position := by
  obtain ⟨-, hrest, hfront⟩ := List.pairwise_append.mp hascending
  have hbehind : ∀ p ∈ position :: more, position ≤ p := by
    rw [List.forall_mem_cons]
    exact ⟨Nat.le_refl _, (List.pairwise_cons.mp hrest).1⟩
  refine ⟨regularBelow_append (by omega) hbehind, ?_⟩
  by_cases hn : n = 0
  · obtain rfl : position = 0 := by omega
    have htaken : 0 < (List.range' 1 n ++ 0 :: more).count 0 := List.count_pos_iff.mpr (by simp)
    omega
  · -- the last of the counted positions is the one that comes again
    have hlast : n ≤ position :=
      hfront n (List.mem_range'_1.mpr (by omega)) position List.mem_cons_self
    left
    rw [List.count_append, List.count_cons_self, count_range', if_pos (by omega)]
    omega

theorem firstGap_append
    (hascending : (List.range' 1 n ++ found :: more).Pairwise (· ≤ ·))
    (hhigh : n + 1 < found) : FirstGap (List.range' 1 n ++ found :: more) (n + 1) found := by
  obtain ⟨-, hrest, -⟩ := List.pairwise_append.mp hascending
  have hbehind : ∀ p ∈ found :: more, found ≤ p := by
    rw [List.forall_mem_cons]
    exact ⟨Nat.le_refl _, (List.pairwise_cons.mp hrest).1⟩
  have hmem {p : Nat} (hp : p ∈ List.range' 1 n ++ found :: more) : p ≤ n ∨ found ≤ p := by
    rcases List.mem_append.mp hp with hp | hp
    · rw [List.mem_range'_1] at hp
      omega
    · exact Or.inr (hbehind p hp)
  refine ⟨by omega, regularBelow_append (Nat.le_refl _) fun p hp => ?_, fun habsent => ?_,
    ⟨by simp, hhigh⟩, fun p hp => ?_⟩
  · have hle := hbehind p hp
    omega
  · have hcases := hmem habsent
    omega
  · have hcases := hmem hp.1
    have hlt := hp.2
    omega

end Ascending

end Ordinals

namespace Column

open Ordinals

/-- The check stops at the first column that is not where its predecessors lead to. -/
theorem exists_of_checkDense_eq_error {expected : Nat} {columns : List Column} {e : DecodeError}
    (h : checkDense expected columns = .error e) :
    ∃ before c after, columns = before ++ c :: after ∧
      before.map (·.ordinal.toNat) = List.range' expected before.length ∧
      (c.ordinal.toNat < expected + before.length ∧ e = .duplicateOrdinal c.ordinal.toNat ∨
        expected + before.length < c.ordinal.toNat ∧
          e = .ordinalGap (expected + before.length) c.ordinal.toNat) := by
  induction columns generalizing expected with
  | nil => cases h
  | cons c more ih =>
      unfold checkDense at h
      split at h
      · next hlt =>
          cases h
          exact ⟨[], c, more, rfl, rfl, Or.inl ⟨hlt, rfl⟩⟩
      · next hle =>
          split at h
          · next heq =>
              obtain ⟨before, d, after, rfl, hcount, hfault⟩ := ih h
              have hlength : expected + 1 + before.length = expected + (before.length + 1) := by
                omega
              rw [hlength] at hfault
              refine ⟨c :: before, d, after, rfl, ?_, hfault⟩
              rw [List.map_cons, heq, hcount, List.length_cons, List.range'_succ]
          · next hne =>
              cases h
              exact ⟨[], c, more, rfl, rfl, Or.inr ⟨by simp; omega, rfl⟩⟩

/-- A fault that is found in columns in ascending order is the first one. -/
theorem first_of_checkDense_eq_error {columns : List Column} {e : DecodeError}
    (hascending : (columns.map (·.ordinal.toNat)).Pairwise (· ≤ ·))
    (h : checkDense 1 columns = .error e) :
    FirstFault (columns.map (·.ordinal.toNat)) e := by
  obtain ⟨before, c, after, rfl, hcount, hfault⟩ := exists_of_checkDense_eq_error h
  rw [List.map_append, List.map_cons, hcount] at hascending ⊢
  rcases hfault with ⟨hlow, rfl⟩ | ⟨hhigh, rfl⟩
  · exact .repeated (firstRepeated_append hascending (by omega))
  · rw [Nat.add_comm 1]
    exact .gap (firstGap_append hascending (by omega))

theorem unknownCollation_of_ofSdi {catalog : Collation.Catalog} {c : Sdi.Column} {e : DecodeError}
    (h : ofSdi catalog c = .error e) : e = .unknownCollation c.collationId := by
  unfold ofSdi collationOf findCollation at h
  split at h
  · cases hfind : catalog.lookup? c.collationId with
    | some collation =>
        rw [hfind] at h
        cases h
    | none =>
        rw [hfind] at h
        cases h
        rfl
  · cases h

theorem succeeds_read_iff_known {catalog : Collation.Catalog} {entries : List Sdi.Column} :
    Succeeds ((Sdi.ownColumns entries).mapM (ofSdi catalog)) ↔
      Sdi.CollationsKnown catalog entries := by
  simp only [succeeds_mapM, succeeds_ofSdi]
  rfl

theorem listOfSdi_eq_bind (catalog : Collation.Catalog) (entries : List Sdi.Column) :
    listOfSdi catalog entries =
      (Sdi.ownColumns entries).mapM (ofSdi catalog) >>= fun read =>
        checkDense 1 (sorted read) >>= fun _ => pure (sorted read) :=
  rfl

/-- If the collations are known, the columns of a table are read or the first fault of their
positions is reported. -/
theorem listOfSdi_of_known {catalog : Collation.Catalog} {entries : List Sdi.Column}
    (hknown : Sdi.CollationsKnown catalog entries) :
    (∃ columns, listOfSdi catalog entries = .ok columns ∧
        (Sdi.ordinals entries).Perm (List.range' 1 (Sdi.ordinals entries).length)) ∨
      ∃ e, listOfSdi catalog entries = .error e ∧ FirstFault (Sdi.ordinals entries) e := by
  obtain ⟨read, hread⟩ := succeeds_read_iff_known.mpr hknown
  have hordinals : read.map (·.ordinal.toNat) = Sdi.ordinals entries :=
    map_of_mapM_eq_ok (fun _ _ hc => by rw [ordinal_of_ofSdi hc]) hread
  have hsorted : ((sorted read).map (·.ordinal.toNat)).Perm (Sdi.ordinals entries) :=
    hordinals ▸ (sorted_perm read).map _
  have hascending : ((sorted read).map (·.ordinal.toNat)).Pairwise (· ≤ ·) := by
    rw [List.pairwise_map]
    exact (sorted_pairwise read).imp fun hle => UInt32.le_iff_toNat_le.mp hle
  rw [listOfSdi_eq_bind, hread]
  cases hcheck : checkDense 1 (sorted read) with
  | ok =>
      refine Or.inl ⟨sorted read, bind_eq_ok.mpr ⟨read, rfl, by rw [hcheck]; rfl⟩, ?_⟩
      rw [← hordinals, List.length_map]
      exact checkDense_sorted.mp hcheck
  | error e =>
      have hfirst := first_of_checkDense_eq_error hascending hcheck
      exact Or.inr ⟨e, by simp [hcheck, bind, Except.bind], hfirst.of_perm hsorted⟩

/-- A collation that is not known is reported before the positions are looked at; any other report
is the one of the first fault of the positions. -/
theorem listOfSdi_eq_error_iff {catalog : Collation.Catalog} {entries : List Sdi.Column}
    {e : DecodeError} (he : ∀ id, e ≠ .unknownCollation id) :
    listOfSdi catalog entries = .error e ↔
      Sdi.CollationsKnown catalog entries ∧ FirstFault (Sdi.ordinals entries) e := by
  constructor
  · intro h
    have hknown : Sdi.CollationsKnown catalog entries := by
      rw [← succeeds_read_iff_known]
      cases hread : (Sdi.ownColumns entries).mapM (ofSdi catalog) with
      | ok read => exact succeeds_ok read
      | error e' =>
          obtain ⟨c, -, hc⟩ := exists_of_mapM_eq_error hread
          rw [listOfSdi_eq_bind, hread] at h
          cases h
          exact absurd (unknownCollation_of_ofSdi hc) (he c.collationId)
    refine ⟨hknown, ?_⟩
    rcases listOfSdi_of_known hknown with ⟨columns, hok, -⟩ | ⟨e', herror, hfirst⟩
    · rw [h] at hok
      cases hok
    · rw [h] at herror
      cases herror
      exact hfirst
  · rintro ⟨hknown, hfirst⟩
    rcases listOfSdi_of_known hknown with ⟨columns, -, hperm⟩ | ⟨e', herror, hfirst'⟩
    · exact absurd hperm hfirst.not_perm
    · rw [herror, hfirst.unique hfirst']

/-- The order in which a record lists its columns does not change what is read or reported, if
the collations are known. -/
theorem listOfSdi_of_perm {catalog : Collation.Catalog} {entries entries' : List Sdi.Column}
    (hperm : entries'.Perm entries) (hknown : Sdi.CollationsKnown catalog entries) :
    listOfSdi catalog entries' = listOfSdi catalog entries := by
  have hordinals := (Sdi.ordinals_perm hperm).symm
  rcases listOfSdi_of_known hknown with ⟨columns, hok, -⟩ | ⟨e, herror, hfirst⟩
  · rw [hok]
    exact (listOfSdi_eq_ok_of_perm hperm).mpr hok
  · rw [herror]
    have hother : ∀ id, e ≠ .unknownCollation id := by
      rintro id rfl
      cases hfirst
    exact (listOfSdi_eq_error_iff hother).mpr ⟨hknown.of_perm hperm, hfirst.of_perm hordinals⟩

/-- Which positions are reported, and that the order of the columns does not matter. A repetition
is reported of the first number that is not taken exactly once, if more columns than one take it,
and of zero even if a single column does; a gap is reported of the first such number, if no column
takes it, with the next position that is taken. -/
theorem listOfSdi_ordinal_faults (catalog : Collation.Catalog) (entries : List Sdi.Column) :
    (∀ p, listOfSdi catalog entries = .error (.duplicateOrdinal p) ↔
        Sdi.CollationsKnown catalog entries ∧ FirstRepeated (Sdi.ordinals entries) p) ∧
      (∀ expected found, listOfSdi catalog entries = .error (.ordinalGap expected found) ↔
        Sdi.CollationsKnown catalog entries ∧
          FirstGap (Sdi.ordinals entries) expected found) ∧
      ∀ entries', entries'.Perm entries → Sdi.CollationsKnown catalog entries →
        listOfSdi catalog entries' = listOfSdi catalog entries := by
  refine ⟨fun p => ?_, fun expected found => ?_, fun _ => listOfSdi_of_perm⟩
  · rw [listOfSdi_eq_error_iff (by simp)]
    exact and_congr_right fun _ => ⟨fun h => by cases h; assumption, .repeated⟩
  · rw [listOfSdi_eq_error_iff (by simp)]
    exact and_congr_right fun _ => ⟨fun h => by cases h; assumption, .gap⟩

/-- Columns at the second, the fourth and the first position, and one of the storage engine at
the third. -/
def columnsWithGap : List Sdi.Column :=
  [.plain "b" "int" 2 1, .plain "d" "int" 4 1, .plain "DB_ROW_ID" "" 3 2, .plain "a" "int" 1 1]

theorem listOfSdi_ordinal_faults_gap :
    columnsWithGap.reverse.Perm columnsWithGap ∧
      Sdi.CollationsKnown .empty columnsWithGap ∧
      FirstGap (Sdi.ordinals columnsWithGap) 3 4 ∧
      listOfSdi .empty columnsWithGap = .error (.ordinalGap 3 4) ∧
      listOfSdi .empty columnsWithGap.reverse = .error (.ordinalGap 3 4) := by
  have hreverse := List.reverse_perm columnsWithGap
  have hknown : Sdi.CollationsKnown .empty columnsWithGap :=
    Sdi.collationsKnown_of_no_string (by decide)
  have hordinals : Sdi.ordinals columnsWithGap = [2, 4, 1] := rfl
  have hfirst : FirstGap (Sdi.ordinals columnsWithGap) 3 4 := by
    rw [hordinals]
    refine ⟨by decide, ?_, by decide, ⟨by decide, fun p hp => ?_⟩⟩
    · unfold RegularBelow
      decide
    · exact hp.2
  obtain ⟨-, hgap, hperm⟩ := listOfSdi_ordinal_faults .empty columnsWithGap
  have hreported := (hgap 3 4).mpr ⟨hknown, hfirst⟩
  exact ⟨hreverse, hknown, hfirst, hreported, (hperm _ hreverse hknown).trans hreported⟩

/-- One column at position zero and one at the second position. -/
def columnsFromZero : List Sdi.Column :=
  [.plain "a" "int" 0 1, .plain "b" "int" 2 1]

/-- No position is taken twice, but a repetition is reported, and not that the first position is
free. -/
theorem listOfSdi_reports_single_zero :
    listOfSdi .empty columnsFromZero = .error (.duplicateOrdinal 0) ∧
      (Sdi.ordinals columnsFromZero).count 0 = 1 := by
  have hordinals : Sdi.ordinals columnsFromZero = [0, 2] := rfl
  have hknown : Sdi.CollationsKnown .empty columnsFromZero :=
    Sdi.collationsKnown_of_no_string (by decide)
  have hfirst : FirstRepeated (Sdi.ordinals columnsFromZero) 0 := by
    rw [hordinals]
    exact ⟨fun p hp => absurd hp (Nat.not_lt_zero p), Or.inr ⟨rfl, rfl⟩⟩
  exact ⟨(listOfSdi_eq_error_iff (by simp)).mpr ⟨hknown, .repeated hfirst⟩, rfl⟩

end Column

end DictionaryDdl
