import DictionaryDdl.Collation.Basic
import Mathlib.Data.List.Induction
import Mathlib.Data.List.Perm.Basic

/-!
What a catalogue consists of and what it finds. The catalogue of some collations has the last one of
each number, and as its entries are in ascending order of numbers, no other catalogue has the same.
-/

namespace DictionaryDdl.Collation

variable {c x : Collation} {cs entries kept : List Collation} {id : UInt32}

/-- A collation of a list with no later one of its number. -/
def IsLast (entries : List Collation) (c : Collation) : Prop :=
  ∃ before after, entries = before ++ c :: after ∧ ∀ later ∈ after, later.id ≠ c.id

theorem isLast_append_singleton :
    IsLast (entries ++ [c]) x ↔ x = c ∨ (x.id ≠ c.id ∧ IsLast entries x) := by
  constructor
  · rintro ⟨before, after, hsplit, hlater⟩
    rcases List.eq_nil_or_concat after with rfl | ⟨between, last, rfl⟩
    · obtain ⟨-, hlast⟩ := List.append_inj' hsplit rfl
      exact .inl (List.cons.inj hlast).1.symm
    · rw [List.concat_eq_append, ← List.cons_append, ← List.append_assoc] at hsplit
      obtain ⟨hentries, hlast⟩ := List.append_inj' hsplit rfl
      obtain rfl := (List.cons.inj hlast).1
      rw [List.concat_eq_append, List.forall_mem_append] at hlater
      exact .inr ⟨(hlater.2 c List.mem_cons_self).symm, before, between, hentries, hlater.1⟩
  · rintro (rfl | ⟨hne, before, after, rfl, hlater⟩)
    · exact ⟨entries, [], rfl, List.forall_mem_nil _⟩
    · refine ⟨before, after ++ [c], by simp, List.forall_mem_append.mpr ⟨hlater, ?_⟩⟩
      intro later hmem
      rw [List.mem_singleton.mp hmem]
      exact hne.symm

theorem IsLast.mem (h : IsLast entries c) : c ∈ entries := by
  obtain ⟨before, after, rfl, -⟩ := h
  exact List.mem_append_right before List.mem_cons_self

/-- A list has a last collation of every number that it has. -/
theorem exists_isLast (h : c ∈ entries) : ∃ last, IsLast entries last ∧ last.id = c.id := by
  induction entries using List.reverseRecOn with
  | nil => cases h
  | append_singleton front d ih =>
      by_cases hid : c.id = d.id
      · exact ⟨d, isLast_append_singleton.mpr (.inl rfl), hid.symm⟩
      · have hfront : c ∈ front := by
          rcases List.mem_append.mp h with hfront | hlast
          · exact hfront
          · exact absurd (congrArg Collation.id (List.mem_singleton.mp hlast)) hid
        obtain ⟨last, hlast, hsame⟩ := ih hfront
        refine ⟨last, isLast_append_singleton.mpr (.inr ⟨?_, hlast⟩), hsame⟩
        rwa [hsame]

/-! ### Lists in ascending order -/

theorem nodup_of_ascending (h : cs.Pairwise (·.id < ·.id)) : cs.Nodup := by
  apply List.Pairwise.imp ?_ h
  intro first second hlt heq
  rw [heq] at hlt
  exact UInt32.lt_irrefl _ hlt

/-- Two lists in ascending order are the same if they have the same collations. -/
theorem eq_of_mem_iff (hcs : cs.Pairwise (·.id < ·.id)) (hkept : kept.Pairwise (·.id < ·.id))
    (h : ∀ c, c ∈ cs ↔ c ∈ kept) : cs = kept := by
  have hperm : cs.Perm kept :=
    (List.perm_ext_iff_of_nodup (nodup_of_ascending hcs) (nodup_of_ascending hkept)).mpr h
  exact hperm.eq_of_pairwise (fun _ _ _ _ hlt hgt => absurd hgt (UInt32.lt_asymm hlt)) hcs hkept

theorem isLast_iff_of_ascending (h : cs.Pairwise (·.id < ·.id)) : IsLast cs c ↔ c ∈ cs := by
  constructor
  · exact IsLast.mem
  · intro hmem
    obtain ⟨before, after, rfl⟩ := List.append_of_mem hmem
    have hafter := (List.pairwise_cons.mp (List.pairwise_append.mp h).2.1).1
    refine ⟨before, after, rfl, fun later hlater heq => ?_⟩
    have hlt := hafter later hlater
    rw [heq] at hlt
    exact UInt32.lt_irrefl _ hlt

theorem mem_insertInto_iff (h : cs.Pairwise (·.id < ·.id)) :
    x ∈ c.insertInto cs ↔ x = c ∨ (x.id ≠ c.id ∧ x ∈ cs) := by
  induction cs with
  | nil => simp [insertInto]
  | cons d more ih =>
      obtain ⟨hfirst, hmore⟩ := List.pairwise_cons.mp h
      rw [insertInto]
      split_ifs with hlt heq
      · have hapart : x ∈ d :: more → x.id ≠ c.id := by
          intro hmem hid
          rcases List.mem_cons.mp hmem with rfl | hmem
          · exact UInt32.lt_irrefl _ (hid ▸ hlt)
          · exact UInt32.lt_irrefl _ (hid ▸ UInt32.lt_trans hlt (hfirst x hmem))
        rw [List.mem_cons, and_iff_right_of_imp hapart]
      · have hapart : x ∈ more → x.id ≠ c.id := by
          intro hmem hid
          have hgreater := hfirst x hmem
          rw [← heq, hid] at hgreater
          exact UInt32.lt_irrefl _ hgreater
        rw [List.mem_cons, List.mem_cons]
        constructor
        · rintro (rfl | hmem)
          · exact .inl rfl
          · exact .inr ⟨hapart hmem, .inr hmem⟩
        · rintro (rfl | ⟨hne, rfl | hmem⟩)
          · exact .inl rfl
          · exact absurd heq.symm hne
          · exact .inr hmem
      · rw [List.mem_cons, List.mem_cons, ih hmore]
        constructor
        · rintro (rfl | rfl | ⟨hne, hmem⟩)
          · exact .inr ⟨Ne.symm heq, .inl rfl⟩
          · exact .inl rfl
          · exact .inr ⟨hne, .inr hmem⟩
        · rintro (rfl | ⟨hne, rfl | hmem⟩)
          · exact .inr (.inl rfl)
          · exact .inl rfl
          · exact .inr (.inr ⟨hne, hmem⟩)

namespace Catalog

variable {catalog other : Catalog}

theorem eq_of_entries (h : catalog.entries = other.entries) : catalog = other := by
  cases catalog
  cases other
  cases h
  rfl

theorem ofList_append_singleton (entries : List Collation) (c : Collation) :
    ofList (entries ++ [c]) = (ofList entries).insert c :=
  List.foldl_append

/-- The catalogue of some collations has the last one of each number. -/
theorem mem_ofList : x ∈ (ofList entries).entries ↔ IsLast entries x := by
  -- from the end, because a collation takes the place of the ones before it
  induction entries using List.reverseRecOn with
  | nil =>
      constructor
      · nofun
      · intro h
        exact absurd h.mem List.not_mem_nil
  | append_singleton front c ih =>
      rw [ofList_append_singleton, isLast_append_singleton, ← ih]
      exact mem_insertInto_iff (ofList front).ascending

/-- The entries of a catalogue in ascending order are the only ones that have the last collation of
each number. -/
theorem entries_ofList (hkept : kept.Pairwise (·.id < ·.id))
    (h : ∀ c, c ∈ kept ↔ IsLast entries c) : (ofList entries).entries = kept :=
  eq_of_mem_iff (ofList entries).ascending hkept fun c => mem_ofList.trans (h c).symm

/-- A catalogue is the one of its entries. -/
theorem ofList_entries (catalog : Catalog) : ofList catalog.entries = catalog := by
  apply eq_of_entries
  apply entries_ofList catalog.ascending
  intro c
  exact (isLast_iff_of_ascending catalog.ascending).symm

theorem mem_of_lookup? {catalog : Catalog} {id : UInt32} {c : Collation}
    (h : catalog.lookup? id = some c) : c ∈ catalog.entries ∧ c.id = id := by
  have hid := List.find?_some h
  exact ⟨List.mem_of_find?_eq_some h, by simpa using hid⟩

theorem lookup?_of_mem (h : c ∈ catalog.entries) : catalog.lookup? c.id = some c := by
  obtain ⟨before, after, hentries⟩ := List.append_of_mem h
  have hbefore : ∀ d ∈ before, (d.id == c.id) = false := by
    intro d hd
    have hascending := catalog.ascending
    rw [hentries, List.pairwise_append] at hascending
    have hlt := hascending.2.2 d hd c List.mem_cons_self
    rw [beq_eq_false_iff_ne]
    exact UInt32.ne_of_lt hlt
  rw [lookup?, hentries, List.find?_append, List.find?_eq_none.mpr (by simpa using hbefore)]
  simp

/-- What the catalogue of some collations finds for a number is the last one of that number. -/
theorem lookup?_ofList_of_isLast (h : IsLast entries c) :
    (ofList entries).lookup? c.id = some c :=
  lookup?_of_mem (mem_ofList.mpr h)

theorem lookup?_ofList_eq_none (h : ∀ c ∈ entries, c.id ≠ id) :
    (ofList entries).lookup? id = none := by
  rw [lookup?, List.find?_eq_none]
  intro c hmem hid
  exact h c (mem_ofList.mp hmem).mem (beq_iff_eq.mp hid)

end Catalog

end DictionaryDdl.Collation
