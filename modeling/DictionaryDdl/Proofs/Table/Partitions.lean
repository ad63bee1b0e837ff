import DictionaryDdl.Proofs.Table.Codes
import DictionaryDdl.Table.Partitioning

/-!
When the partitions of a table can be read, and what is read then. The document may nest
partitions to any depth, but a partition is read only if its subpartitions have none of their
own, and it is read as it stands.
-/

namespace DictionaryDdl

/-- A partition whose subpartitions have no subpartitions. -/
def Sdi.Partition.IsFlat (p : Sdi.Partition) : Prop :=
  ∀ s ∈ p.subpartitions, s.subpartitions = []

/-- The definition of a dictionary entry, without what the entry contains. -/
def PartitionSpec.ofEntry (p : Sdi.Partition) : PartitionSpec where
  name := p.name
  values := p.description
  engine := p.engine
  comment := p.comment

namespace Partition

/-- The definition of a dictionary entry and of its subpartitions. -/
def ofEntry (p : Sdi.Partition) : Partition :=
  { PartitionSpec.ofEntry p with
    subpartitions := p.subpartitions.map PartitionSpec.ofEntry }

theorem withSubpartitions_eq_ok {spec : PartitionSpec} {inner : List Partition}
    {p : Partition} :
    withSubpartitions spec inner = .ok p ↔
      (∀ q ∈ inner, q.subpartitions = []) ∧
        p = { spec with subpartitions := inner.map (·.toPartitionSpec) } := by
  unfold withSubpartitions
  split
  · next nested hnested =>
      simp only [reduceCtorEq, false_iff, not_and]
      intro hall
      exact absurd (by simpa using hall) (not_forall_of_find?_eq_some hnested)
  · next hnone =>
      have hall : ∀ q ∈ inner, q.subpartitions = [] := by
        simpa using hnone
      simp only [Except.ok.injEq, eq_comm (a := p)]
      exact ⟨fun h => ⟨hall, h⟩, fun h => h.2⟩

theorem listOfSdi_eq_mapM (entries : List Sdi.Partition) :
    listOfSdi entries = entries.mapM ofSdi := by
  induction entries with
  | nil => rfl
  | cons p more ih => rw [listOfSdi, List.mapM_cons, ih]

theorem ofSdi_eq_bind (p : Sdi.Partition) :
    ofSdi p = p.subpartitions.mapM ofSdi >>= withSubpartitions (PartitionSpec.ofEntry p) := by
  cases p
  rw [ofSdi, listOfSdi_eq_mapM]
  rfl

/-- A partition is read if it is flat, and as it stands. A subpartition with subpartitions of its
own may be read by itself, but it is refused where it stands. -/
theorem ofSdi_eq_ok (p : Sdi.Partition) (q : Partition) :
    ofSdi p = .ok q ↔ p.IsFlat ∧ q = ofEntry p := by
  rw [ofSdi_eq_bind, bind_eq_ok]
  constructor
  · rintro ⟨inner, hinner, hq⟩
    obtain ⟨hleaves, rfl⟩ := withSubpartitions_eq_ok.mp hq
    have hread : ∀ s r, ofSdi s = .ok r →
        r.toPartitionSpec = PartitionSpec.ofEntry s ∧
          r.subpartitions.length = s.subpartitions.length := by
      intro s r hr
      rw [ofSdi_eq_bind, bind_eq_ok] at hr
      obtain ⟨deeper, hdeeper, hr⟩ := hr
      obtain ⟨-, rfl⟩ := withSubpartitions_eq_ok.mp hr
      exact ⟨rfl, by simpa using (mapM_eq_ok.mp hdeeper).length_eq.symm⟩
    have hspecs : inner.map (·.toPartitionSpec) = p.subpartitions.map PartitionSpec.ofEntry :=
      map_of_mapM_eq_ok (fun s r hr => (hread s r hr).1) hinner
    have hlengths : inner.map (·.subpartitions.length) =
        p.subpartitions.map (·.subpartitions.length) :=
      map_of_mapM_eq_ok (fun s r hr => (hread s r hr).2) hinner
    refine ⟨fun s hs => ?_, by rw [hspecs]; rfl⟩
    have hlength : s.subpartitions.length ∈ inner.map (·.subpartitions.length) :=
      hlengths ▸ List.mem_map_of_mem hs
    obtain ⟨r, hr, hsame⟩ := List.mem_map.mp hlength
    rw [hleaves r hr] at hsame
    exact List.length_eq_zero_iff.mp hsame.symm
  · rintro ⟨hflat, rfl⟩
    refine ⟨p.subpartitions.map ofEntry, ?_, ?_⟩
    · rw [mapM_eq_ok, List.forall₂_map_right_iff, List.forall₂_same]
      intro s hs
      rw [ofSdi_eq_bind]
      simp [hflat s hs, withSubpartitions, ofEntry, pure, Except.pure, bind, Except.bind]
    · rw [withSubpartitions_eq_ok]
      constructor
      · intro q hq
        obtain ⟨s, hs, rfl⟩ := List.mem_map.mp hq
        simp [ofEntry, hflat s hs]
      · simp [ofEntry, Function.comp_def]

theorem listOfSdi_eq_ok {entries : List Sdi.Partition} {ps : List Partition} :
    listOfSdi entries = .ok ps ↔ (∀ p ∈ entries, p.IsFlat) ∧ ps = entries.map ofEntry := by
  rw [listOfSdi_eq_mapM, mapM_eq_ok_map ofSdi_eq_ok]

end Partition

/-- What the partitions of a divided table have to be like. With a method for subpartitions every
partition may have as many as it likes where they are listed, and all have the same number where
only their number is written. -/
structure Sdi.Table.Divided (table : Sdi.Table) : Prop where
  nonempty : table.partitions ≠ []
  flat : ∀ p ∈ table.partitions, p.IsFlat
  undivided : table.subpartitionType = 0 → ∀ p ∈ table.partitions, p.subpartitions = []
  counted : table.subpartitionType ≠ 0 → table.defaultSubpartitioning ≠ 1 →
    ∃ count, 0 < count ∧ ∀ p ∈ table.partitions, p.subpartitions.length = count

namespace Partitioning

theorem checkUndivided_eq_ok {ps : List Partition} :
    checkUndivided ps = .ok () ↔ ∀ p ∈ ps, p.subpartitions = [] := by
  unfold checkUndivided
  split
  · next p hp =>
      simp only [reduceCtorEq, false_iff]
      intro hall
      exact absurd (by simpa using hall) (not_forall_of_find?_eq_some hp)
  · next hnone => simpa using hnone

theorem checkCounts_eq_ok {ps : List Partition} (hps : ps ≠ []) :
    checkCounts ps = .ok () ↔
      ∃ count, 0 < count ∧ ∀ p ∈ ps, p.subpartitions.length = count := by
  obtain ⟨first, more, rfl⟩ := List.exists_cons_of_ne_nil hps
  generalize hexpected : firstCount (first :: more) = expected
  have hcount : (∃ count, 0 < count ∧ ∀ p ∈ first :: more, p.subpartitions.length = count) ↔
      0 < expected ∧ ∀ p ∈ first :: more, p.subpartitions.length = expected := by
    constructor
    · rintro ⟨count, hpositive, hall⟩
      have hfirst : expected = count := hexpected.symm.trans (hall first (by simp))
      exact hfirst ▸ ⟨hpositive, hall⟩
    · rintro ⟨hpositive, hall⟩
      exact ⟨_, hpositive, hall⟩
  rw [hcount]
  unfold checkCounts
  simp only [hexpected]
  split
  · next hzero => simp [hzero]
  · next hpositive =>
      split
      · next p hp =>
          simp only [reduceCtorEq, false_iff, not_and]
          intro _ hall
          exact absurd (by simpa using hall) (not_forall_of_find?_eq_some hp)
      · next hnone =>
          have hall : ∀ p ∈ first :: more, p.subpartitions.length = expected := by
            simpa using hnone
          simp only [true_iff]
          exact ⟨by omega, hall⟩

/-- The partitioning of a divided table, as it is read. -/
def ofEntries (table : Sdi.Table) (method : PartitionMethod)
    (subMethod : Option PartitionMethod) : Partitioning where
  method := some method
  expression := table.partitionExpression
  explicitPartitions := table.defaultPartitioning == explicitFlag
  subMethod := subMethod
  subExpression := table.subpartitionExpression
  explicitSubpartitions := table.defaultSubpartitioning == explicitFlag
  partitions := table.partitions.map Partition.ofEntry

theorem checkSubpartitions_eq_ok {table : Sdi.Table} {subMethod : Option PartitionMethod}
    (hsub : PartitionMethod.ofSubCode? table.subpartitionType = some subMethod)
    (hnonempty : table.partitions ≠ []) :
    checkSubpartitions subMethod (table.defaultSubpartitioning == explicitFlag)
        (table.partitions.map Partition.ofEntry) = .ok () ↔
      (table.subpartitionType = 0 → ∀ p ∈ table.partitions, p.subpartitions = []) ∧
      (table.subpartitionType ≠ 0 → table.defaultSubpartitioning ≠ 1 →
        ∃ count, 0 < count ∧ ∀ p ∈ table.partitions, p.subpartitions.length = count) := by
  unfold checkSubpartitions
  cases subMethod with
  | none =>
      have hcode : table.subpartitionType = 0 := PartitionMethod.ofSubCode?_eq_none.mp hsub
      simp [checkUndivided_eq_ok, Partition.ofEntry, hcode]
  | some method =>
      have hcode : table.subpartitionType ≠ 0 := by
        intro hzero
        rw [PartitionMethod.ofSubCode?_eq_none.mpr hzero] at hsub
        cases hsub
      by_cases hlisted : table.defaultSubpartitioning = 1
      · simp [hcode, hlisted, explicitFlag]
      · simp [hcode, hlisted, explicitFlag, checkCounts_eq_ok, hnonempty, Partition.ofEntry]

theorem byMethod_eq_ok {table : Sdi.Table} {method : PartitionMethod}
    {subMethod : Option PartitionMethod} {p : Partitioning}
    (hsub : PartitionMethod.ofSubCode? table.subpartitionType = some subMethod) :
    byMethod table method subMethod = .ok p ↔
      table.Divided ∧ p = ofEntries table method subMethod := by
  unfold byMethod
  split
  · next hempty =>
      have hnil : table.partitions = [] := by simpa using hempty
      simp only [reduceCtorEq, false_iff, not_and]
      intro hdivided
      exact absurd hnil hdivided.nonempty
  · next hsome =>
      have hnonempty : table.partitions ≠ [] := by simpa using hsome
      simp only [bind_eq_ok, Partition.listOfSdi_eq_ok]
      constructor
      · rintro ⟨ps, ⟨hflat, rfl⟩, ⟨⟩, hcheck, hp⟩
        obtain ⟨hundivided, hcounted⟩ :=
          (checkSubpartitions_eq_ok hsub hnonempty).mp hcheck
        cases hp
        exact ⟨⟨hnonempty, hflat, hundivided, hcounted⟩, rfl⟩
      · rintro ⟨hdivided, rfl⟩
        exact ⟨_, ⟨hdivided.flat, rfl⟩, (),
          (checkSubpartitions_eq_ok hsub hnonempty).mpr
            ⟨hdivided.undivided, hdivided.counted⟩, rfl⟩

/-- The partitioning of a table as it is read. Without a method there is nothing to read, and
whatever partitions the document has are passed over. -/
theorem ofSdi_eq_ok {table : Sdi.Table} {p : Partitioning} :
    ofSdi table = .ok p ↔
      ∃ method subMethod, PartitionMethod.ofCode? table.partitionType = some method ∧
        PartitionMethod.ofSubCode? table.subpartitionType = some subMethod ∧
        match method with
        | none => subMethod = none ∧ p = {}
        | some method => table.Divided ∧ p = ofEntries table method subMethod := by
  unfold ofSdi PartitionMethod.ofCode PartitionMethod.ofSubCode
  simp only [bind_eq_ok, known_eq_ok]
  constructor
  · rintro ⟨method, hmethod, subMethod, hsub, hp⟩
    refine ⟨method, subMethod, hmethod, hsub, ?_⟩
    cases method with
    | none =>
        cases subMethod with
        | none =>
            cases hp
            exact ⟨rfl, rfl⟩
        | some _ => cases hp
    | some method => exact (byMethod_eq_ok hsub).mp hp
  · rintro ⟨method, subMethod, hmethod, hsub, hp⟩
    refine ⟨method, hmethod, subMethod, hsub, ?_⟩
    cases method with
    | none =>
        obtain ⟨rfl, rfl⟩ := hp
        rfl
    | some method => exact (byMethod_eq_ok hsub).mpr hp

end Partitioning

end DictionaryDdl
