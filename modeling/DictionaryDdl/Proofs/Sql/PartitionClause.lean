import DictionaryDdl.Proofs.Sql.PartitionText

/-!
What the partition clause keeps of the partitions in the dictionary. Two tables that are divided
alike and written with the same clause have as many partitions. Where the partitions are listed
they have the same values and as many subpartitions. A count stands for definitions that the
server makes by itself, so the clause of a table whose partitions are counted says nothing about
their values, nor about subpartitions that would have to be listed inside them.
-/

namespace DictionaryDdl

namespace Sdi.Table

/-- Tables that are divided by the same methods and expressions, and in which the definitions of
a level are listed in both or counted in both. -/
structure SameDivision (a b : Sdi.Table) : Prop where
  partitionType : a.partitionType = b.partitionType
  partitionExpression : a.partitionExpression = b.partitionExpression
  defaultPartitioning : a.defaultPartitioning = b.defaultPartitioning
  subpartitionType : a.subpartitionType = b.subpartitionType
  subpartitionExpression : a.subpartitionExpression = b.subpartitionExpression
  defaultSubpartitioning : a.defaultSubpartitioning = b.defaultSubpartitioning

/-- Tables that are divided alike by a method, and written with the same partition clause. The
texts of their partitions are words. -/
structure WrittenAlike (a b : Sdi.Table) (method : PartitionMethod) : Prop where
  same : a.SameDivision b
  plain : ∀ x ∈ a.partitions, (Partition.ofEntry x).IsPlain
  plain' : ∀ y ∈ b.partitions, (Partition.ofEntry y).IsPlain
  clause : ∃ p q, Partitioning.ofSdi a = .ok p ∧ Partitioning.ofSdi b = .ok q ∧
    p.method = some method ∧ p.sql = q.sql

/-- Where the subpartitions are not listed, all partitions have as many as the first one. -/
theorem Divided.length_subpartitions {table : Sdi.Table} (hdivided : table.Divided)
    (hcounted : table.subpartitionType = 0 ∨ table.defaultSubpartitioning ≠ 1) :
    table.partitions.map (·.subpartitions.length) =
      List.replicate table.partitions.length
        (Partitioning.firstCount (table.partitions.map Partition.ofEntry)) := by
  have huniform : ∃ count, ∀ p ∈ table.partitions, p.subpartitions.length = count := by
    by_cases hzero : table.subpartitionType = 0
    · refine ⟨0, fun p hp => ?_⟩
      rw [hdivided.undivided hzero p hp, List.length_nil]
    · obtain ⟨count, -, hall⟩ :=
        hdivided.counted hzero (hcounted.resolve_left hzero)
      exact ⟨count, hall⟩
  obtain ⟨count, hall⟩ := huniform
  obtain ⟨first, more, hpartitions⟩ := List.exists_cons_of_ne_nil hdivided.nonempty
  have hfirst : Partitioning.firstCount (table.partitions.map Partition.ofEntry) = count := by
    rw [hpartitions]
    simpa [Partitioning.firstCount, Partition.ofEntry] using hall first (by simp [hpartitions])
  rw [hfirst, List.map_eq_replicate_iff]
  exact hall

theorem Divided.firstCount_of_undivided {table : Sdi.Table} (hdivided : table.Divided)
    (hzero : table.subpartitionType = 0) :
    Partitioning.firstCount (table.partitions.map Partition.ofEntry) = 0 := by
  obtain ⟨first, more, hpartitions⟩ := List.exists_cons_of_ne_nil hdivided.nonempty
  have hfirst : first.subpartitions = [] :=
    hdivided.undivided hzero first (by simp [hpartitions])
  simp [hpartitions, Partitioning.firstCount, Partition.ofEntry, hfirst]

end Sdi.Table

namespace Partitioning

/-- Tables that are written alike are read as one partitioning with different partitions. -/
theorem readAlike {a b : Sdi.Table} {method : PartitionMethod} (h : a.WrittenAlike b method) :
    ∃ subMethod, PartitionMethod.ofSubCode? a.subpartitionType = some subMethod ∧
      a.Divided ∧ b.Divided ∧
        ((ofEntries a method subMethod).withPartitions
            (a.partitions.map Partition.ofEntry)).sqlBy method =
          ((ofEntries a method subMethod).withPartitions
            (b.partitions.map Partition.ofEntry)).sqlBy method := by
  obtain ⟨p, q, hp, hq, hmethod, hsql⟩ := h.clause
  obtain ⟨m, subMethod, hcode, hsub, hp⟩ := ofSdi_eq_ok.mp hp
  obtain ⟨m', subMethod', hcode', hsub', hq⟩ := ofSdi_eq_ok.mp hq
  rw [← h.same.partitionType, hcode, Option.some_inj] at hcode'
  rw [← h.same.subpartitionType, hsub, Option.some_inj] at hsub'
  subst hcode' hsub'
  cases m with
  | none =>
      obtain ⟨-, rfl⟩ := hp
      cases hmethod
  | some m =>
      obtain ⟨hdivided, rfl⟩ := hp
      obtain ⟨hdivided', rfl⟩ := hq
      cases hmethod
      have hsame : ofEntries b method subMethod =
          (ofEntries a method subMethod).withPartitions
            (b.partitions.map Partition.ofEntry) := by
        simp only [ofEntries, withPartitions, h.same.partitionExpression,
          h.same.defaultPartitioning, h.same.subpartitionExpression,
          h.same.defaultSubpartitioning]
      rw [hsame] at hsql
      exact ⟨subMethod, hsub, hdivided, hdivided', hsql⟩

end Partitioning

namespace Sdi.Table

variable {a b : Sdi.Table} {method : PartitionMethod}

/-- Where the partitions are listed, the clause agrees partition by partition. -/
theorem WrittenAlike.listed (h : a.WrittenAlike b method) (hlisted : a.defaultPartitioning = 1)
    {subMethod : Option PartitionMethod}
    (hsub : PartitionMethod.ofSubCode? a.subpartitionType = some subMethod) :
    List.Forall₂
      (fun x y : Sdi.Partition => (method.HasValues → x.description = y.description) ∧
        (subMethod ≠ none → a.defaultSubpartitioning = 1 →
          x.subpartitions.length = y.subpartitions.length))
      a.partitions b.partitions := by
  obtain ⟨subMethod', hsub', hdivided, hdivided', htext⟩ := Partitioning.readAlike h
  rw [hsub, Option.some_inj] at hsub'
  subst hsub'
  have hexplicit : (Partitioning.ofEntries a method subMethod).explicitPartitions = true := by
    simp [Partitioning.ofEntries, Partitioning.explicitFlag, hlisted]
  have hplain : ∀ x ∈ a.partitions.map Partition.ofEntry, x.IsPlain :=
    List.forall_mem_map.mpr h.plain
  have hplain' : ∀ y ∈ b.partitions.map Partition.ofEntry, y.IsPlain :=
    List.forall_mem_map.mpr h.plain'
  obtain ⟨-, -, hlist⟩ := Partitioning.sqlBy_cancel htext
  have hagree := Partitioning.partitionList_cancel hexplicit (by simpa using hdivided.nonempty)
    (by simpa using hdivided'.nonempty) hplain hplain' hlist
  rw [List.forall₂_map_left_iff, List.forall₂_map_right_iff] at hagree
  refine hagree.imp fun x y hxy => ⟨hxy.1, fun hsome hflag => ?_⟩
  have hlistedSub : (Partitioning.ofEntries a method subMethod).listedSubMethod ≠ none := by
    simpa [Partitioning.listedSubMethod, Partitioning.ofEntries, Partitioning.explicitFlag,
      hflag] using hsome
  simpa [Partition.ofEntry] using hxy.2 hlistedSub

theorem WrittenAlike.length_partitions (h : a.WrittenAlike b method) :
    a.partitions.length = b.partitions.length := by
  obtain ⟨subMethod, hsub, -, -, htext⟩ := Partitioning.readAlike h
  by_cases hlisted : a.defaultPartitioning = 1
  · exact (h.listed hlisted hsub).length_eq
  · have hcounted : (Partitioning.ofEntries a method subMethod).explicitPartitions = false := by
      simpa [Partitioning.ofEntries, Partitioning.explicitFlag] using hlisted
    simpa using (Partitioning.sqlBy_cancel htext).1 hcounted

theorem WrittenAlike.counted (h : a.WrittenAlike b method)
    (hcounted : a.subpartitionType = 0 ∨ a.defaultSubpartitioning ≠ 1) :
    a.partitions.map (·.subpartitions.length) = b.partitions.map (·.subpartitions.length) := by
  obtain ⟨subMethod, hsub, hdivided, hdivided', htext⟩ := Partitioning.readAlike h
  have hcounted' : b.subpartitionType = 0 ∨ b.defaultSubpartitioning ≠ 1 := by
    rwa [← h.same.subpartitionType, ← h.same.defaultSubpartitioning]
  have hfirst : Partitioning.firstCount (a.partitions.map Partition.ofEntry) =
      Partitioning.firstCount (b.partitions.map Partition.ofEntry) := by
    by_cases hzero : a.subpartitionType = 0
    · have hzero' : b.subpartitionType = 0 := by rwa [← h.same.subpartitionType]
      rw [hdivided.firstCount_of_undivided hzero, hdivided'.firstCount_of_undivided hzero']
    · have hsome : subMethod ≠ none := by
        rintro rfl
        exact hzero (PartitionMethod.ofSubCode?_eq_none.mp hsub)
      have hflag : (Partitioning.ofEntries a method subMethod).explicitSubpartitions = false := by
        simpa [Partitioning.ofEntries, Partitioning.explicitFlag, hzero] using hcounted
      exact (Partitioning.sqlBy_cancel htext).2.1 hsome hflag
  rw [hdivided.length_subpartitions hcounted, hdivided'.length_subpartitions hcounted', hfirst,
    h.length_partitions]

/-- The partition clauses of two tables that are divided alike are equal only if the tables have
as many partitions; and, unless the partitions are counted while the subpartitions are listed, as
many subpartitions in each; and, where the partitions are listed with values, the same values. -/
theorem WrittenAlike.partitions_agree (h : a.WrittenAlike b method) :
    a.partitions.length = b.partitions.length ∧
      (a.defaultPartitioning = 1 ∨ a.subpartitionType = 0 ∨ a.defaultSubpartitioning ≠ 1 →
        a.partitions.map (·.subpartitions.length) =
          b.partitions.map (·.subpartitions.length)) ∧
      (a.defaultPartitioning = 1 → method.HasValues →
        a.partitions.map (·.description) = b.partitions.map (·.description)) := by
  obtain ⟨subMethod, hsub, -, -, -⟩ := Partitioning.readAlike h
  refine ⟨h.length_partitions, ?_, ?_⟩
  · intro hwritten
    by_cases hcounted : a.subpartitionType = 0 ∨ a.defaultSubpartitioning ≠ 1
    · exact h.counted hcounted
    · have hlisted : a.defaultPartitioning = 1 := hwritten.resolve_right hcounted
      obtain ⟨hdivided, hflag⟩ := not_or.mp hcounted
      have hsome : subMethod ≠ none := by
        rintro rfl
        exact hdivided (PartitionMethod.ofSubCode?_eq_none.mp hsub)
      rw [← List.forall₂_eq_eq_eq, List.forall₂_map_left_iff, List.forall₂_map_right_iff]
      exact (h.listed hlisted hsub).imp fun x y hxy => hxy.2 hsome (not_not.mp hflag)
  · intro hlisted hvalues
    rw [← List.forall₂_eq_eq_eq, List.forall₂_map_left_iff, List.forall₂_map_right_iff]
    exact (h.listed hlisted hsub).imp fun x y hxy => hxy.1 hvalues

/-- A table of which nothing but the partitions matters. -/
def ofPartitions (partitionType defaultPartitioning subpartitionType
    defaultSubpartitioning : UInt32) (partitions : List Sdi.Partition) : Sdi.Table where
  name := "t"
  schema := "shop"
  engine := "InnoDB"
  collationId := 45
  rowFormat := 2
  options := ""
  privateData := ""
  columns := []
  indexes := []
  foreignKeys := []
  partitionType
  partitionExpression := "id"
  defaultPartitioning
  subpartitionType
  subpartitionExpression := "k"
  defaultSubpartitioning
  partitions

/-- A partition with subpartitions of the given names. -/
def namedPartition (name description : String) (subpartitions : List String) :
    Sdi.Partition where
  name
  description
  engine := "InnoDB"
  comment := ""
  subpartitions := subpartitions.map fun sub =>
    { name := sub, description := "", engine := "InnoDB", comment := "", subpartitions := [] }

theorem plain_namedPartition {name description : String} {subpartitions : List String}
    (hname : Text.IsWord name) (hdescription : Text.IsWord description)
    (hsubpartitions : ∀ sub ∈ subpartitions, Text.IsWord sub) :
    (Partition.ofEntry (namedPartition name description subpartitions)).IsPlain := by
  have hempty : Text.IsWord "" := by decide
  have hengine : Text.IsWord "InnoDB" := by decide
  refine ⟨⟨hname, hdescription, hengine, rfl⟩, ?_⟩
  simp only [Partition.ofEntry, namedPartition, List.map_map, List.forall_mem_map]
  intro sub hsub
  exact ⟨hsubpartitions sub hsub, hempty, hengine, rfl⟩

/-- Two listed ranges, whose subpartitions are counted. -/
def countedInRanges (below above : List String) : Sdi.Table :=
  ofPartitions 7 1 1 3 [namedPartition "p0" "10" below, namedPartition "p1" "MAXVALUE" above]

theorem partitions_agree_countedInRanges :
    (countedInRanges ["x0", "x1"] ["y0", "y1"]).WrittenAlike
        (countedInRanges ["s0", "s1"] ["s2", "s3"]) .range ∧
      (countedInRanges ["x0", "x1"] ["y0", "y1"]).partitions.length =
        (countedInRanges ["s0", "s1"] ["s2", "s3"]).partitions.length ∧
      (countedInRanges ["x0", "x1"] ["y0", "y1"]).partitions.map (·.subpartitions.length) =
        (countedInRanges ["s0", "s1"] ["s2", "s3"]).partitions.map (·.subpartitions.length) ∧
      (countedInRanges ["x0", "x1"] ["y0", "y1"]).partitions.map (·.description) =
        (countedInRanges ["s0", "s1"] ["s2", "s3"]).partitions.map (·.description) := by
  have hplain {below above : List String} (hbelow : ∀ sub ∈ below, Text.IsWord sub)
      (habove : ∀ sub ∈ above, Text.IsWord sub) :
      ∀ x ∈ (countedInRanges below above).partitions, (Partition.ofEntry x).IsPlain := by
    have hlow := plain_namedPartition (by decide : Text.IsWord "p0") (by decide : Text.IsWord "10")
      hbelow
    have hhigh := plain_namedPartition (by decide : Text.IsWord "p1")
      (by decide : Text.IsWord "MAXVALUE") habove
    exact List.forall_mem_cons.mpr ⟨hlow, List.forall_mem_singleton.mpr hhigh⟩
  have hwritten : (countedInRanges ["x0", "x1"] ["y0", "y1"]).WrittenAlike
      (countedInRanges ["s0", "s1"] ["s2", "s3"]) .range :=
    { same := ⟨rfl, rfl, rfl, rfl, rfl, rfl⟩
      plain := hplain (by decide) (by decide)
      plain' := hplain (by decide) (by decide)
      clause := ⟨_, _, rfl, rfl, rfl, rfl⟩ }
  obtain ⟨hlength, hcounts, hvalues⟩ := WrittenAlike.partitions_agree hwritten
  exact ⟨hwritten, hlength, hcounts (.inl rfl), hvalues rfl trivial⟩

/-- A range partition that is counted and not listed. -/
def countedRange (bound : String) : Sdi.Table :=
  ofPartitions 7 3 0 0 [namedPartition "p0" bound []]

/-- A hashed partition that is counted, with subpartitions that are to be listed. -/
def listedInCounted (subpartitions : List String) : Sdi.Table :=
  ofPartitions 1 3 1 1 [namedPartition "p0" "" subpartitions]

/-- A clause that counts the partitions is the same for different bounds, and for different
numbers of listed subpartitions. -/
theorem counted_partitions_written_alike :
    ((countedRange "10").WrittenAlike (countedRange "20") .range ∧
        PartitionMethod.HasValues .range ∧
        (countedRange "10").partitions.map (·.description) ≠
          (countedRange "20").partitions.map (·.description)) ∧
      (listedInCounted ["s0"]).WrittenAlike (listedInCounted ["s0", "s1"]) .hash ∧
        (listedInCounted ["s0"]).partitions.map (·.subpartitions.length) ≠
          (listedInCounted ["s0", "s1"]).partitions.map (·.subpartitions.length) := by
  have hplain {description : String} {subpartitions : List String}
      (hdescription : Text.IsWord description)
      (hsubpartitions : ∀ sub ∈ subpartitions, Text.IsWord sub) :
      ∀ x ∈ [namedPartition "p0" description subpartitions], (Partition.ofEntry x).IsPlain :=
    List.forall_mem_singleton.mpr
      (plain_namedPartition (by decide : Text.IsWord "p0") hdescription hsubpartitions)
  have hranges : (countedRange "10").WrittenAlike (countedRange "20") .range := by
    refine ⟨⟨rfl, rfl, rfl, rfl, rfl, rfl⟩, hplain (by decide) (by decide),
      hplain (by decide) (by decide), ?_⟩
    let p := Partitioning.ofEntries (countedRange "10") .range none
    exact ⟨p, _, rfl, rfl, rfl, Partitioning.sqlBy_of_counted (p := p) rfl rfl (.inl rfl)⟩
  have hhashed : (listedInCounted ["s0"]).WrittenAlike (listedInCounted ["s0", "s1"]) .hash := by
    refine ⟨⟨rfl, rfl, rfl, rfl, rfl, rfl⟩, hplain (by decide) (by decide),
      hplain (by decide) (by decide), ?_⟩
    let p := Partitioning.ofEntries (listedInCounted ["s0"]) .hash (some .hash)
    exact ⟨p, _, rfl, rfl, rfl, Partitioning.sqlBy_of_counted (p := p) rfl rfl (.inr (.inl rfl))⟩
  exact ⟨⟨hranges, trivial, by decide⟩, hhashed, by decide⟩

end Sdi.Table

end DictionaryDdl
