import DictionaryDdl.Proofs.Table.Partitions
import DictionaryDdl.Proofs.Text.Delimited
import DictionaryDdl.Sql.Partitioning

/-!
What the partition clause says about the partitions. The names, engines and values of partitions
are written as they are, so the clause is read here only for partitions in which they are words.
Where the partitions are listed the clause has the values of each of them, and where they are
not, nothing but their number. Subpartitions that are to be listed stand only inside partitions
that are listed; otherwise they are not even counted.
-/

namespace DictionaryDdl

/-- The methods that assign rows to a partition by the values written with it. -/
def PartitionMethod.HasValues : PartitionMethod → Prop
  | range | rangeColumns | list | listColumns => True
  | hash | key | linearHash | linearKey => False

/-- A word ends where the list it stands in goes on or ends. -/
theorem Text.endsRun_of_endsEntry {rest : List Char} (hrest : EndsEntry ',' '\n' rest) :
    EndsRun isWordChar rest :=
  hrest.endsRun (by decide) (by decide)

namespace PartitionSpec

open Text

/-- A definition in which all texts are words, without a comment. -/
structure IsPlain (p : PartitionSpec) : Prop where
  name : IsWord p.name
  values : IsWord p.values
  engine : IsWord p.engine
  comment : p.comment = ""

variable {p q : PartitionSpec} {method : PartitionMethod} {r s : List Char}

/-- The values of a partition are read between their parentheses; the bare `MAXVALUE` of a range
is told from them by its first letter. -/
theorem valuesClause_cancel (hp : p.IsPlain) (hq : q.IsPlain)
    (h : (p.valuesClause method).toList ++ r = (q.valuesClause method).toList ++ s) :
    (method.HasValues → p.values = q.values) ∧ r = s := by
  have hclosing (rest : List Char) : EndsRun isWordChar (")".toList ++ rest) := by
    simp [EndsRun, isWordChar]
  have hread {r s : List Char}
      (h : p.values.toList ++ (")".toList ++ r) = q.values.toList ++ (")".toList ++ s)) :
      (method.HasValues → p.values = q.values) ∧ r = s := by
    obtain ⟨hvalues, hrest⟩ := word_cancel hp.values hq.values (hclosing r) (hclosing s) h
    exact ⟨fun _ => hvalues, List.append_cancel_left hrest⟩
  unfold valuesClause at h
  cases method with
  | list | listColumns | rangeColumns =>
      simp only [String.toList_append, List.append_assoc] at h
      rw [List.append_cancel_left_eq] at h
      exact hread h
  | range =>
      dsimp only at h
      split at h
      · next hmax =>
          split at h
          · next hmax' =>
              exact ⟨fun _ => hmax.trans hmax'.symm, List.append_cancel_left h⟩
          · simp [String.toList_append] at h
      · split at h
        · simp [String.toList_append] at h
        · simp only [String.toList_append, List.append_assoc] at h
          rw [List.append_cancel_left_eq] at h
          exact hread h
  | hash | key | linearHash | linearKey =>
      exact ⟨False.elim, by simpa using h⟩

theorem endsRun_valuesClause (p : PartitionSpec) (method : PartitionMethod)
    (hr : EndsRun isWordChar r) :
    EndsRun isWordChar ((p.valuesClause method).toList ++ r) := by
  unfold valuesClause
  cases method with
  | list | listColumns | rangeColumns =>
      simp [EndsRun, isWordChar, String.toList_append]
  | range =>
      dsimp only
      split <;> simp [EndsRun, isWordChar, String.toList_append]
  | hash | key | linearHash | linearKey => exact hr

theorem head_cancel {keyword : String} (hp : p.IsPlain) (hq : q.IsPlain)
    (hr : EndsRun isWordChar r) (hs : EndsRun isWordChar s)
    (h : (p.head keyword method).toList ++ r = (q.head keyword method).toList ++ s) :
    (method.HasValues → p.values = q.values) ∧ r = s := by
  have hhead {x : PartitionSpec} (hx : x.IsPlain) :
      x.head keyword method = keyword ++ " " ++ x.name ++ x.valuesClause method := by
    simp [head, hx.comment]
  simp only [hhead hp, hhead hq, String.toList_append, List.append_assoc] at h
  rw [List.append_cancel_left_eq, List.append_cancel_left_eq] at h
  obtain ⟨-, h⟩ := word_cancel hp.name hq.name (p.endsRun_valuesClause method hr)
    (q.endsRun_valuesClause method hs) h
  exact valuesClause_cancel hp hq h

theorem engineClause_cancel (hp : p.IsPlain) (hq : q.IsPlain)
    (hr : EndsRun isWordChar r) (hs : EndsRun isWordChar s)
    (h : p.engineClause.toList ++ r = q.engineClause.toList ++ s) : r = s := by
  unfold engineClause at h
  simp only [String.toList_append, List.append_assoc] at h
  rw [List.append_cancel_left_eq] at h
  exact (word_cancel hp.engine hq.engine hr hs h).2

theorem subpartitionSql_cancel (hp : p.IsPlain) (hq : q.IsPlain)
    (hr : EndsRun isWordChar r) (hs : EndsRun isWordChar s)
    (h : (p.subpartitionSql method).toList ++ r = (q.subpartitionSql method).toList ++ s) :
    r = s := by
  have hengine (x : PartitionSpec) (rest : List Char) :
      EndsRun isWordChar (x.engineClause.toList ++ rest) := by
    simp [EndsRun, isWordChar, engineClause, String.toList_append]
  unfold subpartitionSql at h
  simp only [String.toList_append, List.append_assoc] at h
  obtain ⟨-, h⟩ := head_cancel hp hq (hengine p r) (hengine q s) h
  exact engineClause_cancel hp hq hr hs h

theorem subpartitionList_cancel {xs ys : List PartitionSpec} (hxs : ∀ x ∈ xs, x.IsPlain)
    (hys : ∀ y ∈ ys, y.IsPlain)
    (h : (joined ",\n\t\t" (xs.map (·.subpartitionSql method))).toList ++ '\n' :: r =
      (joined ",\n\t\t" (ys.map (·.subpartitionSql method))).toList ++ '\n' :: s) :
    xs.length = ys.length ∧ r = s := by
  have hseparator : ",\n\t\t".toList = ',' :: "\n\t\t".toList := by decide
  have hopen (x : PartitionSpec) : (x.subpartitionSql method).toList.head? = some 'S' := by
    simp [subpartitionSql, head, String.toList_append]
  have hread : ∀ x ∈ xs, ∀ y ∈ ys, ∀ r s, EndsEntry ',' '\n' r → EndsEntry ',' '\n' s →
      (x.subpartitionSql method).toList ++ r = (y.subpartitionSql method).toList ++ s →
        True ∧ r = s := by
    intro x hx y hy r s hr hs hxy
    exact ⟨trivial, subpartitionSql_cancel (hxs x hx) (hys y hy) (endsRun_of_endsEntry hr)
      (endsRun_of_endsEntry hs) hxy⟩
  obtain ⟨hentries, hrest⟩ := joined_cancel hseparator (by decide) (by decide) hopen hread h
  exact ⟨hentries.length_eq, hrest⟩

end PartitionSpec

namespace Partition

open Text

/-- A partition in which all texts are words, those of its subpartitions included, and which has
no comments. -/
structure IsPlain (p : Partition) : Prop where
  spec : p.toPartitionSpec.IsPlain
  subpartitions : ∀ x ∈ p.subpartitions, x.IsPlain

/-- What stands behind the head of a partition: its subpartitions where they are listed, and its
engine otherwise. -/
def contents (p : Partition) (listed : Option PartitionMethod) : String :=
  match listed, p.subpartitions with
  | some subMethod, first :: more =>
      "\n\t(\n\t\t" ++
        Text.joined ",\n\t\t" ((first :: more).map (·.subpartitionSql subMethod)) ++ "\n\t)"
  | _, _ => p.engineClause

theorem sql_eq_head_contents (p : Partition) (method : PartitionMethod)
    (listed : Option PartitionMethod) :
    p.sql method listed = p.head "PARTITION" method ++ p.contents listed :=
  rfl

theorem contents_of_ne_nil {p : Partition} (hp : p.subpartitions ≠ [])
    (subMethod : PartitionMethod) :
    p.contents (some subMethod) = "\n\t(\n\t\t" ++
      Text.joined ",\n\t\t" (p.subpartitions.map (·.subpartitionSql subMethod)) ++ "\n\t)" := by
  obtain ⟨first, more, hsome⟩ := List.exists_cons_of_ne_nil hp
  simp only [contents, hsome]

theorem contents_of_eq_nil {p : Partition} (hp : p.subpartitions = [])
    (listed : Option PartitionMethod) : p.contents listed = p.engineClause := by
  simp only [contents, hp]

theorem contents_none (p : Partition) : p.contents none = p.engineClause :=
  rfl

theorem endsRun_contents (p : Partition) (listed : Option PartitionMethod) (r : List Char) :
    EndsRun isWordChar ((p.contents listed).toList ++ r) := by
  unfold contents
  split <;> simp [EndsRun, isWordChar, PartitionSpec.engineClause, String.toList_append]

/-- A list of subpartitions says how many there are, even where there are none and the engine
stands in its place. -/
theorem contents_cancel {p q : Partition} {listed : Option PartitionMethod} {r s : List Char}
    (hp : p.IsPlain) (hq : q.IsPlain) (hr : EndsRun isWordChar r) (hs : EndsRun isWordChar s)
    (h : (p.contents listed).toList ++ r = (q.contents listed).toList ++ s) :
    (listed ≠ none → p.subpartitions.length = q.subpartitions.length) ∧ r = s := by
  cases listed with
  | none =>
      rw [contents_none, contents_none] at h
      exact ⟨fun hnone => absurd rfl hnone,
        PartitionSpec.engineClause_cancel hp.spec hq.spec hr hs h⟩
  | some subMethod =>
      by_cases hp' : p.subpartitions = [] <;> by_cases hq' : q.subpartitions = []
      · rw [contents_of_eq_nil hp', contents_of_eq_nil hq'] at h
        exact ⟨fun _ => by rw [hp', hq'],
          PartitionSpec.engineClause_cancel hp.spec hq.spec hr hs h⟩
      · rw [contents_of_eq_nil hp', contents_of_ne_nil hq'] at h
        simp [PartitionSpec.engineClause, String.toList_append] at h
      · rw [contents_of_ne_nil hp', contents_of_eq_nil hq'] at h
        simp [PartitionSpec.engineClause, String.toList_append] at h
      · have hclosing : "\n\t)".toList = '\n' :: "\t)".toList := by decide
        rw [contents_of_ne_nil hp', contents_of_ne_nil hq'] at h
        simp only [String.toList_append, List.append_assoc] at h
        rw [List.append_cancel_left_eq, hclosing, List.cons_append, List.cons_append] at h
        obtain ⟨hlength, hrest⟩ :=
          PartitionSpec.subpartitionList_cancel hp.subpartitions hq.subpartitions h
        exact ⟨fun _ => hlength, List.append_cancel_left hrest⟩

/-- What the text of a partition says about it: its values where its method has some, and the
number of its subpartitions where they are listed. -/
def TextAgrees (method : PartitionMethod) (listed : Option PartitionMethod)
    (p q : Partition) : Prop :=
  (method.HasValues → p.values = q.values) ∧
    (listed ≠ none → p.subpartitions.length = q.subpartitions.length)

theorem sql_cancel {p q : Partition} {method : PartitionMethod}
    {listed : Option PartitionMethod} {r s : List Char} (hp : p.IsPlain) (hq : q.IsPlain)
    (hr : EndsRun isWordChar r) (hs : EndsRun isWordChar s)
    (h : (p.sql method listed).toList ++ r = (q.sql method listed).toList ++ s) :
    TextAgrees method listed p q ∧ r = s := by
  rw [sql_eq_head_contents, sql_eq_head_contents] at h
  simp only [String.toList_append, List.append_assoc] at h
  obtain ⟨hvalues, h⟩ := PartitionSpec.head_cancel hp.spec hq.spec
    (p.endsRun_contents listed r) (q.endsRun_contents listed s) h
  obtain ⟨hcount, hrest⟩ := contents_cancel hp hq hr hs h
  exact ⟨⟨hvalues, hcount⟩, hrest⟩

end Partition

namespace Partitioning

open Text

variable {p : Partitioning} {ps qs : List Partition} {method : PartitionMethod}

def withPartitions (p : Partitioning) (ps : List Partition) : Partitioning :=
  { p with partitions := ps }

theorem partitionList_of_listed (hlisted : p.explicitPartitions = true)
    (hps : p.partitions ≠ []) (method : PartitionMethod) :
    p.partitionList method = "\n(\n\t" ++
      Text.joined ",\n\t" (p.partitions.map (·.sql method p.listedSubMethod)) ++ "\n)" := by
  simp [partitionList, hlisted, hps]

theorem endsRun_partitionList (p : Partitioning) (method : PartitionMethod) :
    EndsRun Char.isDigit (p.partitionList method).toList := by
  unfold partitionList
  split <;> simp [EndsRun, String.toList_append]

theorem endsRun_subpartitionClause (p : Partitioning) (method : PartitionMethod) :
    EndsRun Char.isDigit
      (p.subpartitionClause.toList ++ (p.partitionList method).toList) := by
  unfold subpartitionClause
  split
  · simpa using p.endsRun_partitionList method
  · simp [EndsRun, String.toList_append]

/-- The clause of the subpartitions says how many the first partition has, where they are not
listed. -/
theorem subpartitionClause_cancel
    (h : (p.withPartitions ps).subpartitionClause.toList ++
        ((p.withPartitions ps).partitionList method).toList =
      (p.withPartitions qs).subpartitionClause.toList ++
        ((p.withPartitions qs).partitionList method).toList) :
    (p.subMethod ≠ none → p.explicitSubpartitions = false → firstCount ps = firstCount qs) ∧
      (p.withPartitions ps).partitionList method =
        (p.withPartitions qs).partitionList method := by
  have hps := (p.withPartitions ps).endsRun_partitionList method
  have hqs := (p.withPartitions qs).endsRun_partitionList method
  generalize (p.withPartitions ps).partitionList method = list at h hps ⊢
  generalize (p.withPartitions qs).partitionList method = list' at h hqs ⊢
  unfold subpartitionClause withPartitions at h
  cases hsub : p.subMethod with
  | none =>
      simp only [hsub] at h
      exact ⟨fun hnone => absurd rfl hnone, String.toList_injective (by simpa using h)⟩
  | some subMethod =>
      simp only [hsub, String.toList_append, List.append_assoc] at h
      rw [List.append_cancel_left_eq, List.append_cancel_left_eq, List.append_cancel_left_eq,
        List.append_cancel_left_eq, List.append_cancel_left_eq] at h
      cases hlisted : p.explicitSubpartitions with
      | true =>
          simp only [hlisted, if_true] at h
          rw [List.append_cancel_left_eq] at h
          exact ⟨fun _ hfalse => Bool.noConfusion hfalse, String.toList_injective h⟩
      | false =>
          simp only [hlisted, Bool.false_eq_true, if_false, String.toList_append,
            List.append_assoc] at h
          rw [List.append_cancel_left_eq] at h
          obtain ⟨hcount, hrest⟩ := decimal_cancel hps hqs h
          exact ⟨fun _ _ => hcount, String.toList_injective hrest⟩

/-- The clause of a partitioning says how many partitions there are, where they are not listed;
then it goes on with the subpartitions and the list. -/
theorem sqlBy_cancel
    (h : (p.withPartitions ps).sqlBy method = (p.withPartitions qs).sqlBy method) :
    (p.explicitPartitions = false → ps.length = qs.length) ∧
      (p.subMethod ≠ none → p.explicitSubpartitions = false →
        firstCount ps = firstCount qs) ∧
      (p.withPartitions ps).partitionList method =
        (p.withPartitions qs).partitionList method := by
  have hps := (p.withPartitions ps).endsRun_subpartitionClause method
  have hqs := (p.withPartitions qs).endsRun_subpartitionClause method
  have htext := congrArg String.toList h
  unfold sqlBy at htext
  simp only [String.toList_append, List.append_assoc] at htext
  have hexpression : (p.withPartitions ps).expression = (p.withPartitions qs).expression := rfl
  rw [hexpression, List.append_cancel_left_eq, List.append_cancel_left_eq,
    List.append_cancel_left_eq, List.append_cancel_left_eq, List.append_cancel_left_eq] at htext
  have hflag (xs : List Partition) :
      (p.withPartitions xs).explicitPartitions = p.explicitPartitions := rfl
  rw [hflag ps, hflag qs] at htext
  cases hlisted : p.explicitPartitions with
  | true =>
      simp only [hlisted, if_true] at htext
      rw [List.append_cancel_left_eq] at htext
      exact ⟨fun hfalse => Bool.noConfusion hfalse, subpartitionClause_cancel htext⟩
  | false =>
      simp only [hlisted, Bool.false_eq_true, if_false, String.toList_append,
        List.append_assoc] at htext
      rw [List.append_cancel_left_eq] at htext
      obtain ⟨hcount, hrest⟩ := decimal_cancel hps hqs htext
      exact ⟨fun _ => hcount, subpartitionClause_cancel hrest⟩

/-- Where the partitions are counted, their number is all that the clause says about them, apart
from the number of subpartitions where those are counted too. -/
theorem sqlBy_of_counted (hcounted : p.explicitPartitions = false)
    (hlength : ps.length = qs.length)
    (hsub : p.subMethod = none ∨ p.explicitSubpartitions = true ∨
      firstCount ps = firstCount qs) :
    (p.withPartitions ps).sqlBy method = (p.withPartitions qs).sqlBy method := by
  have hlist (xs : List Partition) : (p.withPartitions xs).partitionList method = "" := by
    simp [partitionList, withPartitions, hcounted]
  have hclause : (p.withPartitions ps).subpartitionClause =
      (p.withPartitions qs).subpartitionClause := by
    unfold subpartitionClause withPartitions
    rcases hsub with hnone | hlisted | hcount
    · simp only [hnone]
    · simp only [hlisted, if_true]
    · simp only [hcount]
  have hcount : (p.withPartitions ps).partitions.length =
      (p.withPartitions qs).partitions.length := hlength
  unfold sqlBy
  rw [hlist ps, hlist qs, hclause, hcount]
  rfl

theorem partitionList_cancel (hlisted : p.explicitPartitions = true) (hps : ps ≠ [])
    (hqs : qs ≠ []) (hplain : ∀ x ∈ ps, x.IsPlain) (hplain' : ∀ y ∈ qs, y.IsPlain)
    (h : (p.withPartitions ps).partitionList method =
      (p.withPartitions qs).partitionList method) :
    List.Forall₂ (Partition.TextAgrees method p.listedSubMethod) ps qs := by
  have hseparator : ",\n\t".toList = ',' :: "\n\t".toList := by decide
  have hclosing : "\n)".toList = '\n' :: ")".toList := by decide
  have hopen (x : Partition) : (x.sql method p.listedSubMethod).toList.head? = some 'P' := by
    simp [Partition.sql, PartitionSpec.head, String.toList_append]
  have hread : ∀ x ∈ ps, ∀ y ∈ qs, ∀ r s,
      EndsEntry ',' '\n' r → EndsEntry ',' '\n' s →
        (x.sql method p.listedSubMethod).toList ++ r =
          (y.sql method p.listedSubMethod).toList ++ s →
        Partition.TextAgrees method p.listedSubMethod x y ∧ r = s := by
    intro x hx y hy r s hr hs hxy
    exact Partition.sql_cancel (hplain x hx) (hplain' y hy) (endsRun_of_endsEntry hr)
      (endsRun_of_endsEntry hs) hxy
  have hlist {xs : List Partition} (hxs : xs ≠ []) :
      (p.withPartitions xs).partitionList method = "\n(\n\t" ++
        Text.joined ",\n\t" (xs.map (·.sql method p.listedSubMethod)) ++ "\n)" :=
    partitionList_of_listed (p := p.withPartitions xs) hlisted hxs method
  have htext := congrArg String.toList h
  rw [hlist hps, hlist hqs] at htext
  simp only [String.toList_append, List.append_assoc] at htext
  rw [List.append_cancel_left_eq, hclosing] at htext
  exact (joined_cancel hseparator (by decide) (by decide) hopen hread htext).1

end Partitioning

end DictionaryDdl
