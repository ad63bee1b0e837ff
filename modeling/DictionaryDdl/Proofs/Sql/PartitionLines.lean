import DictionaryDdl.Proofs.Sql.PartitionText
import DictionaryDdl.Proofs.Sql.Scanning

/-!
The lines of a partition clause that lists its partitions. The clause is cut at the line feeds
that do not stand inside quotes. Comments may be any text; expressions, names, values and engines
are written as they are and have to be closed. Then every partition and every subpartition stands
on a line of its own, in its order and at its depth, and a comma ends the last line of every entry
that is not the last one of its list.
-/

namespace DictionaryDdl

namespace Sql

theorem lines_of_closed {text : String} (h : Closed text) : lines text = [text] := by
  have hcut := linesFrom_append h []
  rw [List.append_nil] at hcut
  simp [lines, hcut, linesFrom, onFirst]

/-- Closed lines with line feeds between them are what the whole text is cut into. -/
theorem lines_joined {texts : List String} (hne : texts ≠ [])
    (hclosed : ∀ text ∈ texts, Closed text) : lines (Text.joined "\n" texts) = texts := by
  induction texts with
  | nil => exact absurd rfl hne
  | cons text more ih =>
      rw [List.forall_mem_cons] at hclosed
      cases more with
      | nil => exact lines_of_closed hclosed.1
      | cons next others =>
          rw [Text.joined, lines_break hclosed.1, ih (by simp) hclosed.2]
          simp

/-- Lines with a comma behind the last of them. -/
def withComma : List String → List String
  | [] => []
  | [line] => [line ++ ","]
  | line :: next :: more => line :: withComma (next :: more)

/-- The lines of a list, from the lines of its entries: a comma stands behind every entry but the
last. -/
def listLines : List (List String) → List String
  | [] => []
  | [entry] => entry
  | entry :: next :: more => withComma entry ++ listLines (next :: more)

theorem withComma_ne_nil {entry : List String} (h : entry ≠ []) : withComma entry ≠ [] := by
  obtain ⟨line, more, rfl⟩ := List.exists_cons_of_ne_nil h
  cases more <;> simp [withComma]

theorem joined_withComma {entry : List String} (h : entry ≠ []) :
    Text.joined "\n" (withComma entry) = Text.joined "\n" entry ++ "," := by
  induction entry with
  | nil => exact absurd rfl h
  | cons line more ih =>
      cases more with
      | nil => rfl
      | cons next others =>
          rw [withComma, Text.joined_cons_of_ne_nil (withComma_ne_nil (by simp)), ih (by simp),
            Text.joined_cons_of_ne_nil (List.cons_ne_nil next others)]
          simp only [String.append_assoc]

theorem listLines_ne_nil {entries : List (List String)} (hne : entries ≠ [])
    (hentries : ∀ entry ∈ entries, entry ≠ []) : listLines entries ≠ [] := by
  obtain ⟨entry, more, rfl⟩ := List.exists_cons_of_ne_nil hne
  have hentry : entry ≠ [] := hentries entry (by simp)
  cases more with
  | nil => exact hentry
  | cons next others => simp [listLines, withComma_ne_nil hentry]

/-- A list that is written with commas and line feeds between its entries, and an indentation in
front of each, is put together from the lines of the list. -/
theorem joined_listLines {α : Type} {indent : String} {text : α → String}
    {linesOf : α → List String} {xs : List α} (hxs : xs ≠ [])
    (hentry : ∀ x ∈ xs, linesOf x ≠ [] ∧ Text.joined "\n" (linesOf x) = indent ++ text x) :
    Text.joined "\n" (listLines (xs.map linesOf)) =
      indent ++ Text.joined (",\n" ++ indent) (xs.map text) := by
  induction xs with
  | nil => exact absurd rfl hxs
  | cons x more ih =>
      rw [List.forall_mem_cons] at hentry
      obtain ⟨⟨hlines, htext⟩, hmore⟩ := hentry
      cases more with
      | nil => exact htext
      | cons next others =>
          have hrest : listLines ((next :: others).map linesOf) ≠ [] :=
            listLines_ne_nil (by simp) (List.forall_mem_map.mpr fun y hy => (hmore y hy).1)
          have hlist : listLines ((x :: next :: others).map linesOf) =
              withComma (linesOf x) ++ listLines ((next :: others).map linesOf) := rfl
          have hseparator : ",\n" = "," ++ "\n" := by decide
          rw [hlist, Text.joined_append (withComma_ne_nil hlines) hrest, joined_withComma hlines,
            htext, ih (by simp) hmore]
          simp only [List.map_cons, Text.joined, hseparator, String.append_assoc]

theorem closed_of_mem_withComma {entry : List String} (h : ∀ line ∈ entry, Closed line) :
    ∀ line ∈ withComma entry, Closed line := by
  induction entry with
  | nil => exact h
  | cons line more ih =>
      rw [List.forall_mem_cons] at h
      cases more with
      | nil => simpa [withComma] using h.1.append (by decide : Closed ",")
      | cons next others => exact List.forall_mem_cons.mpr ⟨h.1, ih h.2⟩

theorem closed_of_mem_listLines {entries : List (List String)}
    (h : ∀ entry ∈ entries, ∀ line ∈ entry, Closed line) :
    ∀ line ∈ listLines entries, Closed line := by
  induction entries with
  | nil => exact nofun
  | cons entry more ih =>
      rw [List.forall_mem_cons] at h
      cases more with
      | nil => exact h.1
      | cons next others =>
          exact List.forall_mem_append.mpr ⟨closed_of_mem_withComma h.1, ih h.2⟩

end Sql

open Sql

namespace PartitionSpec

variable {p : PartitionSpec}

/-- A definition whose texts are closed where they are written as they are. -/
structure RawClosed (p : PartitionSpec) : Prop where
  name : Closed p.name
  values : Closed p.values
  engine : Closed p.engine

/-- What stands behind the name of a partition, up to its engine or its subpartitions. -/
def details (p : PartitionSpec) (method : PartitionMethod) : String :=
  p.valuesClause method ++ if p.comment.isEmpty then "" else " COMMENT=" ++ Sql.literal p.comment

theorem head_eq (p : PartitionSpec) (keyword : String) (method : PartitionMethod) :
    p.head keyword method = keyword ++ " " ++ p.name ++ p.details method := by
  unfold head details
  simp only [String.append_assoc]

theorem closed_details (h : p.RawClosed) (method : PartitionMethod) :
    Closed (p.details method) := by
  have hclosing : Closed ")" := by decide
  have hless : Closed " VALUES LESS THAN (" := by decide
  have hvalues : Closed (p.valuesClause method) := by
    unfold valuesClause
    cases method with
    | list | listColumns =>
        exact ((by decide : Closed " VALUES IN (").append h.values).append hclosing
    | range =>
        dsimp only
        split
        · decide
        · exact (hless.append h.values).append hclosing
    | rangeColumns => exact (hless.append h.values).append hclosing
    | hash | key | linearHash | linearKey => exact (by decide : Closed "")
  have hkeyword : Closed " COMMENT=" := by decide
  unfold details
  apply hvalues.append
  split
  · decide
  · exact hkeyword.append (closed_literal p.comment)

theorem closed_engineClause (h : p.RawClosed) : Closed p.engineClause :=
  (by decide : Closed " ENGINE=").append h.engine

/-- The line of a subpartition. -/
def subpartitionLine (method : PartitionMethod) (p : PartitionSpec) : String :=
  "\t\tSUBPARTITION " ++ p.name ++ (p.details method ++ p.engineClause)

theorem subpartitionLine_eq (method : PartitionMethod) (p : PartitionSpec) :
    p.subpartitionLine method = "\t\t" ++ p.subpartitionSql method := by
  have hkeyword : "\t\tSUBPARTITION " = "\t\t" ++ ("SUBPARTITION" ++ " ") := by decide
  unfold subpartitionLine subpartitionSql
  rw [head_eq, hkeyword]
  simp only [String.append_assoc]

theorem closed_subpartitionLine (h : p.RawClosed) (method : PartitionMethod) :
    Closed (p.subpartitionLine method) := by
  have hkeyword : Closed "\t\tSUBPARTITION " := by decide
  unfold subpartitionLine
  exact (hkeyword.append h.name).append ((closed_details h method).append (closed_engineClause h))

end PartitionSpec

/-- A partition whose texts are closed at both levels where they are written as they are. -/
structure Partition.RawClosed (p : Partition) : Prop where
  definition : p.toPartitionSpec.RawClosed
  subpartitions : ∀ s ∈ p.subpartitions, s.RawClosed

namespace Partitioning

variable {p : Partitioning} {method : PartitionMethod} {q : Partition}

/-- A partitioning whose texts are closed where they are written as they are. -/
structure RawClosed (p : Partitioning) : Prop where
  expression : Closed p.expression
  subExpression : Closed p.subExpression
  partitions : ∀ q ∈ p.partitions, q.RawClosed

/-- The line of the method and the expression. -/
def methodLine (p : Partitioning) (method : PartitionMethod) : String :=
  "PARTITION BY " ++ method.keyword ++ "(" ++ p.expression ++ ")"

/-- The line of the subpartitions' method and expression, and of their number where they are not
listed; no line without a method for them. -/
def subMethodLines (p : Partitioning) : List String :=
  match p.subMethod with
  | none => []
  | some method =>
      ["SUBPARTITION BY " ++ method.keyword ++ "(" ++ p.subExpression ++ ")" ++
        if p.explicitSubpartitions then ""
        else " SUBPARTITIONS " ++ toString (firstCount p.partitions)]

/-- The lines of a partition: one line, unless there is a method for subpartitions, they are to be
listed and the partition has some. Then they stand on lines of their own between parentheses, and
take the place of the engine. -/
def partitionLines (p : Partitioning) (method : PartitionMethod) (q : Partition) : List String :=
  match p.subMethod with
  | some subMethod =>
      if p.explicitSubpartitions = true ∧ q.subpartitions ≠ [] then
        ("\tPARTITION " ++ q.name ++ q.details method) :: "\t(" ::
          (listLines (q.subpartitions.map fun s => [s.subpartitionLine subMethod]) ++ ["\t)"])
      else ["\tPARTITION " ++ q.name ++ (q.details method ++ q.engineClause)]
  | none => ["\tPARTITION " ++ q.name ++ (q.details method ++ q.engineClause)]

/-- The lines of the clause of a partitioning by a method. -/
def clauseLines (p : Partitioning) (method : PartitionMethod) : List String :=
  p.methodLine method :: p.subMethodLines ++
    "(" :: (listLines (p.partitions.map (p.partitionLines method)) ++ [")"])

theorem partitionLines_ne_nil (p : Partitioning) (method : PartitionMethod) (q : Partition) :
    p.partitionLines method q ≠ [] := by
  unfold partitionLines
  split
  · split <;> simp
  · simp

/-- The line of a partition that stands on a single line. -/
theorem tab_sql_of_contents {listed : Option PartitionMethod}
    (h : q.contents listed = q.engineClause) :
    "\tPARTITION " ++ q.name ++ (q.details method ++ q.engineClause) =
      "\t" ++ q.sql method listed := by
  have hkeyword : "\tPARTITION " = "\t" ++ ("PARTITION" ++ " ") := by decide
  rw [Partition.sql_eq_head_contents, h, PartitionSpec.head_eq, hkeyword]
  simp only [String.append_assoc]

theorem joined_partitionLines (p : Partitioning) (method : PartitionMethod) (q : Partition) :
    Text.joined "\n" (p.partitionLines method q) =
      "\t" ++ q.sql method p.listedSubMethod := by
  unfold partitionLines listedSubMethod
  cases hsub : p.subMethod with
  | none => exact tab_sql_of_contents (by rw [ite_self, Partition.contents_none])
  | some subMethod =>
      by_cases hinner : p.explicitSubpartitions = true ∧ q.subpartitions ≠ []
      · have hentries : ∀ s ∈ q.subpartitions, [s.subpartitionLine subMethod] ≠ [] ∧
            Text.joined "\n" [s.subpartitionLine subMethod] =
              "\t\t" ++ s.subpartitionSql subMethod :=
          fun s _ => ⟨by simp, s.subpartitionLine_eq subMethod⟩
        have hlines := listLines_ne_nil (by simpa using hinner.2)
          (List.forall_mem_map.mpr fun s hs => (hentries s hs).1)
        have hkeyword : "\tPARTITION " = "\t" ++ ("PARTITION" ++ " ") := by decide
        have hopening : "\n\t(\n\t\t" = "\n" ++ "\t(" ++ "\n" ++ "\t\t" := by decide
        have hclosing : "\n\t)" = "\n" ++ "\t)" := by decide
        have hseparator : ",\n" ++ "\t\t" = ",\n\t\t" := by decide
        dsimp only
        rw [if_pos hinner, if_pos hinner.1, Text.joined_cons_of_ne_nil (by simp),
          Text.joined_cons_of_ne_nil (by simp), Text.joined_append hlines (by simp),
          joined_listLines hinner.2 hentries, Partition.sql_eq_head_contents,
          Partition.contents_of_ne_nil hinner.2, PartitionSpec.head_eq, hkeyword, hopening,
          hclosing, hseparator]
        simp only [Text.joined, String.append_assoc]
      · dsimp only
        rw [if_neg hinner]
        refine tab_sql_of_contents ?_
        by_cases hexplicit : p.explicitSubpartitions = true
        · exact Partition.contents_of_eq_nil (by simpa [hexplicit] using hinner) _
        · rw [if_neg hexplicit, Partition.contents_none]

theorem closed_of_mem_partitionLines (h : q.RawClosed) :
    ∀ line ∈ p.partitionLines method q, Closed line := by
  have hkeyword : Closed "\tPARTITION " := by decide
  have hhead : Closed ("\tPARTITION " ++ q.name) := hkeyword.append h.definition.name
  have hdetails := PartitionSpec.closed_details h.definition method
  have hsingle : Closed ("\tPARTITION " ++ q.name ++ (q.details method ++ q.engineClause)) :=
    hhead.append (hdetails.append (PartitionSpec.closed_engineClause h.definition))
  unfold partitionLines
  cases p.subMethod with
  | none => exact List.forall_mem_singleton.mpr hsingle
  | some subMethod =>
      dsimp only
      split
      · have hlist : ∀ line ∈ listLines (q.subpartitions.map fun s =>
            [s.subpartitionLine subMethod]), Closed line := by
          refine closed_of_mem_listLines (List.forall_mem_map.mpr fun s hs => ?_)
          exact List.forall_mem_singleton.mpr
            (PartitionSpec.closed_subpartitionLine (h.subpartitions s hs) subMethod)
        refine List.forall_mem_cons.mpr ⟨hhead.append hdetails, List.forall_mem_cons.mpr
          ⟨by decide, List.forall_mem_append.mpr ⟨hlist, List.forall_mem_singleton.mpr ?_⟩⟩⟩
        decide
      · exact List.forall_mem_singleton.mpr hsingle

/-- Behind the line of the method, the line of the subpartitions' method starts with its line
feed. -/
theorem joined_subMethodLines (p : Partitioning) {first : String} {rest : List String}
    (hrest : rest ≠ []) :
    Text.joined "\n" (first :: p.subMethodLines ++ rest) =
      first ++ p.subpartitionClause ++ "\n" ++ Text.joined "\n" rest := by
  have hkeyword : "\nSUBPARTITION BY " = "\n" ++ "SUBPARTITION BY " := by decide
  rw [Text.joined_append (by simp) hrest]
  unfold subMethodLines subpartitionClause
  cases p.subMethod with
  | none => simp [Text.joined]
  | some subMethod => simp only [Text.joined, hkeyword, String.append_assoc]

theorem joined_clauseLines (hlisted : p.explicitPartitions = true) (hne : p.partitions ≠ [])
    (method : PartitionMethod) : Text.joined "\n" (p.clauseLines method) = p.sqlBy method := by
  have hlines : listLines (p.partitions.map (p.partitionLines method)) ≠ [] :=
    listLines_ne_nil (by simpa using hne)
      (List.forall_mem_map.mpr fun q _ => p.partitionLines_ne_nil method q)
  have hlist := joined_listLines hne fun q _ =>
    ⟨p.partitionLines_ne_nil method q, p.joined_partitionLines method q⟩
  have hopening : "\n(\n\t" = "\n" ++ "(" ++ "\n" ++ "\t" := by decide
  have hclosing : "\n)" = "\n" ++ ")" := by decide
  have hseparator : ",\n" ++ "\t" = ",\n\t" := by decide
  unfold clauseLines sqlBy methodLine
  rw [joined_subMethodLines p (List.cons_ne_nil _ _), Text.joined_cons_of_ne_nil (by simp),
    Text.joined_append hlines (by simp), hlist, if_pos hlisted,
    partitionList_of_listed hlisted hne, hopening, hclosing, hseparator]
  simp only [Text.joined, String.append_empty, String.append_assoc]

theorem closed_of_mem_clauseLines (h : p.RawClosed) :
    ∀ line ∈ p.clauseLines method, Closed line := by
  have hopening : Closed "(" := by decide
  have hclosing : Closed ")" := by decide
  have hkeyword (m : PartitionMethod) : Closed m.keyword := by
    cases m <;> decide
  have hfirst : Closed (p.methodLine method) :=
    ((((by decide : Closed "PARTITION BY ").append (hkeyword method)).append hopening).append
      h.expression).append hclosing
  have hsecond : ∀ line ∈ p.subMethodLines, Closed line := by
    unfold subMethodLines
    cases p.subMethod with
    | none => exact nofun
    | some subMethod =>
        refine List.forall_mem_singleton.mpr (Closed.append ?_ ?_)
        · exact ((((by decide : Closed "SUBPARTITION BY ").append (hkeyword subMethod)).append
            hopening).append h.subExpression).append hclosing
        · split
          · decide
          · exact (by decide : Closed " SUBPARTITIONS ").append (closed_toString _)
  have hlist : ∀ line ∈ listLines (p.partitions.map (p.partitionLines method)), Closed line :=
    closed_of_mem_listLines (List.forall_mem_map.mpr fun q hq =>
      closed_of_mem_partitionLines (h.partitions q hq))
  exact List.forall_mem_append.mpr ⟨List.forall_mem_cons.mpr ⟨hfirst, hsecond⟩,
    List.forall_mem_cons.mpr ⟨hopening, List.forall_mem_append.mpr
      ⟨hlist, List.forall_mem_singleton.mpr hclosing⟩⟩⟩

/-- The clause of a partitioning that lists its partitions is cut into the line of its method, the
line of the method for subpartitions if there is one, and between two parentheses the lines of
each partition, in their order. -/
theorem lines_sql (hmethod : p.method = some method) (hlisted : p.explicitPartitions = true)
    (hne : p.partitions ≠ []) (hclosed : p.RawClosed) :
    lines p.sql =
      p.methodLine method :: p.subMethodLines ++
        "(" :: (listLines (p.partitions.map (p.partitionLines method)) ++ [")"]) := by
  have hsql : p.sql = p.sqlBy method := by
    unfold sql
    rw [hmethod]
  rw [hsql, ← joined_clauseLines hlisted hne]
  exact lines_joined (List.cons_ne_nil _ _) (closed_of_mem_clauseLines hclosed)

/-- A range with listed subpartitions and one without any, and line feeds in the comments. -/
def unevenRanges : Partitioning where
  method := some .range
  expression := "`i\nd`"
  explicitPartitions := true
  subMethod := some .hash
  subExpression := "k"
  explicitSubpartitions := true
  partitions :=
    [⟨⟨"p0", "10", "InnoDB", "it's\n\\"⟩, [⟨"s0", "", "InnoDB", "\n"⟩, ⟨"s1", "", "InnoDB", ""⟩]⟩,
      ⟨⟨"p1", "MAXVALUE", "InnoDB", ""⟩, []⟩]

theorem lines_sql_unevenRanges :
    unevenRanges.method = some .range ∧ unevenRanges.explicitPartitions = true ∧
      unevenRanges.partitions ≠ [] ∧ unevenRanges.RawClosed ∧
      lines unevenRanges.sql =
        ["PARTITION BY RANGE(`i\nd`)", "SUBPARTITION BY HASH(k)", "(",
          "\tPARTITION p0 VALUES LESS THAN (10) COMMENT='it\\'s\n\\\\'", "\t(",
          "\t\tSUBPARTITION s0 COMMENT='\n' ENGINE=InnoDB,", "\t\tSUBPARTITION s1 ENGINE=InnoDB",
          "\t),", "\tPARTITION p1 VALUES LESS THAN MAXVALUE ENGINE=InnoDB", ")"] := by
  have hne : unevenRanges.partitions ≠ [] := by decide
  have hengine : Closed "InnoDB" := by decide
  have hempty : Closed "" := by decide
  have hclosed : unevenRanges.RawClosed := by
    refine ⟨by decide, by decide, List.forall_mem_cons.mpr
      ⟨⟨⟨by decide, by decide, hengine⟩, ?_⟩, List.forall_mem_singleton.mpr
        ⟨⟨by decide, by decide, hengine⟩, nofun⟩⟩⟩
    exact List.forall_mem_cons.mpr ⟨⟨by decide, hempty, hengine⟩,
      List.forall_mem_singleton.mpr ⟨by decide, hempty, hengine⟩⟩
  refine ⟨rfl, rfl, hne, hclosed, (lines_sql rfl rfl hne hclosed).trans ?_⟩
  decide

end Partitioning

end DictionaryDdl
