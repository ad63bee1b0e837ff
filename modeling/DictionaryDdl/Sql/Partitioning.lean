import DictionaryDdl.Sql.Quoting
import DictionaryDdl.Table.Partitioning

/-!
The text of a partition clause. At each level either the definitions are listed or only their
number is written; the number of subpartitions is the one of the first partition.
-/

namespace DictionaryDdl

/-- The values that a partition takes, by the method of its level. -/
def PartitionSpec.valuesClause (p : PartitionSpec) : PartitionMethod → String
  | .list | .listColumns => " VALUES IN (" ++ p.values ++ ")"
  | .range =>
      if p.values = "MAXVALUE" then " VALUES LESS THAN MAXVALUE"
      else " VALUES LESS THAN (" ++ p.values ++ ")"
  | .rangeColumns => " VALUES LESS THAN (" ++ p.values ++ ")"
  | .hash | .key | .linearHash | .linearKey => ""

/-- The keyword and the name of a partition, its values and its comment. -/
def PartitionSpec.head (p : PartitionSpec) (keyword : String) (method : PartitionMethod) :
    String :=
  keyword ++ " " ++ p.name ++ p.valuesClause method ++
    (if p.comment.isEmpty then "" else " COMMENT=" ++ Sql.literal p.comment)

def PartitionSpec.engineClause (p : PartitionSpec) : String :=
  " ENGINE=" ++ p.engine

/-- The definition of a subpartition. -/
def PartitionSpec.subpartitionSql (p : PartitionSpec) (method : PartitionMethod) : String :=
  p.head "SUBPARTITION" method ++ p.engineClause

/-- The definition of a partition. Where subpartitions are listed, which the presence of their
method says, they take the place of the engine. -/
def Partition.sql (p : Partition) (method : PartitionMethod)
    (listed : Option PartitionMethod) : String :=
  p.head "PARTITION" method ++
    match listed, p.subpartitions with
    | some subMethod, first :: more =>
        "\n\t(\n\t\t" ++
          Text.joined ",\n\t\t" ((first :: more).map (·.subpartitionSql subMethod)) ++ "\n\t)"
    | _, _ => p.engineClause

namespace Partitioning

/-- The subpartitions' method, expression and, unless they are listed, number. -/
def subpartitionClause (p : Partitioning) : String :=
  match p.subMethod with
  | none => ""
  | some method =>
      "\nSUBPARTITION BY " ++ method.keyword ++ "(" ++ p.subExpression ++ ")" ++
        if p.explicitSubpartitions then ""
        else " SUBPARTITIONS " ++ toString (firstCount p.partitions)

/-- The method by which the subpartitions are listed, if they are. -/
def listedSubMethod (p : Partitioning) : Option PartitionMethod :=
  if p.explicitSubpartitions then p.subMethod else none

/-- The partitions, where they are listed. -/
def partitionList (p : Partitioning) (method : PartitionMethod) : String :=
  if p.explicitPartitions ∧ p.partitions ≠ [] then
    "\n(\n\t" ++ Text.joined ",\n\t" (p.partitions.map (·.sql method p.listedSubMethod)) ++ "\n)"
  else ""

/-- The clause of a partitioning by a method. -/
def sqlBy (p : Partitioning) (method : PartitionMethod) : String :=
  "PARTITION BY " ++ method.keyword ++ "(" ++ p.expression ++ ")" ++
    (if p.explicitPartitions then "" else " PARTITIONS " ++ toString p.partitions.length) ++
    p.subpartitionClause ++ p.partitionList method

/-- The partition clause; nothing for a table that is not partitioned. -/
def sql (p : Partitioning) : String :=
  match p.method with
  | none => ""
  | some method => p.sqlBy method

end Partitioning

end DictionaryDdl
