import DictionaryDdl.Sdi.Basic
import DictionaryDdl.Table.Error

/-!
How a table is divided into partitions. Partitions may have subpartitions, and those have none.
At each level the definitions are either listed one by one or derived by the server from a count.
-/

namespace DictionaryDdl

/-- The definition of a partition or subpartition, apart from what it contains. -/
structure PartitionSpec where
  name : String
  /-- The list of values or the bound; empty for hashing. -/
  values : String
  engine : String
  comment : String
  deriving DecidableEq, Repr

structure Partition extends PartitionSpec where
  subpartitions : List PartitionSpec
  deriving DecidableEq, Repr

structure Partitioning where
  /-- Absent for a table that is not partitioned. -/
  method : Option PartitionMethod := none
  expression : String := ""
  explicitPartitions : Bool := false
  subMethod : Option PartitionMethod := none
  subExpression : String := ""
  explicitSubpartitions : Bool := false
  partitions : List Partition := []
  deriving DecidableEq, Repr

namespace Partition

/-- A partition with subpartitions, none of which may have subpartitions of its own. -/
def withSubpartitions (spec : PartitionSpec) (subpartitions : List Partition) :
    Except DecodeError Partition :=
  match subpartitions.find? (!·.subpartitions.isEmpty) with
  | some nested =>
      .error (.inconsistentPartitioning (.nestedSubpartition nested.name spec.name))
  | none => .ok { spec with subpartitions := subpartitions.map (·.toPartitionSpec) }

mutual

/-- The partition of a dictionary entry; its subpartitions come before itself. -/
def ofSdi : Sdi.Partition → Except DecodeError Partition
  | { name, description, engine, comment, subpartitions } => do
      let inner ← listOfSdi subpartitions
      withSubpartitions { name, values := description, engine, comment } inner

def listOfSdi : List Sdi.Partition → Except DecodeError (List Partition)
  | [] => .ok []
  | partition :: more => do
      let first ← ofSdi partition
      let rest ← listOfSdi more
      return first :: rest

end

end Partition

namespace Partitioning

def isPartitioned (p : Partitioning) : Bool :=
  p.method.isSome

/-- The flag of a level whose definitions are listed one by one. -/
def explicitFlag : UInt32 := 1

/-- The number of subpartitions of the first partition. -/
def firstCount (partitions : List Partition) : Nat :=
  match partitions with
  | [] => 0
  | first :: _ => first.subpartitions.length

/-- Checks that all partitions have as many subpartitions as the first one, and it has some. -/
def checkCounts (partitions : List Partition) : Except DecodeError Unit :=
  let expected := firstCount partitions
  if expected = 0 then
    .error (.inconsistentPartitioning .noSubpartition)
  else
    match partitions.find? (·.subpartitions.length != expected) with
    | some p =>
        .error (.inconsistentPartitioning
          (.unequalCount p.name p.subpartitions.length expected))
    | none => .ok ()

/-- Checks that no partition has subpartitions. -/
def checkUndivided (partitions : List Partition) : Except DecodeError Unit :=
  match partitions.find? (!·.subpartitions.isEmpty) with
  | some p => .error (.inconsistentPartitioning (.straySubpartitions p.name))
  | none => .ok ()

/-- Checks the subpartitions against their method: without one there are none, and where only
their number is written it is the same everywhere. -/
def checkSubpartitions (subMethod : Option PartitionMethod) (explicit : Bool)
    (partitions : List Partition) : Except DecodeError Unit :=
  match subMethod with
  | none => checkUndivided partitions
  | some _ => if explicit then .ok () else checkCounts partitions

/-- The partitioning of a table by a method. -/
def byMethod (table : Sdi.Table) (method : PartitionMethod)
    (subMethod : Option PartitionMethod) : Except DecodeError Partitioning := do
  if table.partitions.isEmpty then
    .error (.inconsistentPartitioning (.noPartition method))
  else
    let explicitSubpartitions := table.defaultSubpartitioning == explicitFlag
    let partitions ← Partition.listOfSdi table.partitions
    checkSubpartitions subMethod explicitSubpartitions partitions
    return {
      method := some method
      expression := table.partitionExpression
      explicitPartitions := table.defaultPartitioning == explicitFlag
      subMethod
      subExpression := table.subpartitionExpression
      explicitSubpartitions
      partitions }

/-- The partitioning of a table. -/
def ofSdi (table : Sdi.Table) : Except DecodeError Partitioning := do
  let method ← PartitionMethod.ofCode table.partitionType
  let subMethod ← PartitionMethod.ofSubCode table.subpartitionType
  match method, subMethod with
  | none, some _ => .error (.inconsistentPartitioning .subMethodAlone)
  | none, none => .ok {}
  | some method, subMethod => byMethod table method subMethod

end Partitioning

end DictionaryDdl
