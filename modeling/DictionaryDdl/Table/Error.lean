import DictionaryDdl.Json.Mismatch
import DictionaryDdl.Table.Code

/-!
Why a table cannot be rebuilt from its dictionary document, and how each reason is worded.
-/

namespace DictionaryDdl

/-- The vocabularies that a code may be unknown to. -/
inductive CodeKind where
  | indexType | rowFormat | partitionMethod | subpartitionMethod | foreignKeyRule
  deriving DecidableEq, Repr

def CodeKind.name : CodeKind → String
  | indexType => "index type"
  | rowFormat => "row format"
  | partitionMethod => "partition method"
  | subpartitionMethod => "subpartition method"
  | foreignKeyRule => "foreign key rule"

/-- How partitions and their methods can contradict one another. -/
inductive PartitioningFault where
  | subMethodAlone
  | noPartition (method : PartitionMethod)
  | nestedSubpartition (subpartition partition : String)
  | straySubpartitions (partition : String)
  | noSubpartition
  | unequalCount (partition : String) (found expected : Nat)
  deriving DecidableEq, Repr

def PartitioningFault.message : PartitioningFault → String
  | subMethodAlone => "subpartition method set without a partition method"
  | noPartition method => method.keyword ++ " partitioning without any partition"
  | nestedSubpartition subpartition partition =>
      "subpartition '" ++ subpartition ++ "' of partition '" ++ partition ++
        "' has subpartitions"
  | straySubpartitions partition =>
      "partition '" ++ partition ++ "' has subpartitions but no subpartition method is set"
  | noSubpartition => "subpartition method set but no subpartition found"
  | unequalCount partition found expected =>
      "partition '" ++ partition ++ "' has " ++ toString found ++
        " subpartition(s), expected " ++ toString expected

/-- What refers to columns by their position. -/
inductive ColumnUser where
  | index (name : String)
  | foreignKey (name : String)
  deriving DecidableEq, Repr

def ColumnUser.name : ColumnUser → String
  | index name => "Index '" ++ name ++ "'"
  | foreignKey name => "Foreign key '" ++ name ++ "'"

/-- Why a table cannot be rebuilt. -/
inductive DecodeError where
  | unknownCollation (id : UInt32)
  | unknownCode (kind : CodeKind) (code : UInt32)
  | inconsistentPartitioning (fault : PartitioningFault)
  | danglingColumn (user : ColumnUser) (position : UInt32)
  | duplicateOrdinal (position : Nat)
  | ordinalGap (expected found : Nat)
  | document (reason : Json.Error)

def DecodeError.message : DecodeError → String
  | unknownCollation id => "Unknown collation id: " ++ toString id.toNat
  | unknownCode kind code => "Unknown " ++ kind.name ++ " code: " ++ toString code.toNat
  | inconsistentPartitioning fault => "Inconsistent partitioning: " ++ fault.message
  | danglingColumn user position =>
      user.name ++ " references column position " ++ toString position.toNat ++
        ", which does not exist"
  | duplicateOrdinal position =>
      "Column ordinal position " ++ toString position ++ " is used more than once"
  | ordinalGap expected found =>
      "Column ordinal positions are not dense: expected " ++ toString expected ++
        ", found " ++ toString found
  | document (.mismatch reason) => "Invalid dictionary document: " ++ reason.message
  | document _ => "Invalid dictionary document"

/-- What a code stands for, or the error that it is unknown. -/
def known {α : Type} (kind : CodeKind) (code : UInt32) : Option α → Except DecodeError α
  | some meaning => .ok meaning
  | none => .error (.unknownCode kind code)

def IndexKind.ofCode (code : UInt32) : Except DecodeError IndexKind :=
  known .indexType code (ofCode? code)

def RowFormat.ofCode (code : UInt32) : Except DecodeError RowFormat :=
  known .rowFormat code (ofCode? code)

def ReferentialAction.ofCode (code : UInt32) : Except DecodeError ReferentialAction :=
  known .foreignKeyRule code (ofCode? code)

def PartitionMethod.ofCode (code : UInt32) : Except DecodeError (Option PartitionMethod) :=
  known .partitionMethod code (ofCode? code)

def PartitionMethod.ofSubCode (code : UInt32) : Except DecodeError (Option PartitionMethod) :=
  known .subpartitionMethod code (ofSubCode? code)

end DictionaryDdl
