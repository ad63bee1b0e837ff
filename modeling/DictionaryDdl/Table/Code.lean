/-!
The closed vocabularies of the dictionary and the codes they are stored by. Each vocabulary reads
a code, refusing those outside it, and names the keyword of a statement.
-/

namespace DictionaryDdl

inductive IndexKind where
  | primary | unique | multiple | fullText | spatial
  deriving DecidableEq, Repr

def IndexKind.ofCode? (code : UInt32) : Option IndexKind :=
  match code.toNat with
  | 1 => some primary
  | 2 => some unique
  | 3 => some multiple
  | 4 => some fullText
  | 5 => some spatial
  | _ => none

/-- The keywords that an index definition of a kind starts with. -/
def IndexKind.keyword : IndexKind → String
  | primary => "PRIMARY KEY"
  | unique => "UNIQUE INDEX"
  | multiple => "INDEX"
  | fullText => "FULLTEXT"
  | spatial => "SPATIAL INDEX"

inductive RowFormat where
  | fixed | dynamic | compressed | redundant | compact | paged
  deriving DecidableEq, Repr

def RowFormat.ofCode? (code : UInt32) : Option RowFormat :=
  match code.toNat with
  | 1 => some fixed
  | 2 => some dynamic
  | 3 => some compressed
  | 4 => some redundant
  | 5 => some compact
  | 6 => some paged
  | _ => none

def RowFormat.keyword : RowFormat → String
  | fixed => "FIXED"
  | dynamic => "DYNAMIC"
  | compressed => "COMPRESSED"
  | redundant => "REDUNDANT"
  | compact => "COMPACT"
  | paged => "PAGED"

/-- What a foreign key does to the rows that refer to a row when that row goes away. -/
inductive ReferentialAction where
  | noAction | restrict | cascade | setNull | setDefault
  deriving DecidableEq, Repr

def ReferentialAction.ofCode? (code : UInt32) : Option ReferentialAction :=
  match code.toNat with
  | 1 => some noAction
  | 2 => some restrict
  | 3 => some cascade
  | 4 => some setNull
  | 5 => some setDefault
  | _ => none

def ReferentialAction.keyword : ReferentialAction → String
  | noAction => "NO ACTION"
  | restrict => "RESTRICT"
  | cascade => "CASCADE"
  | setNull => "SET NULL"
  | setDefault => "SET DEFAULT"

inductive PartitionMethod where
  | hash | key | linearHash | linearKey | range | rangeColumns | list | listColumns
  deriving DecidableEq, Repr

/-- The method of a partition code; code 0 stands for a table without partitions. The key
methods have a second code for an older hashing algorithm. -/
def PartitionMethod.ofCode? (code : UInt32) : Option (Option PartitionMethod) :=
  match code.toNat with
  | 0 => some none
  | 1 => some (some hash)
  | 2 | 3 => some (some key)
  | 4 => some (some linearHash)
  | 5 | 6 => some (some linearKey)
  | 7 => some (some range)
  | 8 => some (some list)
  | 9 => some (some rangeColumns)
  | 10 => some (some listColumns)
  | _ => none

/-- The method of a subpartition code: subpartitions can only be hashed. -/
def PartitionMethod.ofSubCode? (code : UInt32) : Option (Option PartitionMethod) :=
  if code ≤ 6 then ofCode? code else none

def PartitionMethod.keyword : PartitionMethod → String
  | hash => "HASH"
  | key => "KEY"
  | linearHash => "LINEAR HASH"
  | linearKey => "LINEAR KEY"
  | range => "RANGE"
  | rangeColumns => "RANGE COLUMNS"
  | list => "LIST"
  | listColumns => "LIST COLUMNS"

end DictionaryDdl
