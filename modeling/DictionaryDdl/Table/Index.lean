import DictionaryDdl.Table.Column

/-!
The indexes of a table. Hidden indexes and hidden elements are dropped, and so is an index that
has no other elements. An element on a column of the string family is a prefix, whose length the
dictionary gives in octets and the definition in characters.
-/

namespace DictionaryDdl

structure IndexElement where
  columnOrdinal : UInt32
  columnName : String
  /-- The stored length in octets. -/
  lengthBytes : UInt64
  /-- The length of the prefix in characters, if the element is a prefix. -/
  prefixChars : Option UInt64
  deriving DecidableEq, Repr

structure Index where
  name : String
  kind : IndexKind
  elements : List IndexElement
  deriving DecidableEq, Repr

/-- The column at a position counted from zero. -/
def columnAt (columns : List Column) (user : ColumnUser) (position : UInt32) :
    Except DecodeError Column :=
  match columns[position.toNat]? with
  | some column => .ok column
  | none => .error (.danglingColumn user position)

namespace Index

/-- The prefix length of an element on a column, in characters. -/
def prefixCharsOf (column : Column) (length : UInt64) : Option UInt64 :=
  match column.collation with
  | some collation =>
      if length = Sdi.fullColumn then none else some (collation.bytesToChars length)
  | none => none

/-- The element of a dictionary entry. -/
def elementOfSdi (columns : List Column) (index : String) (element : Sdi.IndexElement) :
    Except DecodeError IndexElement := do
  let column ← columnAt columns (.index index) element.columnPosition
  return {
    columnOrdinal := column.ordinal
    columnName := column.name
    lengthBytes := element.length
    prefixChars := prefixCharsOf column element.length }

/-- The index of a dictionary entry, without its hidden elements. -/
def ofSdi (columns : List Column) (index : Sdi.Index) : Except DecodeError Index := do
  let kind ← IndexKind.ofCode index.kindCode
  let elements ← (index.elements.filter (!·.hidden)).mapM (elementOfSdi columns index.name)
  return { name := index.name, kind, elements }

/-- The indexes of a table, in the order of the dictionary. -/
def listOfSdi (columns : List Column) (indexes : List Sdi.Index) :
    Except DecodeError (List Index) := do
  let visible ← (indexes.filter (!·.hidden)).mapM (ofSdi columns)
  return visible.filter (!·.elements.isEmpty)

end Index

end DictionaryDdl
