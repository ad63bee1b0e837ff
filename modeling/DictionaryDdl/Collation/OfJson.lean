import DictionaryDdl.Collation.Basic
import DictionaryDdl.Json.Record
import DictionaryDdl.Json.Skip

/-!
Collations and catalogues as JSON. They are read in two ways: out of a value, and in one pass
over a text. The pass reports whichever fault comes first in the text, be it of its form or of
its content; it knows of a missing field at the end of its object and of a repeated one at its
second name. As in the other reader, `limit` is more than the length of the text.
-/

namespace DictionaryDdl.Collation

open Json

def record : RecordType where
  name := "struct CharsetEntry"
  fields := ["id", "collation_name", "charset_name", "max_bytes_per_char"]

def toJson (c : Collation) : Json :=
  .object
    [("id", .ofNat c.id.toNat), ("collation_name", .string c.name),
      ("charset_name", .string c.charset), ("max_bytes_per_char", .ofNat c.maxBytesPerChar.toNat)]

def ofJson (value : Json) : Except Mismatch Collation := do
  let fields ← record.fieldsOf value
  let id := fields.read "id" asUInt32
  let name := fields.read "collation_name" asString
  let charset := fields.read "charset_name" asString
  let width := fields.read "max_bytes_per_char" asUInt32
  fields.check
    [("id", id.fault?), ("collation_name", name.fault?), ("charset_name", charset.fault?),
      ("max_bytes_per_char", width.fault?)]
  let id ← fields.require "id" id
  let name ← fields.require "collation_name" name
  let charset ← fields.require "charset_name" charset
  let width ← fields.require "max_bytes_per_char" width
  fields.close ⟨id, name, charset, width⟩

/-- A catalogue as an array of its entries in ascending order. -/
def Catalog.toJson (catalog : Catalog) : Json :=
  .array (catalog.entries.map Collation.toJson)

def Catalog.ofJson (value : Json) : Except Mismatch Catalog :=
  (asList Collation.ofJson value).map Catalog.ofList

/-- What is wrong when something of another type is wanted here: the fault of the text that
stands here or, if it is good so far, its type. -/
def unexpected (limit : Nat) (wanted : String) (cs : List Char) : Json.Error :=
  let wrong (found : Found) : Json.Error := .mismatch (.wrongType found wanted)
  match cs with
  | [] => .truncated
  | 'n' :: rest => match word "ull".toList rest with
      | .error e => e
      | .ok _ => wrong .null
  | 't' :: rest => match word "rue".toList rest with
      | .error e => e
      | .ok _ => wrong (.bool true)
  | 'f' :: rest => match word "alse".toList rest with
      | .error e => e
      | .ok _ => wrong (.bool false)
  | '"' :: rest => match scanString limit rest with
      | .error e => e
      | .ok (s, _) => wrong (.string s)
  | '[' :: _ => wrong .sequence
  | '{' :: _ => wrong .map
  | c :: rest =>
      if c = '-' ∨ Text.isDigit c then
        match scanNumber (c :: rest) with
        | .error e => e
        | .ok (n, _) => wrong (Json.number n).found
      else
        .malformed

/-- Reads a word of thirty-two bits. -/
def readUInt32 (limit : Nat) : Scanner UInt32 := fun cs => do
  let cs := skipBlanks cs
  if cs.head?.any fun c => c = '-' ∨ Text.isDigit c then
    let (n, rest) ← scanNumber cs
    let value ← (asUInt32 (.number n)).mapError .mismatch
    .ok (value, rest)
  else
    .error (unexpected limit "u32" cs)

/-- Reads a string. -/
def readString (limit : Nat) : Scanner String := fun cs =>
  match skipBlanks cs with
  | '"' :: rest => scanString limit rest
  | cs => .error (unexpected limit "a string" cs)

/-- Reads a field of an entry given as an array; the entry ends too early where its closing
bracket stands. -/
def readPosition {α : Type} (position : Nat) (field : Scanner α) : Scanner α := fun cs =>
  match skipBlanks cs with
  | [] => .error .truncated
  | ']' :: _ => .error (.mismatch (.tooShort position record.sized))
  | ',' :: rest => if position = 0 then .error .malformed else field rest
  | cs => if position = 0 then field cs else .error .malformed

/-- Reads an entry given as an array of its fields, after its opening bracket. -/
def readArray (limit : Nat) : Scanner Collation := fun cs => do
  let (id, cs) ← readPosition 0 (readUInt32 limit) cs
  let (name, cs) ← readPosition 1 (readString limit) cs
  let (charset, cs) ← readPosition 2 (readString limit) cs
  let (width, cs) ← readPosition 3 (readUInt32 limit) cs
  match skipBlanks cs with
  | [] => .error .truncated
  | ']' :: rest => .ok (⟨id, name, charset, width⟩, rest)
  | _ => .error .malformed

/-- The fields of an entry that have been read so far. -/
structure Partial where
  id : Option UInt32 := none
  name : Option String := none
  charset : Option String := none
  width : Option UInt32 := none

/-- The entry, once the object that gives its fields is at its end. -/
def Partial.finish (fields : Partial) : Except Json.Error Collation :=
  match fields.id, fields.name, fields.charset, fields.width with
  | none, _, _, _ => .error (.mismatch (.missingField "id"))
  | _, none, _, _ => .error (.mismatch (.missingField "collation_name"))
  | _, _, none, _ => .error (.mismatch (.missingField "charset_name"))
  | _, _, _, none => .error (.mismatch (.missingField "max_bytes_per_char"))
  | some id, some name, some charset, some width => .ok ⟨id, name, charset, width⟩

/-- Reads the value of a field after its name, unless the field has been read before. -/
def readField {α : Type} (name : String) (known : Option α) (field : Scanner α) :
    Scanner α := fun cs =>
  match known with
  | some _ => .error (.mismatch (.duplicateField name))
  | none => do field (← colon cs)

/-- Reads a member of an entry given as an object. -/
def readMember (limit : Nat) (fields : Partial) : Scanner Partial := fun cs => do
  let (name, cs) ← scanString limit (← nameQuote cs)
  match name with
  | "id" => do
      let (x, cs) ← readField name fields.id (readUInt32 limit) cs
      .ok ({ fields with id := some x }, cs)
  | "collation_name" => do
      let (x, cs) ← readField name fields.name (readString limit) cs
      .ok ({ fields with name := some x }, cs)
  | "charset_name" => do
      let (x, cs) ← readField name fields.charset (readString limit) cs
      .ok ({ fields with charset := some x }, cs)
  | "max_bytes_per_char" => do
      let (x, cs) ← readField name fields.width (readUInt32 limit) cs
      .ok ({ fields with width := some x }, cs)
  | _ => do .ok (fields, ← skipValue limit (← colon cs))

/-- Reads the members of an entry after the first one, at most `fuel` of them. -/
def readMembers (limit : Nat) : Nat → Partial → Scanner Collation
  | 0, _, _ => .error .truncated
  | fuel + 1, fields, cs =>
      match skipBlanks cs with
      | [] => .error .truncated
      | '}' :: rest => do .ok (← fields.finish, rest)
      | ',' :: rest => do
          let (fields, rest) ← readMember limit fields rest
          readMembers limit fuel fields rest
      | _ => .error .malformed

/-- Reads an entry given as an object, after its opening brace. -/
def readObject (limit : Nat) : Scanner Collation := fun cs =>
  match skipBlanks cs with
  | '}' :: rest => do .ok (← Partial.finish {}, rest)
  | cs => do
      let (fields, rest) ← readMember limit {} cs
      readMembers limit limit fields rest

/-- Reads an entry. -/
def readEntry (limit : Nat) : Scanner Collation := fun cs =>
  match skipBlanks cs with
  | '[' :: rest => readArray limit rest
  | '{' :: rest => readObject limit rest
  | cs => .error (unexpected limit record.name cs)

/-- Reads a catalogue in one pass over its text. -/
def Catalog.read (text : String) : Except Json.Error Catalog :=
  let limit := text.toList.length + 1
  let entries := match skipBlanks text.toList with
    | '[' :: rest => items limit (readEntry limit) rest
    | cs => .error (unexpected limit "a sequence" cs)
  (complete entries).map Catalog.ofList

end DictionaryDdl.Collation
