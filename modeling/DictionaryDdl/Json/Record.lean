import DictionaryDdl.Json.Mismatch

/-!
Taking records out of JSON values. A record is an object or an array of its fields in the order
of their declaration. The fields are examined in the order in which the value gives them, and
the first bad one is reported; only then a missing field is, the first in declaration order.
Members that name no field are ignored.
-/

namespace DictionaryDdl.Json

def asString : Json → Except Mismatch String
  | .string s => .ok s
  | other => .error (.wrongType other.found "a string")

def asBool : Json → Except Mismatch Bool
  | .bool b => .ok b
  | other => .error (.wrongType other.found "a boolean")

def asUInt32 : Json → Except Mismatch UInt32
  | .number (.integer n) =>
      if 0 ≤ n ∧ n < UInt32.size then .ok (UInt32.ofNat n.toNat)
      else .error (.outOfRange n "u32")
  | other => .error (.wrongType other.found "u32")

def asUInt64 : Json → Except Mismatch UInt64
  | .number (.integer n) =>
      if 0 ≤ n ∧ n < UInt64.size then .ok (UInt64.ofNat n.toNat)
      else .error (.outOfRange n "u64")
  | other => .error (.wrongType other.found "u64")

def asList {α : Type} (item : Json → Except Mismatch α) : Json → Except Mismatch (List α)
  | .array items => items.mapM item
  | other => .error (.wrongType other.found "a sequence")

/-- A kind of record: how messages call it, and its fields in the order of their declaration. -/
structure RecordType where
  name : String
  fields : List String

/-- How messages call a record together with its number of fields. -/
def RecordType.sized (type : RecordType) : String :=
  type.name ++ " with " ++ toString type.fields.length ++
    (if type.fields.length = 1 then " element" else " elements")

/-- What a value gives for a record: its fields in the order in which they are examined, what to
say of a field that is missing, and what is wrong with the value once all its fields are good. -/
structure Fields where
  given : List (String × Json)
  missing : String → Mismatch
  surplus : Option Mismatch

/-- The fields that a value gives for a record. -/
def RecordType.fieldsOf (type : RecordType) : Json → Except Mismatch Fields
  | .object members => .ok ⟨members, .missingField, none⟩
  | .array items =>
      .ok {
        given := type.fields.zip items
        missing := fun name => .tooShort (type.fields.idxOf name) type.sized
        surplus :=
          if items.length > type.fields.length then some (.tooLong items.length) else none }
  | other => .error (.wrongType other.found type.name)

/-- A field as it was read: absent, good or bad. -/
abbrev Field (α : Type) := Option (Except Mismatch α)

/-- Reads a field. -/
def Fields.read {α : Type} (fields : Fields) (name : String)
    (decode : Json → Except Mismatch α) : Field α :=
  (fields.given.lookup name).map decode

/-- What is wrong with a field that is there. -/
def Field.fault? {α : Type} : Field α → Option Mismatch
  | some (.error reason) => some reason
  | _ => none

/-- The first fault among the fields, in the order in which they are examined. -/
def Fields.firstFault? (fields : Fields) (faults : List (String × Option Mismatch)) :
    Option Mismatch :=
  fields.given.findSome? fun (name, _) => (faults.lookup name).join

/-- A field that has to be there. -/
def Fields.require {α : Type} (fields : Fields) (name : String) : Field α → Except Mismatch α
  | some result => result
  | none => .error (fields.missing name)

/-- A field that may be left out. -/
def Field.orDefault {α : Type} (field : Field α) (fallback : α) : Except Mismatch α :=
  match field with
  | some result => result
  | none => .ok fallback

/-- Refuses a record that has a bad field. -/
def Fields.check (fields : Fields) (faults : List (String × Option Mismatch)) :
    Except Mismatch Unit :=
  match fields.firstFault? faults with
  | some reason => .error reason
  | none => .ok ()

/-- Refuses a record that gives more than its fields. -/
def Fields.close {α : Type} (fields : Fields) (record : α) : Except Mismatch α :=
  match fields.surplus with
  | some reason => .error reason
  | none => .ok record

end DictionaryDdl.Json
