import DictionaryDdl.Text.Decimal

/-!
JSON values. Integers are exact; every other number is a double. The members of an object are
kept in the order in which they are to be written. A reader puts them in ascending order of
their names, the last of several members of one name being the one that stays.
-/

namespace DictionaryDdl

/-- A JSON number: an integer of sixty-four bits, with or without sign, or a double. -/
inductive Json.Number where
  | integer (value : Int)
  | double (value : Float)
  deriving Inhabited

inductive Json where
  | null
  | bool (value : Bool)
  | number (value : Json.Number)
  | string (value : String)
  | array (items : List Json)
  | object (members : List (String × Json))
  deriving Inhabited

namespace Json

/-- An integer as a value. -/
def ofInt (n : Int) : Json :=
  .number (.integer n)

/-- A natural number as a value. -/
def ofNat (n : Nat) : Json :=
  .number (.integer n)

/-- An optional value, `null` when there is none. -/
def ofOption {α : Type} (toJson : α → Json) : Option α → Json
  | none => .null
  | some x => toJson x

/-- The value of a member, if the value is an object that has it. -/
def get? (name : String) : Json → Option Json
  | .object members => members.lookup name
  | _ => none

/-- Puts a member into a list in ascending order of names, in the place of one of its name. -/
def insertMember (name : String) (value : Json) : List (String × Json) → List (String × Json)
  | [] => [(name, value)]
  | (other, kept) :: more =>
      if name < other then (name, value) :: (other, kept) :: more
      else if name = other then (name, value) :: more
      else (other, kept) :: insertMember name value more

/-- The members in ascending order of names, the last one of each name. -/
def sortedMembers (members : List (String × Json)) : List (String × Json) :=
  members.foldl (fun sorted (name, value) => insertMember name value sorted) []

/-- An object with its members in ascending order of names. -/
def ofMembers (members : List (String × Json)) : Json :=
  .object (sortedMembers members)

mutual

/-- How many arrays and objects stand inside one another. -/
def depth : Json → Nat
  | .array items => depthOfItems items + 1
  | .object members => depthOfMembers members + 1
  | _ => 0

def depthOfItems : List Json → Nat
  | [] => 0
  | item :: more => max (depth item) (depthOfItems more)

def depthOfMembers : List (String × Json) → Nat
  | [] => 0
  | (_, value) :: more => max (depth value) (depthOfMembers more)

end

end Json

end DictionaryDdl
