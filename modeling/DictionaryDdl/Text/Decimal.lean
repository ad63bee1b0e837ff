/-!
Unsigned decimal numbers with a bound. A number may carry one plus sign; nothing else beside
ASCII digits is allowed, and a value that reaches the bound is not a number at all.
-/

namespace DictionaryDdl.Text

/-- The value of an ASCII digit. -/
def digit? (c : Char) : Option Nat :=
  if '0' ≤ c ∧ c ≤ '9' then some (c.toNat - '0'.toNat) else none

/-- Whether a character is an ASCII digit. -/
def isDigit (c : Char) : Bool :=
  (digit? c).isSome

/-- The number that digits stand for after `value` has been read. -/
def readDigits? (value : Nat) : List Char → Option Nat
  | [] => some value
  | c :: rest => do
      let d ← digit? c
      readDigits? (10 * value + d) rest

/-- A non-empty run of digits. -/
def readNatural? : List Char → Option Nat
  | [] => none
  | cs => readDigits? 0 cs

/-- An unsigned number below `bound`, with an optional plus sign. -/
def readUnsigned? (bound : Nat) (cs : List Char) : Option Nat :=
  let number := match cs with
    | '+' :: digits => readNatural? digits
    | digits => readNatural? digits
  number.filter (· < bound)

/-- An unsigned number of sixty-four bits. -/
def readUInt64? (s : String) : Option UInt64 :=
  (readUnsigned? UInt64.size s.toList).map UInt64.ofNat

/-- The decimal digits of a word. -/
def ofUInt64 (n : UInt64) : String :=
  toString n.toNat

end DictionaryDdl.Text
