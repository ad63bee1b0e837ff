import DictionaryDdl.Json.Mismatch
import DictionaryDdl.Text.Hexadecimal

/-!
The lexical elements of JSON: blanks, words, numbers and strings. Each scanner takes what
remains of the text and gives back the element and the rest. A number is first scanned into its
digits and valued afterwards.
-/

namespace DictionaryDdl.Json

/-- What reads a value at the head of a text and gives back the text after it. -/
abbrev Scanner (α : Type) := List Char → Except Error (α × List Char)

/-- The four blanks of JSON. -/
def isBlank (c : Char) : Bool :=
  c == ' ' || c == '\t' || c == '\n' || c == '\r'

def skipBlanks (cs : List Char) : List Char :=
  cs.dropWhile isBlank

/-- Scans the letters of a word. -/
def word : List Char → List Char → Except Error (List Char)
  | [], cs => .ok cs
  | _ :: _, [] => .error .truncated
  | w :: more, c :: rest => if c = w then word more rest else .error .malformed

/-- The digits of a number: whether it is negative, its whole part, its fraction, which is empty
when there is no point, and its exponent with its sign. -/
structure Numeral where
  negative : Bool
  whole : List Char
  fraction : List Char
  exponent : Option (Bool × List Char)

/-- What is wrong when digits are wanted and none stand there. -/
def noDigit (cs : List Char) : Error :=
  if cs.isEmpty then .truncated else .malformed

/-- A whole part: a zero alone, or digits that start with another digit. -/
def scanWhole : Scanner (List Char)
  | '0' :: rest =>
      match rest with
      | c :: _ => if Text.isDigit c then .error .malformed else .ok (['0'], rest)
      | [] => .ok (['0'], [])
  | cs =>
      match cs.takeWhile Text.isDigit with
      | [] => .error (noDigit cs)
      | digits => .ok (digits, cs.dropWhile Text.isDigit)

/-- A fraction, if a point stands here. -/
def scanFraction : Scanner (List Char)
  | '.' :: rest =>
      match rest.takeWhile Text.isDigit with
      | [] => .error (noDigit rest)
      | digits => .ok (digits, rest.dropWhile Text.isDigit)
  | cs => .ok ([], cs)

/-- The sign of an exponent, `true` for minus, and what follows it. -/
def exponentSign : List Char → Bool × List Char
  | '+' :: rest => (false, rest)
  | '-' :: rest => (true, rest)
  | cs => (false, cs)

/-- An exponent, if its letter stands here. -/
def scanExponent : Scanner (Option (Bool × List Char))
  | cs@(c :: rest) =>
      if c = 'e' ∨ c = 'E' then
        let (negative, rest) := exponentSign rest
        match rest.takeWhile Text.isDigit with
        | [] => .error (noDigit rest)
        | digits => .ok (some (negative, digits), rest.dropWhile Text.isDigit)
      else
        .ok (none, cs)
  | [] => .ok (none, [])

/-- A number in the grammar of JSON. -/
def scanNumeral : Scanner Numeral := fun cs => do
  let (negative, cs) := match cs with
    | '-' :: rest => (true, rest)
    | cs => (false, cs)
  let (whole, cs) ← scanWhole cs
  let (fraction, cs) ← scanFraction cs
  let (exponent, cs) ← scanExponent cs
  return (⟨negative, whole, fraction, exponent⟩, cs)

/-- The number that digits stand for. -/
def natural (digits : List Char) : Nat :=
  (Text.readDigits? 0 digits).getD 0

/-- Extends a significand by digits as long as it stays below `2 ^ 64`, and counts the digits
taken. -/
def extend (significand : Nat) : List Char → Nat × Nat
  | [] => (significand, 0)
  | c :: rest =>
      let next := 10 * significand + natural [c]
      if next < UInt64.size then
        let (final, taken) := extend next rest
        (final, taken + 1)
      else
        (significand, 0)

/-- `x * 10 ^ exponent` in doubles, by one multiplication or by divisions of at most `10 ^ 308`
each; nothing when the result is too large for a double. -/
def scale? : Nat → Float → Int → Option Float
  | 0, x, _ => some x
  | fuel + 1, x, exponent =>
      if exponent.natAbs ≤ 308 then
        let power := Float.ofScientific 1 false exponent.natAbs
        if exponent ≥ 0 then
          let product := x * power
          if product.isInf then none else some product
        else
          some (x / power)
      else if x == 0.0 then some x
      else if exponent ≥ 0 then none
      else scale? fuel (x / Float.ofScientific 1 false 308) (exponent + 308)

/-- The power of ten that an exponent part asks for. -/
def Numeral.exponentValue (n : Numeral) : Int :=
  match n.exponent with
  | none => 0
  | some (true, digits) => -(natural digits : Int)
  | some (false, digits) => natural digits

/-- The double of a number. Its significand holds the leading digits that fit sixty-four bits;
the digits of the whole part beyond them count as powers of ten. -/
def Numeral.double? (n : Numeral) : Option Float :=
  let (head, wholeTaken) := extend 0 n.whole
  let (significand, fractionTaken) := extend head n.fraction
  let exponent : Int :=
    (n.whole.length : Int) - wholeTaken - fractionTaken + n.exponentValue
  (scale? (exponent.natAbs + 1) (UInt64.ofNat significand).toFloat exponent).map fun x =>
    if n.negative then -x else x

/-- The value of a number: an integer where it has neither fraction nor exponent and fits
sixty-four bits, otherwise a double. Minus zero is a double. -/
def Numeral.number? (n : Numeral) : Option Number :=
  let value := natural n.whole
  if n.fraction.isEmpty ∧ n.exponent.isNone ∧ n.negative = false ∧ value < UInt64.size then
    some (.integer value)
  else if n.fraction.isEmpty ∧ n.exponent.isNone ∧ n.negative = true ∧
      0 < value ∧ value ≤ UInt64.size / 2 then
    some (.integer (-(value : Int)))
  else
    n.double?.map .double

/-- A number with its value. -/
def scanNumber : Scanner Number := fun cs => do
  let (numeral, rest) ← scanNumeral cs
  match numeral.number? with
  | some n => .ok (n, rest)
  | none => .error .malformed

/-- The four hexadecimal digits of an escape. The text is cut short where fewer than four octets
are left of it. -/
def hexUnit : Scanner Nat
  | a :: b :: c :: d :: rest =>
      match Text.hexDigit? a, Text.hexDigit? b, Text.hexDigit? c, Text.hexDigit? d with
      | some a, some b, some c, some d => .ok (((a * 16 + b) * 16 + c) * 16 + d, rest)
      | _, _, _, _ => .error .malformed
  | cs =>
      let octets := cs.foldl (fun size c => size + c.utf8Size) 0
      .error (if octets < 4 then .truncated else .malformed)

/-- The second half of a surrogate pair, as an escape of its own. -/
def lowSurrogate : Scanner Nat
  | [] | ['\\'] => .error .truncated
  | '\\' :: 'u' :: rest => do
      let (unit, rest) ← hexUnit rest
      if 0xDC00 ≤ unit ∧ unit ≤ 0xDFFF then .ok (unit, rest) else .error .malformed
  | _ => .error .malformed

/-- The character of a `\u` escape, whose surrogates must come in pairs. -/
def unicodeEscape : Scanner Char := fun cs => do
  let (unit, rest) ← hexUnit cs
  if 0xDC00 ≤ unit ∧ unit ≤ 0xDFFF then
    .error .malformed
  else if 0xD800 ≤ unit ∧ unit ≤ 0xDBFF then
    let (low, rest) ← lowSurrogate rest
    .ok (Char.ofNat (0x10000 + (unit - 0xD800) * 0x400 + (low - 0xDC00)), rest)
  else
    .ok (Char.ofNat unit, rest)

/-- The character that a letter after a backslash stands for. -/
def simpleEscape? : Char → Option Char
  | '"' => some '"'
  | '\\' => some '\\'
  | '/' => some '/'
  | 'b' => some '\x08'
  | 'f' => some '\x0C'
  | 'n' => some '\n'
  | 'r' => some '\r'
  | 't' => some '\t'
  | _ => none

/-- The character of an escape, after its backslash. -/
def escape : Scanner Char
  | [] => .error .truncated
  | 'u' :: rest => unicodeEscape rest
  | c :: rest =>
      match simpleEscape? c with
      | some x => .ok (x, rest)
      | none => .error .malformed

/-- An escape whose `\u` may name any unit, surrogates without partner included. -/
def lenientEscape : Scanner Char
  | [] => .error .truncated
  | 'u' :: rest => do
      let (unit, rest) ← hexUnit rest
      .ok (Char.ofNat unit, rest)
  | c :: rest =>
      match simpleEscape? c with
      | some x => .ok (x, rest)
      | none => .error .malformed

/-- The characters of a string up to its closing quote, at most `fuel` of them; `readEscape`
reads what follows a backslash. -/
def stringBody (readEscape : Scanner Char) : Nat → Scanner (List Char)
  | 0, _ => .error .truncated
  | _ + 1, [] => .error .truncated
  | fuel + 1, c :: rest =>
      if c = '"' then .ok ([], rest)
      else if c = '\\' then do
        let (x, rest) ← readEscape rest
        let (body, rest) ← stringBody readEscape fuel rest
        .ok (x :: body, rest)
      else if c.toNat < 0x20 then .error .malformed
      else do
        let (body, rest) ← stringBody readEscape fuel rest
        .ok (c :: body, rest)

/-- A string after its opening quote, of less than `limit` characters. -/
def scanString (limit : Nat) : Scanner String := fun cs => do
  let (body, rest) ← stringBody escape limit cs
  .ok (String.ofList body, rest)

end DictionaryDdl.Json
