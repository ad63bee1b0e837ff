import DictionaryDdl.Json.Reader

/-!
Passing over a value without keeping it. What is passed over is checked less strictly than what
is read: it may be nested to any depth, its escapes may name lone surrogates and its numbers may
be too large for a double. A number that breaks off at the end of the text counts as malformed.
-/

namespace DictionaryDdl.Json

/-- A number that is passed over. -/
def skipNumber (cs : List Char) : Except Error (List Char) :=
  match scanNumeral cs with
  | .ok (_, rest) => .ok rest
  | .error _ => .error .malformed

/-- A string that is passed over, after its opening quote. -/
def skipString (limit : Nat) (cs : List Char) : Except Error (List Char) := do
  let (_, rest) ← stringBody lenientEscape limit cs
  .ok rest

/-- A scanner that only moves on, as one that gives a value. -/
def passing (skip : List Char → Except Error (List Char)) : Scanner Unit := fun cs => do
  let rest ← skip cs
  .ok ((), rest)

/-- A member that is passed over. -/
def skipMember (limit : Nat) (skipValue : List Char → Except Error (List Char))
    (cs : List Char) : Except Error (List Char) := do
  let rest ← nameQuote cs
  let rest ← skipString limit rest
  let rest ← colon rest
  skipValue rest

/-- Passes over a value that is nested less than `fuel` deep. -/
def skipNested (limit : Nat) : Nat → List Char → Except Error (List Char)
  | 0, _ => .error .truncated
  | fuel + 1, cs =>
      match skipBlanks cs with
      | [] => .error .truncated
      | 'n' :: rest => word "ull".toList rest
      | 't' :: rest => word "rue".toList rest
      | 'f' :: rest => word "alse".toList rest
      | '"' :: rest => skipString limit rest
      | '[' :: rest => do
          let (_, rest) ← items limit (passing (skipNested limit fuel)) rest
          .ok rest
      | '{' :: rest => do
          let (_, rest) ← members limit (passing (skipMember limit (skipNested limit fuel))) rest
          .ok rest
      | c :: rest =>
          if c = '-' ∨ Text.isDigit c then skipNumber (c :: rest) else .error .malformed

/-- Passes over a value; no value is nested deeper than its text is long. -/
def skipValue (limit : Nat) : List Char → Except Error (List Char) :=
  skipNested limit limit

end DictionaryDdl.Json
