import DictionaryDdl.Json.Lexeme

/-!
Reading a JSON text into a value. Arrays and objects may stand at most `maxDepth` deep inside one
another. A text is refused at its first fault; it counts as truncated where the fault is its end,
and as malformed otherwise. The readers of strings, arrays and objects are given a `limit`, which
is more than the length of the whole text, so that they never reach it.
-/

namespace DictionaryDdl.Json

/-- How many arrays and objects may stand inside one another. -/
def maxDepth : Nat := 127

/-- The items of an array after the first one, at most `fuel` of them. -/
def moreItems {α : Type} (item : Scanner α) : Nat → Scanner (List α)
  | 0, _ => .error .truncated
  | fuel + 1, cs =>
      match skipBlanks cs with
      | [] => .error .truncated
      | ']' :: rest => .ok ([], rest)
      | ',' :: rest => do
          let (x, rest) ← item rest
          let (xs, rest) ← moreItems item fuel rest
          .ok (x :: xs, rest)
      | _ => .error .malformed

/-- The items of an array after its opening bracket. -/
def items {α : Type} (limit : Nat) (item : Scanner α) : Scanner (List α) := fun cs =>
  match skipBlanks cs with
  | ']' :: rest => .ok ([], rest)
  | cs => do
      let (x, rest) ← item cs
      let (xs, rest) ← moreItems item limit rest
      .ok (x :: xs, rest)

/-- Passes the colon between the name and the value of a member. -/
def colon (cs : List Char) : Except Error (List Char) :=
  match skipBlanks cs with
  | [] => .error .truncated
  | ':' :: rest => .ok rest
  | _ => .error .malformed

/-- The opening quote of a member's name. -/
def nameQuote (cs : List Char) : Except Error (List Char) :=
  match skipBlanks cs with
  | [] => .error .truncated
  | '"' :: rest => .ok rest
  | _ => .error .malformed

/-- The members of an object after the first one, at most `fuel` of them. -/
def moreMembers {α : Type} (member : Scanner α) : Nat → Scanner (List α)
  | 0, _ => .error .truncated
  | fuel + 1, cs =>
      match skipBlanks cs with
      | [] => .error .truncated
      | '}' :: rest => .ok ([], rest)
      | ',' :: rest => do
          let (x, rest) ← member rest
          let (xs, rest) ← moreMembers member fuel rest
          .ok (x :: xs, rest)
      | _ => .error .malformed

/-- The members of an object after its opening brace. -/
def members {α : Type} (limit : Nat) (member : Scanner α) : Scanner (List α) := fun cs =>
  match skipBlanks cs with
  | '}' :: rest => .ok ([], rest)
  | cs => do
      let (x, rest) ← member cs
      let (xs, rest) ← moreMembers member limit rest
      .ok (x :: xs, rest)

/-- A member: its name and its value. -/
def member (limit : Nat) (value : Scanner Json) : Scanner (String × Json) := fun cs => do
  let rest ← nameQuote cs
  let (name, rest) ← scanString limit rest
  let rest ← colon rest
  let (x, rest) ← value rest
  .ok ((name, x), rest)

/-- A value with at most `depth` arrays and objects inside one another. -/
def value (limit depth : Nat) : Scanner Json := fun cs =>
  match skipBlanks cs with
  | [] => .error .truncated
  | 'n' :: rest => do .ok (.null, ← word "ull".toList rest)
  | 't' :: rest => do .ok (.bool true, ← word "rue".toList rest)
  | 'f' :: rest => do .ok (.bool false, ← word "alse".toList rest)
  | '"' :: rest => do
      let (s, rest) ← scanString limit rest
      .ok (.string s, rest)
  | '[' :: rest =>
      match depth with
      | 0 => .error .malformed
      | inner + 1 => do
          let (xs, rest) ← items limit (value limit inner) rest
          .ok (.array xs, rest)
  | '{' :: rest =>
      match depth with
      | 0 => .error .malformed
      | inner + 1 => do
          let (xs, rest) ← members limit (member limit (value limit inner)) rest
          .ok (ofMembers xs, rest)
  | c :: rest =>
      if c = '-' ∨ Text.isDigit c then do
        let (n, rest) ← scanNumber (c :: rest)
        .ok (.number n, rest)
      else
        .error .malformed

/-- Accepts a text after whose value only blanks follow. -/
def complete {α : Type} : Except Error (α × List Char) → Except Error α
  | .error e => .error e
  | .ok (x, rest) => if (skipBlanks rest).isEmpty then .ok x else .error .malformed

/-- The value of a JSON text. -/
def parse (text : String) : Except Error Json :=
  let cs := text.toList
  complete (value (cs.length + 1) maxDepth cs)

end DictionaryDdl.Json
