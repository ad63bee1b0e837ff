import DictionaryDdl.Text.CaseTables

/-!
Lower-casing of texts. Every character is mapped on its own, with two rules beside the table: a
dotted capital I becomes an i and a combining dot, and a capital sigma becomes the final sigma
where it ends a word, that is after a cased character and not before one, case-ignorable
characters being passed over on both sides.
-/

namespace DictionaryDdl.Text

def isCased (c : Char) : Bool :=
  CodePoints.contains c.toNat casedPoints

def isCaseIgnorable (c : Char) : Bool :=
  CodePoints.contains c.toNat caseIgnorablePoints

/-- The lower-case partner in the table, if there is one. -/
def lowerPartner? (n : Nat) : List (Nat × Nat × Nat × Nat) → Option Nat
  | [] => none
  | (first, last, step, image) :: more =>
      if n < first then none
      else if n ≤ last ∧ (n - first) % step = 0 then some (image + (n - first))
      else lowerPartner? n more

/-- The lower-case form of a character outside any context. -/
def lowerChar (c : Char) : Char :=
  if c.toNat < 0x80 then
    c.toLower
  else
    match lowerPartner? c.toNat lowerRuns with
    | some n => Char.ofNat n
    | none => c

/-- Whether the first character that is not case-ignorable has case. -/
def startsCased (cs : List Char) : Bool :=
  match cs.dropWhile isCaseIgnorable with
  | [] => false
  | c :: _ => isCased c

/-- Lower-casing of what follows `before`, which holds the preceding characters, nearest
first. -/
def lowerAfter (before : List Char) : List Char → List Char
  | [] => []
  | c :: rest =>
      let image :=
        if c = '\u03A3' then
          [if startsCased before && !startsCased rest then '\u03C2' else '\u03C3']
        else if c = '\u0130' then
          ['i', '\u0307']
        else
          [lowerChar c]
      image ++ lowerAfter (c :: before) rest

/-- The lower-case form of a text. -/
def lowerCase (cs : List Char) : List Char :=
  lowerAfter [] cs

/-- The lower-case form of the ASCII letters of a text; other characters stay. -/
def asciiLowerCase (cs : List Char) : List Char :=
  cs.map Char.toLower

end DictionaryDdl.Text
