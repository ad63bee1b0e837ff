/-!
Reading octets as text. The strict reading is the library's own; the lenient one replaces what
is not UTF-8 by U+FFFD, one replacement for each longest run of octets that starts a character
without completing it.
-/

namespace DictionaryDdl.Text

/-- The octets of a text. -/
def octets (s : String) : ByteArray :=
  s.toUTF8

/-- The text that octets stand for, if they are UTF-8. -/
def strictText? (content : ByteArray) : Option String :=
  String.fromUTF8? content

/-- The octets that may follow a lead octet: how many there are, and the range of the first of
them. -/
def followers? (lead : UInt8) : Option (Nat × UInt8 × UInt8) :=
  if 0xC2 ≤ lead ∧ lead ≤ 0xDF then some (1, 0x80, 0xBF)
  else if lead = 0xE0 then some (2, 0xA0, 0xBF)
  else if lead = 0xED then some (2, 0x80, 0x9F)
  else if 0xE1 ≤ lead ∧ lead ≤ 0xEF then some (2, 0x80, 0xBF)
  else if lead = 0xF0 then some (3, 0x90, 0xBF)
  else if lead = 0xF4 then some (3, 0x80, 0x8F)
  else if 0xF1 ≤ lead ∧ lead ≤ 0xF3 then some (3, 0x80, 0xBF)
  else none

/-- The continuation octets at the head of a text, at most `count`, the first of them between
`low` and `high`. -/
def continuations (low high : UInt8) : Nat → List UInt8 → List UInt8
  | 0, _ => []
  | _, [] => []
  | count + 1, b :: rest =>
      if low ≤ b ∧ b ≤ high then b :: continuations 0x80 0xBF count rest else []

/-- The payload bits of a lead octet that announces `count` further octets. -/
def leadBits (lead : UInt8) (count : Nat) : Nat :=
  match count with
  | 1 => lead.toNat % 0x20
  | 2 => lead.toNat % 0x10
  | _ => lead.toNat % 0x08

/-- The first character of a text and how many octets it takes. -/
def lenientHead (lead : UInt8) (rest : List UInt8) : Char × Nat :=
  if lead < 0x80 then
    (Char.ofNat lead.toNat, 1)
  else
    match followers? lead with
    | none => ('\uFFFD', 1)
    | some (count, low, high) =>
        let found := continuations low high count rest
        if found.length = count then
          (Char.ofNat (found.foldl (fun n b => 0x40 * n + b.toNat % 0x40) (leadBits lead count)),
            count + 1)
        else
          ('\uFFFD', found.length + 1)

/-- The lenient reading of octets after the next `skipped` ones, which belong to a character
that has been read. -/
def lenientAfter (skipped : Nat) : List UInt8 → List Char
  | [] => []
  | b :: rest =>
      match skipped with
      | n + 1 => lenientAfter n rest
      | 0 =>
          let (c, taken) := lenientHead b rest
          c :: lenientAfter (taken - 1) rest

/-- The text of octets, with replacements for what is not UTF-8. -/
def lenientText (content : ByteArray) : String :=
  match strictText? content with
  | some s => s
  | none => String.ofList (lenientAfter 0 content.toList)

end DictionaryDdl.Text
