import DictionaryDdl.Text.Hexadecimal
import DictionaryDdl.Text.Utf8

/-!
Octets written as a percent sign and two hexadecimal digits. A text in form encoding writes a
blank as a plus sign besides; a percent sign that no two digits follow stands for itself. There
are as many octets as the text means, so that a character may be spread over several signs.
-/

namespace DictionaryDdl.Text

/-- An octet as a percent sign and two digits, in capital letters. -/
def percentEncoded (octet : UInt8) : List Char :=
  let digits := (Nat.toDigits 16 octet.toNat).map Char.toUpper
  '%' :: (if digits.length < 2 then '0' :: digits else digits)

/-- The octets that a text in form encoding stands for. -/
def formOctets : List Char → List UInt8
  | [] => []
  | '+' :: rest => 0x20 :: formOctets rest
  | '%' :: a :: b :: rest =>
      match hexDigit? a, hexDigit? b with
      | some high, some low => UInt8.ofNat (16 * high + low) :: formOctets rest
      | _, _ => 0x25 :: formOctets (a :: b :: rest)
  | c :: rest => (octets c.toString).toList ++ formOctets rest

/-- The text that a text in form encoding stands for. -/
def formDecoded (cs : List Char) : String :=
  lenientText ⟨(formOctets cs).toArray⟩

end DictionaryDdl.Text
