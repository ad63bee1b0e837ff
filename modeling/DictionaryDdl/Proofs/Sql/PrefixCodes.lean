import DictionaryDdl.Proofs.Sql.NameReading
import DictionaryDdl.Proofs.Sql.TextReading

/-!
Both kinds of quotation as prefix codes. What was quoted comes back in front of every text that does
not go on with the mark, so quoting loses nothing. A quotation also ends in one place only: if a
statement that starts with it is cut behind some complete quotation, in whatever spelling the server
takes, and what follows the cut does not go on with the mark, then the cut is behind the mark that
was written last.

The condition on what follows cannot be left out, since a mark there would be taken for the second
half of a doubled one.
-/

namespace DictionaryDdl.Sql

/-- A reader takes a quotation off the front of a statement. It gives what is quoted, and what is
left. -/
abbrev Reader := List Char → Option (List Char × List Char)

/-- A way of quoting by a mark that a reader undoes. -/
structure IsPrefixCode (quote : String → String) (read : Reader) (mark : Char) : Prop where
  read_append : ∀ text rest : String, rest.toList.head? ≠ some mark →
    read (quote text ++ rest).toList = some (text.toList, rest.toList)
  injective : Function.Injective quote
  /-- Nothing but the quotation itself can be taken for it, in front of what cannot go on with it. -/
  ends_once : ∀ (text rest whole back : String) (content : List Char),
    rest.toList.head? ≠ some mark → back.toList.head? ≠ some mark →
    read whole.toList = some (content, []) → quote text ++ rest = whole ++ back →
    whole = quote text ∧ back = rest

variable {quote : String → String} {read : Reader} {mark : Char}

/-- It is enough that the reader gets back what was quoted, and that a complete quotation stays one
in front of every text that does not go on with the mark. -/
theorem IsPrefixCode.of_read
    (hquote : ∀ (text : String) (rest : List Char), rest.head? ≠ some mark →
      read ((quote text).toList ++ rest) = some (text.toList, rest))
    (hwhole : ∀ whole back content : List Char, back.head? ≠ some mark →
      read whole = some (content, []) → read (whole ++ back) = some (content, back)) :
    IsPrefixCode quote read mark := by
  constructor
  · intro text rest hrest
    rw [String.toList_append]
    exact hquote text rest.toList hrest
  · intro a b hab
    apply String.toList_injective
    exact (Text.cancel_of_read (hquote a [] (by simp)) (hquote b [] (by simp)) (by rw [hab])).1
  · intro text rest whole back content hrest hback hcontent htext
    have hlists : (quote text).toList ++ rest.toList = whole.toList ++ back.toList := by
      rw [← String.toList_append, htext, String.toList_append]
    have hsame : back = rest := by
      apply String.toList_injective
      exact (Text.cancel_of_read (hquote text rest.toList hrest)
        (hwhole whole.toList back.toList content hback hcontent) hlists).2.symm
    rw [hsame] at hlists
    exact ⟨String.toList_injective (List.append_cancel_right hlists).symm, hsame⟩

/-- Names between backticks and strings between single quotes are read back by the server, whatever
characters they hold, and nothing in them can end the quotation early. -/
theorem isPrefixCode_quotes :
    IsPrefixCode identifier readName backtick ∧ IsPrefixCode literal readText '\'' := by
  constructor
  · apply IsPrefixCode.of_read
    · intro name rest hrest
      rw [toList_identifier]
      exact readName_quoteName name.toList hrest
    · intro whole back content hback hcontent
      exact readName_append hback hcontent
  · apply IsPrefixCode.of_read
    · intro text rest hrest
      rw [toList_literal]
      exact readText_quoteText text.toList hrest
    · intro whole back content hback hcontent
      exact readText_append hback hcontent

/-- A mark next to the marks, U+0000 before a digit, and a backslash at the end. -/
example : readText (literal "'\x001\\" ++ ", 'b'").toList =
    some ("'\x001\\".toList, ", 'b'".toList) := by decide +kernel

end DictionaryDdl.Sql
