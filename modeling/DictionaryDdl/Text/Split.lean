/-!
Cutting a text at separators and joining it again. `pieces` keeps empty pieces, so a text always
has one piece more than it has separators, and `cutAt` stops at the first separator.
-/

namespace DictionaryDdl.Text

/-- The pieces of a text between the separators, empty ones included. -/
def pieces (separator : Char) : List Char → List (List Char)
  | [] => [[]]
  | c :: rest =>
      if c = separator then
        [] :: pieces separator rest
      else
        match pieces separator rest with
        | [] => [[c]]
        | piece :: more => (c :: piece) :: more

/-- What stands before and after the first separator. -/
def cutAt (separator : Char) : List Char → Option (List Char × List Char)
  | [] => none
  | c :: rest =>
      if c = separator then
        some ([], rest)
      else
        (cutAt separator rest).map fun (before, after) => (c :: before, after)

/-- The texts one after another with the separator between them. -/
def joined (separator : String) : List String → String
  | [] => ""
  | [text] => text
  | text :: more => text ++ separator ++ joined separator more

end DictionaryDdl.Text
