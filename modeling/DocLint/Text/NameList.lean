import DocLint.Text.Blank

/-!
# Comma Lists of Names

A text may list several names, separated by commas. White space around a name is no part of it, and empty
pieces are no names.
-/

namespace DocLint.Text

/-- The pieces between the commas of a text; a text without a comma is one piece. -/
def splitCommas : List Char → List (List Char)
  | [] => [[]]
  | c :: rest =>
    if c = ',' then [] :: splitCommas rest
    else
      -- There is always a first piece, which this character belongs to.
      match splitCommas rest with
      | [] => [[c]]
      | piece :: pieces => (c :: piece) :: pieces

/-- The names that a text lists, in order. A name that is listed twice is there twice. -/
def namesOf (s : String) : List String :=
  (((splitCommas s.toList).map trim).filter fun piece => !piece.isEmpty).map String.ofList

end DocLint.Text
