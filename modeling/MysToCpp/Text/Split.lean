/-
# Pieces of a text

`splitAt` cuts a text at each mark.  There is always a piece: a text without marks is one, and marks
side by side have an empty one between them.
-/

namespace MysToCpp.Text

/-- Puts a character in front of the first piece. -/
def consToFirst (c : Char) : List (List Char) → List (List Char)
  | [] => [[c]]
  | piece :: rest => (c :: piece) :: rest

/-- The pieces of a text between its marks. -/
def splitAt (mark : Char) : List Char → List (List Char)
  | [] => [[]]
  | c :: cs => if c = mark then [] :: splitAt mark cs else consToFirst c (splitAt mark cs)

end MysToCpp.Text
