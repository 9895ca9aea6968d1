/-
# Lines, indentation and margins

A line ends at a line feed, or at a carriage return with a line feed behind it; the text behind the
last line feed is a line only if there is some.  On lines stand the two layout changes that
generated code needs: `indent` and `dedent` by one level of four spaces, which drop empty lines,
and `dropMargin`, which removes the blanks that all non-blank lines start with.
-/
import MysToCpp.Text.Blank
import MysToCpp.Text.Split

namespace MysToCpp.Text

/-- The lines of a text, without their ends. -/
def lines : List Char → List (List Char)
  | [] => []
  | '\r' :: '\n' :: cs => [] :: lines cs
  | c :: cs => if c = '\n' then [] :: lines cs else consToFirst c (lines cs)

def joinLines (ls : List (List Char)) : List Char := ['\n'].intercalate ls

/-- The spaces of one level of indentation. -/
def level : List Char := [' ', ' ', ' ', ' ']

def filledLines (cs : List Char) : List (List Char) :=
  (lines cs).filter (!·.isEmpty)

/-- Takes `start` off the front of `cs` if it stands there. -/
def dropStart (start cs : List Char) : List Char :=
  if start.isPrefixOf cs then cs.drop start.length else cs

/-- Moves every line that is not empty one level to the right and drops the empty ones. -/
def indentChars (cs : List Char) : List Char :=
  joinLines ((filledLines cs).map (level ++ ·))

/-- Moves every line that is not empty one level to the left, if it has one, and drops the empty
ones. -/
def dedentChars (cs : List Char) : List Char :=
  joinLines ((filledLines cs).map (dropStart level))

def indent (s : String) : String := .ofList (indentChars s.toList)

def dedent (s : String) : String := .ofList (dedentChars s.toList)

def isBlankLine (line : List Char) : Bool := line.all isBlank

/-- The longest common start of two texts. -/
def commonStart : List Char → List Char → List Char
  | a :: as, b :: bs => if a = b then a :: commonStart as bs else []
  | _, _ => []

/-- The blanks that every line of a list starts with; none for an empty list. -/
def commonMargin : List (List Char) → List Char
  | [] => []
  | line :: rest =>
    rest.foldl (fun margin other => commonStart margin (other.takeWhile isBlank))
      (line.takeWhile isBlank)

/-- Removes from every line the blanks that all non-blank lines start with; a line of blanks
becomes empty. -/
def dropMargin (cs : List Char) : List Char :=
  let margin := commonMargin ((lines cs).filter (!isBlankLine ·))
  joinLines ((lines cs).map fun line => if isBlankLine line then [] else dropStart margin line)

end MysToCpp.Text
