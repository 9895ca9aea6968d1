/-
# Source files

A `SourceFile` is a named text that diagnostics refer to.  It answers two questions: what stands
on a line, and which position a byte offset has.  Both go through the table of the byte offsets
at which lines start and through `slice?`, which cuts a text at two byte offsets and refuses to
cut a character in two.
-/
import MysToCpp.Source.Position

namespace MysToCpp

/-- Number of UTF-8 bytes of a text. -/
def byteLength : List Char → Nat
  | [] => 0
  | c :: cs => c.utf8Size + byteLength cs

/-- The text behind the first `n` bytes; `none` if that cuts a character or there are fewer. -/
def dropBytes? : Nat → List Char → Option (List Char)
  | 0, cs => some cs
  | _ + 1, [] => none
  | n + 1, c :: cs => if c.utf8Size ≤ n + 1 then dropBytes? (n + 1 - c.utf8Size) cs else none
  termination_by structural _ cs => cs

/-- The first `n` bytes of a text; `none` if that cuts a character or there are fewer. -/
def takeBytes? : Nat → List Char → Option (List Char)
  | 0, _ => some []
  | _ + 1, [] => none
  | n + 1, c :: cs =>
    if c.utf8Size ≤ n + 1 then (takeBytes? (n + 1 - c.utf8Size) cs).map (c :: ·) else none
  termination_by structural _ cs => cs

/-- The text between two byte offsets, if both are character boundaries in order. -/
def slice? (lo hi : Nat) (cs : List Char) : Option (List Char) :=
  if lo ≤ hi then (dropBytes? lo cs).bind (takeBytes? (hi - lo)) else none

/-- A named source text. -/
structure SourceFile where
  name : String
  content : String
  deriving DecidableEq, Repr, Inhabited

namespace SourceFile

def chars (file : SourceFile) : List Char := file.content.toList

/-- The offsets behind each line feed of `cs`, which itself starts at byte `offset`. -/
def startsAfter (offset : Nat) : List Char → List Nat
  | [] => []
  | c :: cs =>
    let next := offset + c.utf8Size
    if c = '\n' then next :: startsAfter next cs else startsAfter next cs

/-- The byte offset at which each line starts. -/
def lineStarts (file : SourceFile) : List Nat := 0 :: startsAfter 0 file.chars

/-- Number of lines; a text without a line feed has one. -/
def lineCount (file : SourceFile) : Nat := file.lineStarts.length

/-- Drops the carriage returns at the end of a line. -/
def dropReturns (cs : List Char) : List Char :=
  (cs.reverse.dropWhile (· = '\r')).reverse

/-- The text of line `n`, counted from one, without its terminator. -/
def lineText? (file : SourceFile) (n : Nat) : Option (List Char) :=
  match n with
  | 0 => none
  | k + 1 => do
    let start ← file.lineStarts[k]?
    let stop := match file.lineStarts[k + 1]? with
      | some next => next - 1
      | none => byteLength file.chars
    dropReturns <$> slice? start stop file.chars

/-- The position of a byte offset; the column is one if the offset is no character boundary. -/
def positionAt (file : SourceFile) (offset : Nat) : Position :=
  let before := file.lineStarts.takeWhile (· ≤ offset)
  let lineStart := before.getLast?.getD 0
  let width := match slice? lineStart offset file.chars with
    | some cs => cs.length
    | none => 0
  ⟨before.length, width + 1, offset⟩

end SourceFile

end MysToCpp
