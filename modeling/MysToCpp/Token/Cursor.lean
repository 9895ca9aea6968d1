/-
# Cursors

A `Cursor` stands in a text: it holds the characters that are still to be read and the position of
the first of them.  Everything the lexer reads, it reads through `Cursor.next?`, `Cursor.takeWhile` and
`Cursor.skip`, which keep the two in step.
-/
import MysToCpp.Source.Position

namespace MysToCpp

/-- A place in a text with the characters behind it. -/
structure Cursor where
  rest : List Char
  position : Position := .origin
  deriving DecidableEq, Repr, Inhabited

namespace Cursor

def peek? (c : Cursor) : Option Char := c.rest.head?

def peekSecond? (c : Cursor) : Option Char := c.rest[1]?

def next? (c : Cursor) : Option (Char × Cursor) :=
  match c.rest with
  | [] => none
  | x :: xs => some (x, ⟨xs, c.position.after x⟩)

/-- Moves over one character, if there is one. -/
def skip (c : Cursor) : Cursor :=
  match c.next? with
  | some (_, c') => c'
  | none => c

/-- Reads the longest run of characters that satisfy `p`. -/
def takeWhile (p : Char → Bool) (c : Cursor) : List Char × Cursor :=
  let run := c.rest.takeWhile p
  (run, ⟨c.rest.dropWhile p, c.position.afterAll run⟩)

/-- Reads at most `n` characters of the run of characters that satisfy `p`. -/
def takeAtMost (n : Nat) (p : Char → Bool) (c : Cursor) : List Char × Cursor :=
  let run := (c.rest.take n).takeWhile p
  (run, ⟨c.rest.drop run.length, c.position.afterAll run⟩)

/-- Moves over the longest run of characters that satisfy `p`. -/
def skipWhile (p : Char → Bool) (c : Cursor) : Cursor := (c.takeWhile p).2

end Cursor

end MysToCpp
