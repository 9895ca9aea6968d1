/-
# Positions and spans

A `Position` is a place in a source text: its line and column, both counted from one and the
column in characters, and its offset in UTF-8 bytes.  A `Span` is the stretch of text between
two positions.  `Position.after` is the only way a position moves: over one character.
-/

namespace MysToCpp

/-- A place in a source text. -/
structure Position where
  /-- Line, counted from one. -/
  line : Nat
  /-- Column, counted from one in characters. -/
  column : Nat
  /-- Number of UTF-8 bytes before this place. -/
  offset : Nat
  deriving DecidableEq, Repr, Inhabited

/-- A stretch of source text; `stop` is the place behind its last character. -/
structure Span where
  start : Position
  stop : Position
  deriving DecidableEq, Repr, Inhabited

namespace Position

def origin : Position := ⟨1, 1, 0⟩

/-- The place of things that stand in no text. -/
def nowhere : Position := ⟨0, 0, 0⟩

def after (p : Position) (c : Char) : Position :=
  if c = '\n' then ⟨p.line + 1, 1, p.offset + 1⟩
  else ⟨p.line, p.column + 1, p.offset + c.utf8Size⟩

def afterAll (p : Position) (cs : List Char) : Position :=
  cs.foldl after p

@[simp] theorem afterAll_nil (p : Position) : p.afterAll [] = p := rfl

@[simp] theorem afterAll_cons (p : Position) (c : Char) (cs : List Char) :
    p.afterAll (c :: cs) = (p.after c).afterAll cs := rfl

@[simp] theorem afterAll_append (p : Position) (cs ds : List Char) :
    p.afterAll (cs ++ ds) = (p.afterAll cs).afterAll ds := List.foldl_append

/-- A position is written `line:column`. -/
def render (p : Position) : String :=
  toString p.line ++ ":" ++ toString p.column

end Position

namespace Span

/-- The span of things that stand in no text. -/
def nowhere : Span := ⟨.nowhere, .nowhere⟩

def empty (p : Position) : Span := ⟨p, p⟩

/-- A span that starts on line zero stands in no text. -/
def isNowhere (s : Span) : Bool := s.start.line == 0

/-- From the start of `s` to the end of `t`. -/
def through (s t : Span) : Span := ⟨s.start, t.stop⟩

/-- A span is written `[start - stop]`. -/
def render (s : Span) : String :=
  "[" ++ s.start.render ++ " - " ++ s.stop.render ++ "]"

end Span

end MysToCpp
