/-
# Layout

Blocks are marked by indentation, and line ends do not count inside brackets.  `Layout` keeps the
widths of the blocks that are open and the brackets that are open, the innermost first.
`Layout.changeIndent` compares the width of a new line with the open blocks.
-/

namespace MysToCpp

/-- The open blocks, by the width of their indentation, and the open brackets. -/
structure Layout where
  /-- Widths of the open blocks, the innermost first; the outermost has width zero. -/
  widths : List Nat := [0]
  /-- Open brackets, the innermost first. -/
  brackets : List Char := []
  deriving DecidableEq, Repr, Inhabited

/-- What the width of a new line means. -/
inductive IndentChange where
  /-- The line goes on with the innermost block. -/
  | same
  /-- The line opens a block. -/
  | indent
  /-- The line closes this many blocks. -/
  | dedent (count : Nat)
  /-- The line closes blocks, and its width is that of no block. -/
  | inconsistent
  deriving DecidableEq, Repr, Inhabited

namespace Layout

/-- The columns a tab advances to are the multiples of this. -/
def tabWidth : Nat := 8

/-- The width of an indentation of width `width` with `c` behind it: a tab goes on to the next tab
stop, a form feed starts again, and any other character counts one. -/
def widthAfter (width : Nat) (c : Char) : Nat :=
  if c = '\t' then (width / tabWidth + 1) * tabWidth
  else if c = '\x0c' then 0
  else width + 1

/-- The width of the innermost block. -/
def width (layout : Layout) : Nat := layout.widths.head?.getD 0

/-- Opens or closes blocks for a line of width `w`. -/
def changeIndent (w : Nat) (layout : Layout) : IndentChange × Layout :=
  if w = layout.width then (.same, layout)
  else if layout.width < w then (.indent, { layout with widths := w :: layout.widths })
  else
    let kept := layout.widths.dropWhile (w < ·)
    let closed := { layout with widths := kept }
    if closed.width = w then (.dedent (layout.widths.length - kept.length), closed)
    else (.inconsistent, closed)

/-- Closes all blocks but the outermost; the number says how many. -/
def closeAll (layout : Layout) : Nat × Layout :=
  (layout.widths.length - 1, { layout with widths := layout.widths.drop (layout.widths.length - 1) })

def openBracket (c : Char) (layout : Layout) : Layout :=
  { layout with brackets := c :: layout.brackets }

/-- The opening bracket that a closing one answers. -/
def opening? (c : Char) : Option Char :=
  if c = ')' then some '('
  else if c = ']' then some '['
  else if c = '\x7d' then some '\x7b'
  else none

/-- Closes a bracket; `none` if `c` does not answer the innermost open one. -/
def closeBracket? (c : Char) (layout : Layout) : Option Layout :=
  match opening? c, layout.brackets with
  | some expected, innermost :: outer =>
    if innermost = expected then some { layout with brackets := outer } else none
  | _, _ => none

def innermost? (layout : Layout) : Option Char := layout.brackets.head?

def inBrackets (layout : Layout) : Bool := !layout.brackets.isEmpty

end Layout

end MysToCpp
