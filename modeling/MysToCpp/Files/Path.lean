/-
# Paths

A path is a text of names with slashes between them.  Slashes side by side, a slash at the end and the
name `.` lead nowhere else, and `..` leads up.  `withExtension` and `join` make the path of an output out
of the path of an input.
-/
import MysToCpp.Text.Split

namespace MysToCpp.Path

open Text (splitAt)

/-- The pieces of a path between its slashes. -/
def pieces (path : String) : List (List Char) := splitAt '/' path.toList

def ofPieces (ps : List (List Char)) : String := .ofList (['/'].intercalate ps)

/-- Whether a piece leads nowhere else: it is empty or `.`. -/
def isIdle (piece : List Char) : Bool := piece.isEmpty || piece = ['.']

def isUp (piece : List Char) : Bool := piece = ['.', '.']

/-- A path up to its last name, that name, and the idle pieces behind it. -/
structure Parts where
  front : List (List Char)
  name : List Char
  behind : List (List Char)
  deriving DecidableEq, Repr, Inhabited

/-- The parts of a path, if its last piece that leads anywhere is a name. -/
def parts? (path : String) : Option Parts :=
  let (behind, rest) := (pieces path).reverse.span isIdle
  match rest with
  | [] => none
  | name :: front => if isUp name then none else some ⟨front.reverse, name, behind.reverse⟩

def fileName? (path : String) : Option String := (parts? path).map fun p => .ofList p.name

/-- A name without its extension, which starts at the last dot; a name with no dot but at its front has
none. -/
def stem (name : List Char) : List Char :=
  match name.reverse.dropWhile (· ≠ '.') with
  | [] | [_] => name
  | _ :: front => front.reverse

/-- The path with another extension of its last name; an empty one takes the dot along.  Whatever stands
behind the name is left out.  A name such as `..x` at the end of a path has no new extension: without the
old one, `..` leads up. -/
def withExtension (extension path : String) : String :=
  match parts? path with
  | none => path
  | some p =>
    let stem := stem p.name
    let name :=
      if stem = ['.'] && p.behind.isEmpty then ['.', '.']
      else if extension.isEmpty then stem
      else stem ++ '.' :: extension.toList
    ofPieces (p.front ++ [name])

def join (directory name : String) : String :=
  match directory.toList.getLast? with
  | none | some '/' => directory ++ name
  | some _ => directory ++ "/" ++ name

/-- The path without its last name, `.` or `..`; idle pieces count as a name only at the front.  There is
none for the root and for the empty path. -/
def parent? (path : String) : Option String :=
  match pieces path with
  | [] => none
  | first :: rest =>
    let kept := (rest.filter fun p => !isIdle p).reverse
    match kept with
    | _ :: front =>
      let front := front.reverse
      some (if first.isEmpty && front.isEmpty then "/" else ofPieces (first :: front))
    | [] => if first.isEmpty then none else some ""

end MysToCpp.Path
