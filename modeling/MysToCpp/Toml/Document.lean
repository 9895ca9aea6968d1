/-
# Documents of TOML

A document is a list of lines: headers, entries, and lines without either.  `Entries.ofText?` reads a text
as a document and gives the table it spells; a text that breaks a rule of the format spells none.
-/
import MysToCpp.Toml.Number
import MysToCpp.Toml.Table
import MysToCpp.Toml.Text

namespace MysToCpp.Toml

open Reader

/-- A number, a truth value or a date. -/
def plainValue : Reader Node := do
  let cs ← word
  if cs = "true".toList then return .boolean true
  else if cs = "false".toList then return .boolean false
  else if isMoment cs then return .moment (.ofList cs)
  else match integer? cs, float? cs with
    | some n, _ => return .integer n
    | none, some x => return .float x
    | none, none => failure

/-- The items of an array up to its bracket; a comma may stand behind the last one. -/
def arrayItems (value : Reader Node) : Reader Node := do
  expect ['[']
  let items ← many (do
    spacing
    let item ← value
    spacing
    let more ← skip [',']
    if more || (← peek?) = some ']' then return item else failure)
  spacing
  expect [']']
  return .array items

/-- The entries of an inline table up to its brace. -/
def inlineEntries (value : Reader Node) : Reader Node := do
  expect ['\x7b']
  let entry : Reader (List String × Node) := do
    let path ← key
    expect ['=']
    blanks
    let node ← value
    blanks
    return (path, node)
  let entries ← separated ',' entry <|> return []
  blanks
  expect ['\x7d']
  let table := entries.foldlM (fun es (path, node) =>
    Entries.insert? path.dropLast (path.getLast?.getD "") node es) []
  match table with
  | some es => return .table .inline es
  | none => failure

/-- A value with at most `depth` arrays and inline tables around its parts. -/
def value : Nat → Reader Node
  | 0 => do
    match ← peek? with
    | some '"' | some '\'' => return .text (← anyString)
    | _ => plainValue
  | depth + 1 => do
    match ← peek? with
    | some '"' | some '\'' => return .text (← anyString)
    | some '[' => arrayItems (value depth)
    | some '\x7b' => inlineEntries (value depth)
    | _ => plainValue

inductive Line where
  | blank
  | header (path : List String)
  | nextHeader (path : List String)
  | entry (path : List String) (node : Node)

/-- A header in one pair of brackets or two. -/
def headerLine : Reader Line := do
  expect ['[']
  let next ← skip ['[']
  let path ← key
  expect [']']
  if next then expect [']']
  lineRest
  return if next then .nextHeader path else .header path

def entryLine : Reader Line := do
  let path ← key
  expect ['=']
  blanks
  let node ← value maxDepth
  lineRest
  return .entry path node

/-- A line; it takes at least a character. -/
def line : Reader Line := do
  blanks
  match ← peek? with
  | some '[' => headerLine
  | some '#' => do comment; newline <|> atEnd; return .blank
  | some '\n' | some '\r' => do newline; return .blank
  | _ => entryLine

def lines : Reader (List Line) := do
  let _ ← skip ['\ufeff']
  let all ← many line
  blanks
  atEnd
  return all

/-- A document read so far: its table, and the path of the header that entries go under. -/
structure Draft where
  root : Entries := []
  path : List String := []

/-- Takes one more line into account. -/
def Draft.addLine (d : Draft) : Line → Option Draft
  | .blank => some d
  | .header path => do
    let root ← d.root.update? (Entries.openTable? (path.getLast?.getD "")) path.dropLast
    some ⟨root, path⟩
  | .nextHeader path => do
    let root ← d.root.update? (Entries.openNext? (path.getLast?.getD "")) path.dropLast
    some ⟨root, path⟩
  | .entry path node => do
    let add := Entries.insert? path.dropLast (path.getLast?.getD "") node
    let root ← d.root.update? add d.path
    some { d with root }

/-- The table that a text spells. -/
def Entries.ofText? (s : String) : Option Entries := do
  let (all, _) ← lines.run s.toList
  let draft ← all.foldlM Draft.addLine {}
  some draft.root

end MysToCpp.Toml
