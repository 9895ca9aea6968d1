/-
# Diagnostics as JSON

A diagnostic as a JSON object for editors, whose lines and columns are counted from zero and have 32
bits.  Objects are indented by two spaces a level.
-/
import MysToCpp.Diagnostic.Basic

namespace MysToCpp

namespace Json

/-- The JSON values that diagnostics are made of. -/
inductive Value where
  | number (n : Nat)
  | text (s : String)
  | object (fields : List (String × Value))

def escapeChar (c : Char) : List Char :=
  if c = '"' then ['\\', '"']
  else if c = '\\' then ['\\', '\\']
  else if c = '\x08' then ['\\', 'b']
  else if c = '\x0c' then ['\\', 'f']
  else if c = '\n' then ['\\', 'n']
  else if c = '\r' then ['\\', 'r']
  else if c = '\t' then ['\\', 't']
  else if c.toNat < 0x20 then
    ['\\', 'u', '0', '0'] ++ (if c.toNat < 0x10 then ['0'] else []) ++ Nat.toDigits 16 c.toNat
  else [c]

def quote (s : String) : String := "\"" ++ .ofList (s.toList.flatMap escapeChar) ++ "\""

/-- The spaces of a level of nesting. -/
def margin (depth : Nat) : String := .ofList (List.replicate (2 * depth) ' ')

mutual

/-- A value, one field to a line, inside of `depth` objects. -/
def Value.render (depth : Nat) : Value → String
  | .number n => toString n
  | .text s => quote s
  | .object fields =>
    "\x7b\n" ++ ",\n".intercalate (renderFields depth fields) ++ "\n" ++ margin depth ++ "\x7d"

/-- The lines of the fields of an object inside of `depth` others. -/
def renderFields (depth : Nat) : List (String × Value) → List String
  | [] => []
  | field :: rest => renderField depth field :: renderFields depth rest

/-- The lines of a field of an object inside of `depth` others. -/
def renderField (depth : Nat) : String × Value → String
  | (name, value) => margin (depth + 1) ++ quote name ++ ": " ++ value.render (depth + 1)

end

end Json

open Json (Value)

/-- A count from one as a count from zero, in 32 bits. -/
def fromZero (n : Nat) : Nat := (n - 1) % Nat.pow 2 32

/-- A position as line and character, counted from zero. -/
def Position.json (p : Position) : Value :=
  .object [("line", .number (fromZero p.line)), ("character", .number (fromZero p.column))]

/-- A diagnostic about a file as a JSON text. -/
def Diagnostic.renderJson (d : Diagnostic) (file : String) : String :=
  (Value.object
    [("file", .text file),
     ("range", .object [("start", d.span.start.json), ("end", d.span.stop.json)]),
     ("severity", .number 1),
     ("code", .text d.kind.label),
     ("source", .text "mysc"),
     ("message", .text d.message)]).render 0

end MysToCpp
