/-
# Expressions by precedence

An expression is an operand with operators behind it.  Each operator takes what was read so far as its
left side and reads its right side with the binding power it asks for.  Nested expressions are read by
the same parser with one less of fuel; every nesting reads a token, so that the number of tokens bounds
the depth, and `expression` starts with enough.
-/
import MysToCpp.Parser.Operand

namespace MysToCpp.Parser

open Keyword Punct

/-- `left op right` -/
def binaryTail (nested : Nested) (op : BinaryOp) (right : Nat) (left : Expr) : Parser Expr := do
  advance
  let r ← nested right
  pure (.binary (left.span.through r.span) left op r)

def boolWord : BoolOp → Keyword
  | .or => orKw
  | .and => andKw

/-- `left op b op c …` as one node. -/
def boolTail (nested : Nested) (op : BoolOp) (right : Nat) (left : Expr) : Parser Expr := do
  let more ← many (after (boolWord op) (nested right))
  pure (.boolOp (← spanFrom left.span) op (left :: more))

/-- A comparison and its right side. -/
def comparison (nested : Nested) (right : Nat) : Parser (Option (CompareOp × Expr)) := do
  match CompareOp.of? (← kind) (← secondKind) with
  | some (op, isTwoWords) =>
    advance
    if isTwoWords then advance
    let e ← nested right
    pure (some (op, e))
  | none => pure none

/-- `left < b <= c …` as one node. -/
def compareTail (nested : Nested) (right : Nat) (left : Expr) : Parser Expr := do
  let more ← many (comparison nested right)
  pure (.compare (← spanFrom left.span) left (more.map (·.1)) (more.map (·.2)))

/-- `body if test else orelse` -/
def conditionalTail (nested : Nested) (right : Nat) (body : Expr) : Parser Expr := do
  advance
  let test ← nested Precedence.or.binding
  let _ ← expect elseKw
  let orelse ← nested right
  pure (.conditional (← spanFrom body.span) test body orelse)

/-- `name := value` -/
def namedTail (nested : Nested) (right : Nat) (target : Expr) : Parser Expr := do
  if target.name?.isNone then
    failWith ("cannot use assignment expressions with " ++ target.describe) target.span
  else
    advance
    let value ← nested right
    pure (.named (target.span.through value.span) target value)

inductive Argument where
  | positional (value : Expr)
  | keyword (argument : KeywordArg)

def Argument.positional? : Argument → Option Expr
  | positional e => some e
  | keyword _ => none

def Argument.keyword? : Argument → Option KeywordArg
  | positional _ => none
  | keyword k => some k

/-- Whether `name =` is next. -/
def atKeywordArg : Parser Bool := ask fun s => s.kind.isName && s.secondKind.isPunct assign

/-- `name=value` -/
def keywordArg (nested : Nested) (start : Span) : Parser KeywordArg := do
  let name ← identifier
  advance
  let value ← anyExpr nested
  pure ⟨some name, value, ← spanFrom start⟩

/-- `value` or `value for x in xs` -/
def plainArgument (nested : Nested) (start : Span) : Parser Expr := do
  let value ← anyExpr nested
  if ← atComprehension then
    let clauses ← comprehensions nested
    pure (.generator (← spanFrom start) value clauses)
  else pure value

/-- `value`, `name=value`, `**value` or `value for x in xs` -/
def argument (nested : Nested) : Parser Argument := do
  let start ← span
  if ← skip doubleStar then
    let value ← anyExpr nested
    pure (.keyword ⟨none, value, ← spanFrom start⟩)
  else if ← atKeywordArg then
    let k ← keywordArg nested start
    pure (.keyword k)
  else
    let value ← plainArgument nested start
    pure (.positional value)

/-- `func(arguments)` -/
def callTail (nested : Nested) (func : Expr) : Parser Expr := do
  advance
  let arguments ← items parenClose (argument nested)
  let _ ← expect parenClose
  pure (.call (← spanFrom func.span) func (arguments.filterMap (·.positional?))
    (arguments.filterMap (·.keyword?)))

/-- Whether a part of a slice is left out here. -/
def atSliceEnd : Parser Bool :=
  ask fun s => s.kind.isPunct colon || s.kind.isPunct comma || s.kind.isPunct squareClose

/-- A part of a slice, unless it is left out. -/
def slicePart (nested : Nested) : Parser (Option Expr) := do
  if ← atSliceEnd then pure none
  else
    let e ← anyExpr nested
    pure (some e)

/-- Goes on at the first colon of a slice. -/
def sliceTail (nested : Nested) (lower : Option Expr) (start : Span) : Parser Expr := do
  advance
  let upper ← slicePart nested
  let step ← if ← skip colon then slicePart nested else pure none
  pure (.slice (← spanFrom start) lower upper step)

/-- An index, or a slice `lower:upper:step`. -/
def sliceItem (nested : Nested) : Parser Expr := do
  let start ← span
  if ← isAt colon then sliceTail nested none start
  else
    let e ← anyExpr nested
    if ← isAt colon then sliceTail nested (some e) start else pure e

/-- `value[index]`; several indices are a tuple. -/
def subscriptTail (nested : Nested) (value : Expr) : Parser Expr := do
  advance
  let start ← span
  let first ← sliceItem nested
  let isTuple ← isAt comma
  let more ← moreItems squareClose (sliceItem nested)
  let whole ← spanFrom start
  let index := if isTuple then .tuple whole (first :: more) else first
  let _ ← expect squareClose
  pure (.subscript (← spanFrom value.span) value index)

/-- `value.attr` -/
def memberTail (value : Expr) : Parser Expr := do
  advance
  let attr ← identifier
  pure (.member (← spanFrom value.span) value attr)

/-- Goes on with an operator behind its left side. -/
def operatorTail (nested : Nested) (op : Operator) (left : Expr) : Parser Expr :=
  match op with
  | .boolean b => boolTail nested b op.rightBinding left
  | .comparison => compareTail nested op.rightBinding left
  | .binary b _ => binaryTail nested b op.rightBinding left
  | .conditional => conditionalTail nested op.rightBinding left
  | .named => namedTail nested op.rightBinding left
  | .call => callTail nested left
  | .subscript => subscriptTail nested left
  | .member => memberTail left

/-- The operator that is next, if it binds at least as tightly as `binding`. -/
def nextOperator (binding : Nat) : Parser (Option Operator) :=
  ask fun s => (Operator.of? s.kind s.secondKind).filter (binding ≤ ·.level.binding)

/-- Goes on with the operator that is next, if it binds at least as tightly as `binding`. -/
def operatorStep (nested : Nested) (binding : Nat) (left : Expr) : Parser (Option Expr) := do
  match ← nextOperator binding with
  | some op =>
    let e ← operatorTail nested op left
    pure (some e)
  | none => pure none

/-- An operand with the operators behind it that bind at least as tightly as `binding`. -/
def expressionLayer (nested : Nested) (binding : Nat) : Parser Expr := do
  let first ← operand nested
  repeatWhile (operatorStep nested binding) first

/-- An expression that nests less than `fuel` deep. -/
def expressionFuel : Nat → Nested
  | 0 => fun _ => stuck
  | fuel + 1 => expressionLayer (expressionFuel fuel)

/-- An expression whose operators bind at least as tightly as `binding`. -/
def expression : Nested := fun binding s => expressionFuel (s.rest.length + 1) binding s

end MysToCpp.Parser
