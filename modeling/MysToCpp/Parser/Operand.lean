/-
# Operands

What an expression can start with: names, literals, operators in front of an operand, displays in
brackets and the forms that a keyword starts.
-/
import MysToCpp.Parser.Clause

namespace MysToCpp.Parser

open Keyword Punct

/-- A literal of one token. -/
def constant (value : Constant) (start : Span) : Parser Expr := do
  advance
  pure (.constant start value)

/-- The next token, read, if it is a string literal of any form. -/
def stringToken : Parser (Option TokenKind) := do
  let k ← kind
  match k with
  | .text _ | .bytes _ | .formatted _ =>
    advance
    pure (some k)
  | _ => pure none

def literalText : TokenKind → String
  | .text s | .formatted s => s
  | _ => ""

def literalBytes : TokenKind → List UInt8
  | .bytes b => b
  | _ => []

/-- String literals side by side are one literal; bytes do not go together with text. -/
def strings (start : Span) : Parser Expr := do
  let parts ← many stringToken
  let span ← spanFrom start
  let hasBytes := parts.any (· matches .bytes _)
  let hasText := parts.any fun k => k matches .text _ | .formatted _
  if hasBytes && hasText then failWith "cannot mix bytes and nonbytes literals" span
  else if hasBytes then pure (.constant span (.bytes (parts.flatMap literalBytes)))
  else
    let text := String.join (parts.map literalText)
    if parts.any (· matches .formatted _) then pure (.formatted span text)
    else pure (.constant span (.text text))

/-- An operator in front of an operand. -/
def unary (nested : Nested) (op : UnaryOp) (level : Precedence) (start : Span) : Parser Expr := do
  advance
  let operand ← nested level.binding
  pure (.unary (← spanFrom start) op operand)

/-- `*value` -/
def starred (nested : Nested) (start : Span) : Parser Expr := do
  advance
  let value ← nested Precedence.bitOr.binding
  pure (.starred (← spanFrom start) value)

/-- `lambda params: body` -/
def lambda (nested : Nested) (start : Span) : Parser Expr := do
  advance
  let params ← parameters nested colon false
  let _ ← expect colon
  let body ← nested Precedence.ternary.binding
  pure (.lambda (← spanFrom start) params body)

/-- `await value` -/
def await (nested : Nested) (start : Span) : Parser Expr := do
  advance
  let value ← nested (Precedence.await.binding + 1)
  pure (.await (← spanFrom start) value)

/-- `yield`, `yield values` or `yield from value` -/
def yield (nested : Nested) (start : Span) : Parser Expr := do
  advance
  if ← skip fromKw then
    let value ← anyExpr nested
    pure (.yieldFrom (← spanFrom start) value)
  else if (← kind).startsExpression then
    let value ← expressionList nested Precedence.lowest.binding
    pure (.yield (← spanFrom start) (some value))
  else pure (.yield (← spanFrom start) none)

/-- `()`, `(e)`, `(a, b)` or `(e for x in xs)`; parentheses around one expression leave no trace. -/
def group (nested : Nested) (start : Span) : Parser Expr := do
  advance
  if ← skip parenClose then pure (.tuple (← spanFrom start) [])
  else
    let first ← anyExpr nested
    if ← atComprehension then
      let clauses ← comprehensions nested
      let _ ← expect parenClose
      pure (.generator (← spanFrom start) first clauses)
    else if ← isAt comma then
      let more ← moreItems parenClose (anyExpr nested)
      let _ ← expect parenClose
      pure (.tuple (← spanFrom start) (first :: more))
    else
      let _ ← expect parenClose
      pure first

/-- `[a, b]` or `[e for x in xs]` -/
def listDisplay (nested : Nested) (start : Span) : Parser Expr := do
  advance
  if ← skip squareClose then pure (.list (← spanFrom start) [])
  else
    let first ← anyExpr nested
    if ← atComprehension then
      let clauses ← comprehensions nested
      let _ ← expect squareClose
      pure (.listComp (← spanFrom start) first clauses)
    else
      let more ← moreItems squareClose (anyExpr nested)
      let _ ← expect squareClose
      pure (.list (← spanFrom start) (first :: more))

/-- Goes on behind the first element of a set. -/
def setDisplay (nested : Nested) (first : Expr) (start : Span) : Parser Expr := do
  if ← atComprehension then
    let clauses ← comprehensions nested
    let _ ← expect braceClose
    pure (.setComp (← spanFrom start) first clauses)
  else
    let more ← moreItems braceClose (anyExpr nested)
    let _ ← expect braceClose
    pure (.set (← spanFrom start) (first :: more))

/-- `key: value` -/
def entry (nested : Nested) : Parser (Expr × Expr) := do
  let key ← anyExpr nested
  let _ ← expect colon
  let value ← anyExpr nested
  pure (key, value)

/-- Goes on behind the first key of a dictionary and the colon behind it. -/
def dictDisplay (nested : Nested) (key : Expr) (start : Span) : Parser Expr := do
  let value ← anyExpr nested
  if ← atComprehension then
    let clauses ← comprehensions nested
    let _ ← expect braceClose
    pure (.dictComp (← spanFrom start) key value clauses)
  else
    let more ← moreItems braceClose (entry nested)
    let _ ← expect braceClose
    pure (.dict (← spanFrom start) (key :: more.map (·.1)) (value :: more.map (·.2)))

/-- A set or a dictionary, or a comprehension of either. -/
def braceDisplay (nested : Nested) (start : Span) : Parser Expr := do
  advance
  if ← skip braceClose then pure (.dict (← spanFrom start) [] [])
  else if ← isAt doubleStar then failWith "dict unpacking is not supported" (← span)
  else
    let first ← anyExpr nested
    if ← skip colon then dictDisplay nested first start
    else setDisplay nested first start

/-- What an expression starts with. -/
def operand (nested : Nested) : Parser Expr := do
  let start ← span
  match ← kind with
  | .name id =>
    advance
    pure (.name start id)
  | .int n => constant (.int n) start
  | .float x => constant (.float x) start
  | .text _ | .bytes _ | .formatted _ => strings start
  | .keyword .trueKw => constant (.bool true) start
  | .keyword .falseKw => constant (.bool false) start
  | .keyword .noneKw => constant .none start
  | .punct .ellipsis => constant .ellipsis start
  | .punct .minus => unary nested .minus .unary start
  | .punct .plus => unary nested .plus .unary start
  | .punct .tilde => unary nested .invert .unary start
  | .keyword .notKw => unary nested .not .not start
  | .punct .star => starred nested start
  | .keyword .lambdaKw => lambda nested start
  | .keyword .awaitKw => await nested start
  | .keyword .yieldKw => yield nested start
  | .punct .parenOpen => group nested start
  | .punct .squareOpen => listDisplay nested start
  | .punct .braceOpen => braceDisplay nested start
  | _ => failExpected "expression"

end MysToCpp.Parser
