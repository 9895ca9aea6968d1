/-
# Simple statements

Statements that fit on a line: assignments, expressions, and those that a keyword starts and that hold
no other statements.  Each of them is given the span of its first token.
-/
import MysToCpp.Parser.Expression
import MysToCpp.Tree.Stmt

namespace MysToCpp.Parser

open Keyword Punct

/-- Any expression that is no list. -/
def value : Parser Expr := expression Precedence.lowest.binding

/-- An expression, or several as a tuple. -/
def values : Parser Expr := expressionList expression Precedence.lowest.binding

/-- What can stand on the right of an assignment: a `yield`, or one or several expressions. -/
def assignedValue : Parser Expr := do
  if ← isAt yieldKw then value else values

def atLineEnd : Parser Bool := ask fun s => s.kind = .newline || s.kind = .endOfFile

/-- `target: annotation = value`, at the colon. -/
def annotated (start : Span) (target : Expr) : Parser Stmt := do
  if target.isSingleTarget then
    advance
    let hint ← value
    let assigned ← after assign assignedValue
    pure (.annAssign (← spanFrom start) target hint assigned)
  else failWith ("illegal target for annotation: " ++ target.describe) target.span

/-- `target op= value`, at the operator. -/
def augmented (start : Span) (target : Expr) (op : BinaryOp) : Parser Stmt := do
  if target.isSingleTarget then
    advance
    let assigned ← assignedValue
    pure (.augAssign (← spanFrom start) target op assigned)
  else
    failWith ("'" ++ target.describe ++ "' is an illegal expression for augmented assignment")
      target.span

/-- Fails at the first of some expressions that cannot be assigned to. -/
def checkTargets : List Expr → Parser Unit
  | [] => pure ()
  | e :: rest => do
    checkTarget e
    checkTargets rest

/-- `first = … = value`, at the first `=`. -/
def assignment (start : Span) (first : Expr) : Parser Stmt := do
  let more ← many (after assign assignedValue)
  let targets := (first :: more).dropLast
  let assigned := more.getLast?.getD first
  checkTargets targets
  pure (.assign (← spanFrom start) targets assigned)

/-- The operator of an assignment that is next. -/
def augmentedOp? : TokenKind → Option BinaryOp
  | .punct p => BinaryOp.ofAssignment? p
  | _ => none

/-- An expression as a statement, or any assignment. -/
def expressionStatement (start : Span) : Parser Stmt := do
  let first ← assignedValue
  if ← isAt colon then annotated start first
  else match augmentedOp? (← kind) with
    | some op => augmented start first op
    | none =>
      if ← isAt assign then assignment start first
      else pure (.expr (← spanFrom start) first)

def keywordStatement (stmt : Stmt) : Parser Stmt := do
  advance
  pure stmt

/-- `return`, with a value or without. -/
def returnStatement (start : Span) : Parser Stmt := do
  advance
  if (← kind).startsExpression then
    let result ← values
    pure (.ret (← spanFrom start) (some result))
  else pure (.ret (← spanFrom start) none)

/-- `raise exception from cause`; the cause or both can be missing. -/
def raiseStatement (start : Span) : Parser Stmt := do
  advance
  if (← kind).startsExpression then
    let exception ← value
    let cause ← after fromKw value
    pure (.raise (← spanFrom start) (some exception) cause)
  else pure (.raise (← spanFrom start) none none)

/-- `assert test, message`; the message can be missing. -/
def assertStatement (start : Span) : Parser Stmt := do
  advance
  let test ← value
  let message ← after comma value
  pure (.assert (← spanFrom start) test message)

/-- Something that can be assigned to, up to a comparison. -/
def target : Parser Expr := do
  let e ← expression Precedence.target
  checkTarget e
  pure e

/-- `del target, …` -/
def deleteStatement (start : Span) : Parser Stmt := do
  advance
  let first ← target
  let more ← many do
    if ← skip comma then
      if ← atLineEnd then pure none
      else
        let e ← target
        pure (some e)
    else pure none
  pure (.delete (← spanFrom start) (first :: more))

/-- The names behind `global` or `nonlocal`. -/
def scopeNames : Parser (List Ident) := do
  advance
  let first ← identifier
  let more ← many (after comma identifier)
  pure (first :: more)

/-- `global name, …` -/
def globalStatement (start : Span) : Parser Stmt := do
  let names ← scopeNames
  pure (.globals (← spanFrom start) names)

/-- `nonlocal name, …` -/
def nonlocalStatement (start : Span) : Parser Stmt := do
  let names ← scopeNames
  pure (.nonlocals (← spanFrom start) names)

/-- `a.b.c` as one text. -/
def dottedName : Parser String := do
  let first ← identifier
  let more ← many (after dot identifier)
  pure (".".intercalate (first.name :: more.map (·.name)))

/-- `module as name` -/
def moduleAlias : Parser Alias := do
  let start ← span
  let name ← dottedName
  let asName ← after asKw identifier
  pure ⟨name, asName, ← spanFrom start⟩

/-- `import module, …` -/
def importStatement (start : Span) : Parser Stmt := do
  advance
  let first ← moduleAlias
  let more ← many (after comma moduleAlias)
  pure (.importModules (← spanFrom start) (first :: more))

/-- The points before the name of a module; three points may be one token. -/
def importLevel : Parser Nat := do
  let points ← many do
    if ← skip dot then pure (some 1)
    else if ← skip ellipsis then pure (some 3)
    else pure none
  pure (points.foldl Nat.add 0)

/-- `name as other` -/
def nameAlias : Parser Alias := do
  let start ← span
  let name ← identifier
  let asName ← after asKw identifier
  pure ⟨name.name, asName, ← spanFrom start⟩

/-- The names behind `from module import`: all of them as `*`, or a list, perhaps in parentheses. -/
def importedNames : Parser (List Alias) := do
  let start ← span
  if ← skip star then pure [⟨"*", none, start⟩]
  else if ← skip parenOpen then
    let first ← nameAlias
    let more ← moreItems parenClose nameAlias
    let _ ← expect parenClose
    pure (first :: more)
  else
    let first ← nameAlias
    let more ← many (after comma nameAlias)
    pure (first :: more)

/-- The module behind `from`, which only points can stand for. -/
def importedModule (level : Nat) : Parser (Option String) := do
  if (← kind).isName then
    let name ← dottedName
    pure (some name)
  else if level = 0 then failExpected "module name"
  else pure none

/-- `from module import names` -/
def importFromStatement (start : Span) : Parser Stmt := do
  advance
  let level ← importLevel
  let module ← importedModule level
  let _ ← expect importKw
  let names ← importedNames
  pure (.importFrom (← spanFrom start) module names level)

def smallStatement : Parser Stmt := do
  let start ← span
  match ← kind with
  | .keyword .passKw => keywordStatement (.pass start)
  | .keyword .breakKw => keywordStatement (.breakLoop start)
  | .keyword .continueKw => keywordStatement (.continueLoop start)
  | .keyword .returnKw => returnStatement start
  | .keyword .raiseKw => raiseStatement start
  | .keyword .assertKw => assertStatement start
  | .keyword .delKw => deleteStatement start
  | .keyword .globalKw => globalStatement start
  | .keyword .nonlocalKw => nonlocalStatement start
  | .keyword .importKw => importStatement start
  | .keyword .fromKw => importFromStatement start
  | _ => expressionStatement start

/-- Simple statements with semicolons between them, and the end of their line. -/
def simpleStatements : Parser (List Stmt) := do
  let first ← smallStatement
  let more ← many do
    if ← skip semicolon then
      if ← atLineEnd then pure none
      else
        let stmt ← smallStatement
        pure (some stmt)
    else pure none
  if ← atEnd then pure (first :: more)
  else
    let _ ← expect .newline
    pure (first :: more)

end MysToCpp.Parser
