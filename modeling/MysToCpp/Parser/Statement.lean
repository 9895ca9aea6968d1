/-
# Statements

Statements that hold other statements, and modules.  The parsers here are written over the parser
`statement` of the statements inside of them; `statementFuel` ties the knot.  Every nesting reads a token,
so that the number of tokens bounds the depth.
-/
import MysToCpp.Parser.Simple

namespace MysToCpp.Parser

open Keyword Punct

/-- Statements one after the other until `stops` holds; empty lines are skipped. -/
def statementsUntil (stops : ParserState → Bool) (statement : Parser (List Stmt)) :
    Parser (List Stmt) := do
  let groups ← many do
    if ← ask stops then pure none
    else if ← skip .newline then pure (some [])
    else
      let stmts ← statement
      pure (some stmts)
  pure groups.flatten

/-- What a header holds: behind a colon, an indented block on the next lines or simple statements on
the same one. -/
def block (statement : Parser (List Stmt)) : Parser (List Stmt) := do
  let _ ← expect colon
  if ← skip .newline then
    if ← skip .indent then
      let body ← statementsUntil (fun s => s.isAt .dedent || s.atEnd) statement
      let _ ← skip .dedent
      pure body
    else failExpected "an indented block"
  else simpleStatements

/-- `else` with its block, or nothing. -/
def elseBlock (statement : Parser (List Stmt)) : Parser (List Stmt) := do
  if ← skip elseKw then block statement else pure []

/-- `finally` with its block, or nothing. -/
def finallyBlock (statement : Parser (List Stmt)) : Parser (List Stmt) := do
  if ← skip finallyKw then block statement else pure []

/-- A condition with its block, behind `if` or `elif`. -/
def branch (statement : Parser (List Stmt)) (start : Span) : Parser (Span × Expr × List Stmt) := do
  advance
  let test ← value
  let body ← block statement
  pure (start, test, body)

/-- `if`, any number of `elif`, and `else` or not.  An `elif` stands for an `if` inside of `else`. -/
def ifStatement (statement : Parser (List Stmt)) (start : Span) : Parser Stmt := do
  let (_, test, body) ← branch statement start
  let others ← many do
    let here ← span
    if ← isAt elifKw then
      let other ← branch statement here
      pure (some other)
    else pure none
  let orelse ← elseBlock statement
  let last ← ask (·.previousSpan)
  let chained := others.foldr (fun (here, test, body) orelse =>
    [.ifElse (here.through last) test body orelse]) orelse
  pure (.ifElse (start.through last) test body chained)

/-- `while test: body`, with `else` or without. -/
def whileStatement (statement : Parser (List Stmt)) (start : Span) : Parser Stmt := do
  advance
  let test ← value
  let body ← block statement
  let orelse ← elseBlock statement
  pure (.whileLoop (← spanFrom start) test body orelse)

/-- `for target in source: body`, with `else` or without. -/
def forStatement (statement : Parser (List Stmt)) (isAsync : Bool) (start : Span) : Parser Stmt := do
  advance
  let target ← expressionList expression Precedence.target
  checkTarget target
  let _ ← expect inKw
  let source ← values
  let body ← block statement
  let orelse ← elseBlock statement
  pure (.forLoop (← spanFrom start) target source body orelse isAsync)

/-- `except kind as name: body`, of which the kind and the name can be missing. -/
def handler (statement : Parser (List Stmt)) : Parser Handler := do
  let start ← span
  advance
  if ← isAt colon then
    let body ← block statement
    pure ⟨none, none, body, start⟩
  else
    let kind ← values
    let name ← after asKw identifier
    let body ← block statement
    pure ⟨some kind, name, body, start⟩

/-- `try`, any number of `except`, `else` if there is one of those, and `finally` or not. -/
def tryStatement (statement : Parser (List Stmt)) (start : Span) : Parser Stmt := do
  advance
  let body ← block statement
  let handlers ← many do
    if ← isAt exceptKw then
      let h ← handler statement
      pure (some h)
    else pure none
  let orelse ← if handlers.isEmpty then pure [] else elseBlock statement
  let final ← finallyBlock statement
  if handlers.isEmpty && final.isEmpty then failExpected "'except' or 'finally' block"
  else pure (.tryBlock (← spanFrom start) body handlers orelse final)

/-- `context as target`, of which the target can be missing. -/
def withItem : Parser WithItem := do
  let context ← value
  let bound ← after asKw target
  pure ⟨context, bound⟩

/-- `with item, …: body` -/
def withStatement (statement : Parser (List Stmt)) (isAsync : Bool) (start : Span) : Parser Stmt := do
  advance
  let first ← withItem
  let more ← many (after comma withItem)
  let body ← block statement
  pure (.withBlock (← spanFrom start) (first :: more) body isAsync)

/-- `def name(params) -> returns: body` -/
def functionStatement (statement : Parser (List Stmt)) (decorators : List Expr) (isAsync : Bool)
    (start : Span) : Parser Stmt := do
  advance
  let name ← identifier
  let _ ← expect parenOpen
  let params ← parameters expression parenClose true
  let _ ← expect parenClose
  let returns ← after arrow value
  let body ← block statement
  pure (.functionDef (← spanFrom start) ⟨name, params, body, decorators, returns, isAsync⟩)

/-- A base of a class, or `name=value`. -/
def classArgument : Parser Argument := do
  let start ← span
  if ← atKeywordArg then
    let k ← keywordArg expression start
    pure (.keyword k)
  else
    let base ← value
    pure (.positional base)

/-- The arguments of a class in parentheses, if there are any. -/
def classArguments : Parser (List Argument) := do
  if ← skip parenOpen then
    let arguments ← items parenClose classArgument
    let _ ← expect parenClose
    pure arguments
  else pure []

/-- `class Name(bases): body` -/
def classStatement (statement : Parser (List Stmt)) (decorators : List Expr) (start : Span) :
    Parser Stmt := do
  advance
  let name ← identifier
  let arguments ← classArguments
  let body ← block statement
  pure (.classDef (← spanFrom start) ⟨name, arguments.filterMap (·.positional?),
    arguments.filterMap (·.keyword?), body, decorators⟩)

/-- `@decorator` on a line of its own. -/
def decorator : Parser Expr := do
  let e ← value
  let _ ← expect .newline
  pure e

/-- The function or class that decorators belong to; `start` is where the first of them stands. -/
def decoratedDefinition (statement : Parser (List Stmt)) (decorators : List Expr) (start : Span) :
    Parser Stmt := do
  let here ← span
  match ← kind with
  | .keyword .defKw => functionStatement statement decorators false here
  | .keyword .classKw => classStatement statement decorators here
  | k =>
    if k.isKeyword asyncKw && (← secondKind).isKeyword defKw then
      advance
      functionStatement statement decorators true here
    else failWith "expected 'def' or 'class' after decorator" start

/-- Decorators and the function or class they belong to. -/
def decoratedStatement (statement : Parser (List Stmt)) (start : Span) : Parser Stmt := do
  let decorators ← many (after atSign decorator)
  decoratedDefinition statement decorators start

/-- `async def`, `async for` or `async with` -/
def asyncStatement (statement : Parser (List Stmt)) (start : Span) : Parser Stmt := do
  advance
  match ← kind with
  | .keyword .defKw => functionStatement statement [] true start
  | .keyword .forKw => forStatement statement true start
  | .keyword .withKw => withStatement statement true start
  | _ => failExpected "'def', 'for' or 'with' after 'async'"

def single (p : Parser Stmt) : Parser (List Stmt) := do
  let stmt ← p
  pure [stmt]

/-- A statement that holds others, or a line of simple statements. -/
def statementLayer (statement : Parser (List Stmt)) : Parser (List Stmt) := do
  let start ← span
  match ← kind with
  | .indent => failWith "unexpected indent" start
  | .keyword .ifKw => single (ifStatement statement start)
  | .keyword .whileKw => single (whileStatement statement start)
  | .keyword .forKw => single (forStatement statement false start)
  | .keyword .tryKw => single (tryStatement statement start)
  | .keyword .withKw => single (withStatement statement false start)
  | .keyword .defKw => single (functionStatement statement [] false start)
  | .keyword .classKw => single (classStatement statement [] start)
  | .punct .atSign => single (decoratedStatement statement start)
  | .keyword .asyncKw => single (asyncStatement statement start)
  | _ => simpleStatements

/-- A statement that nests less than `fuel` deep. -/
def statementFuel : Nat → Parser (List Stmt)
  | 0 => stuck
  | fuel + 1 => statementLayer (statementFuel fuel)

/-- A statement that holds others, or a line of simple statements. -/
def statement : Parser (List Stmt) := fun s => statementFuel (s.rest.length + 1) s

/-- What stands next in a module: an empty line or a statement, and nothing at the end of the file or
where a statement cannot be read. -/
def moduleItem : Parser (Option (List Stmt)) := do
  if ← atEnd then pure none
  else if ← skip .newline then pure (some [])
  else attempt statement

/-- The statements up to the end of the file, or up to the first one that cannot be read.  Nothing but
the errors recorded tells the two apart. -/
def moduleBody : Parser (List Stmt) := do
  let groups ← many moduleItem
  pure groups.flatten

/-- What a parser makes of tokens: its value, or the first error. -/
def run {α : Type} (p : Parser α) (tokens : List Token) : Except ParseError α :=
  match p { rest := tokens } with
  | (some a, s) =>
    match s.firstError? with
    | some e => .error e
    | none => .ok a
  | (none, s) => .error (s.firstError?.getD ⟨.unexpected s.kind, s.span⟩)

end MysToCpp.Parser

namespace MysToCpp

/-- The module that tokens spell. -/
def parseTokens (tokens : List Token) : Except ParseError Module :=
  (Parser.moduleBody.run tokens).map (⟨·⟩)

/-- The expression that tokens start with. -/
def parseExpression (tokens : List Token) : Except ParseError Expr :=
  (Parser.expression Precedence.lowest.binding).run tokens

end MysToCpp
