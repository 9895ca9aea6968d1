/-
# Lists, comprehensions and parameters

The parts that expressions and statements share.  They are written over the parser `nested` of the
expressions inside of them, which takes the binding power that its operators need.
-/
import MysToCpp.Parser.Basic
import MysToCpp.Parser.Precedence

namespace MysToCpp.Parser

open Keyword Punct

/-- Parses an expression whose operators bind at least as tightly as a binding power. -/
abbrev Nested := Nat → Parser Expr

def anyExpr (nested : Nested) : Parser Expr := nested Precedence.lowest.binding

/-- Expressions with commas between them: the expression if there is no comma, and else a tuple, which
may end with one. -/
def expressionList (nested : Nested) (binding : Nat) : Parser Expr := do
  let first ← nested binding
  if ← isAt comma then
    let more ← many do
      if ← skip comma then
        if (← kind).startsExpression then
          let e ← nested binding
          pure (some e)
        else pure none
      else pure none
    pure (.tuple (← spanFrom first.span) (first :: more))
  else pure first

/-- Items behind a first one, each with a comma in front; the last comma may stand before `closing`. -/
def moreItems {α : Type} (closing : TokenKind) (item : Parser α) : Parser (List α) :=
  many do
    if ← skip comma then
      if ← isAt closing then pure none
      else
        let x ← item
        pure (some x)
    else pure none

/-- An item and whether a comma stands behind it, unless there was none before or `closing` is next. -/
def itemStep {α : Type} (closing : TokenKind) (item : Parser α) (goesOn : Bool) :
    Parser (Option (α × Bool)) := do
  if goesOn && !(← isAt closing) then
    let x ← item
    let goesOn ← skip comma
    pure (some (x, goesOn))
  else pure none

/-- Items with commas between them, up to `closing`; the last comma may stand before it. -/
def items {α : Type} (closing : TokenKind) (item : Parser α) : Parser (List α) :=
  unfold (itemStep closing item) true

/-- Fails unless `target` can be assigned to. -/
def checkTarget (target : Expr) : Parser Unit :=
  match target.badTarget? with
  | some bad => failWith ("cannot assign to " ++ bad.describe) bad.span
  | none => pure ()

def atAsyncFor : Parser Bool :=
  ask fun s => s.isAt asyncKw && s.secondKind.isKeyword forKw

def atComprehension : Parser Bool :=
  ask fun s => s.isAt forKw || (s.isAt asyncKw && s.secondKind.isKeyword forKw)

/-- Goes on behind `for`: `target in source if condition …`. -/
def comprehension (nested : Nested) (isAsync : Bool) : Parser Comprehension := do
  let target ← expressionList nested Precedence.target
  checkTarget target
  let _ ← expect inKw
  let source ← nested Precedence.or.binding
  let conditions ← many (after ifKw (nested Precedence.or.binding))
  pure ⟨target, source, conditions, isAsync⟩

def comprehensions (nested : Nested) : Parser (List Comprehension) :=
  many do
    let isAsync ← atAsyncFor
    if isAsync then advance
    after forKw (comprehension nested isAsync)

/-- A parameter `name: annotation = default`; the annotation only where `annotated` allows one. -/
def parameter (nested : Nested) (annotated : Bool) (kind : ParamKind) (start : Span) :
    Parser Param := do
  let name ← identifier
  let hint ← if annotated then after colon (anyExpr nested) else pure none
  let default ← after assign (anyExpr nested)
  pure ⟨name, hint, default, kind, ← spanFrom start⟩

/-- A parameter, or a mark between parameters: `/`, or `*` alone.  The kind is that of the plain
parameters from here on. -/
def parameterOrMark (nested : Nested) (closing : TokenKind) (annotated : Bool) (kind : ParamKind) :
    Parser (Option Param × ParamKind) := do
  let start ← span
  if ← skip slash then pure (none, kind)
  else if ← skip star then
    let bare := (← isAt comma) || (← isAt closing)
    if bare then pure (none, .keywordOnly)
    else
      let p ← parameter nested annotated .rest start
      pure (some p, .keywordOnly)
  else if ← skip doubleStar then
    let p ← parameter nested annotated .keywordRest start
    pure (some p, kind)
  else
    let p ← parameter nested annotated kind start
    pure (some p, kind)

/-- Parameters up to `closing`. -/
def parameters (nested : Nested) (closing : TokenKind) (annotated : Bool) : Parser (List Param) := do
  let found ← unfold (fun (now : Bool × ParamKind) => do
    if now.1 && !(← isAt closing) then
      let (param, kind) ← parameterOrMark nested closing annotated now.2
      let goesOn ← skip comma
      pure (some (param, (goesOn, kind)))
    else pure none) (true, .positional)
  pure (found.filterMap id)

end MysToCpp.Parser
