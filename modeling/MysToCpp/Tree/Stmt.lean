/-
# Statements

The trees of statements.  A module is a list of them.
-/
import MysToCpp.Tree.Expr

namespace MysToCpp

/-- An item `context as target` of a `with` statement. -/
structure WithItem where
  context : Expr
  target : Option Expr

/-- An imported name, with dots or without, and the name it gets. -/
structure Alias where
  name : String
  asName : Option Ident
  span : Span
  deriving DecidableEq, Repr, Inhabited

mutual

inductive Stmt where
  | functionDef (span : Span) (function : FunctionDef)
  | classDef (span : Span) (definition : ClassDef)
  | ret (span : Span) (value : Option Expr)
  | delete (span : Span) (targets : List Expr)
  /-- `target₁ = target₂ = … = value` -/
  | assign (span : Span) (targets : List Expr) (value : Expr)
  /-- `target op= value` -/
  | augAssign (span : Span) (target : Expr) (op : BinaryOp) (value : Expr)
  /-- `target: annotation = value` -/
  | annAssign (span : Span) (target hint : Expr) (value : Option Expr)
  | forLoop (span : Span) (target source : Expr) (body orelse : List Stmt) (isAsync : Bool)
  | whileLoop (span : Span) (test : Expr) (body orelse : List Stmt)
  | ifElse (span : Span) (test : Expr) (body orelse : List Stmt)
  | withBlock (span : Span) (items : List WithItem) (body : List Stmt) (isAsync : Bool)
  | raise (span : Span) (exception cause : Option Expr)
  | tryBlock (span : Span) (body : List Stmt) (handlers : List Handler) (orelse final : List Stmt)
  | assert (span : Span) (test : Expr) (message : Option Expr)
  | importModules (span : Span) (names : List Alias)
  | importFrom (span : Span) (module : Option String) (names : List Alias) (level : Nat)
  | globals (span : Span) (names : List Ident)
  | nonlocals (span : Span) (names : List Ident)
  | expr (span : Span) (value : Expr)
  | pass (span : Span)
  | breakLoop (span : Span)
  | continueLoop (span : Span)

/-- A function or method. -/
structure FunctionDef where
  name : Ident
  params : List Param
  body : List Stmt
  decorators : List Expr
  returns : Option Expr
  isAsync : Bool

structure ClassDef where
  name : Ident
  bases : List Expr
  keywords : List KeywordArg
  body : List Stmt
  decorators : List Expr

/-- A clause `except kind as name` of a `try` statement. -/
structure Handler where
  kind : Option Expr
  name : Option Ident
  body : List Stmt
  span : Span

end

instance : Inhabited Stmt := ⟨.pass .nowhere⟩

def Stmt.span : Stmt → Span
  | functionDef s .. | classDef s .. | ret s .. | delete s .. | assign s .. | augAssign s ..
  | annAssign s .. | forLoop s .. | whileLoop s .. | ifElse s .. | withBlock s .. | raise s ..
  | tryBlock s .. | assert s .. | importModules s .. | importFrom s .. | globals s ..
  | nonlocals s .. | expr s .. | pass s | breakLoop s | continueLoop s => s

/-- A source text as a tree. -/
structure Module where
  body : List Stmt
  deriving Inhabited

end MysToCpp
