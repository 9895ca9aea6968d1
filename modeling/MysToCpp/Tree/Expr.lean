/-
# Expressions

The trees of expressions.  Every node holds the span of the text it was read from.
-/
import MysToCpp.Decimal.Binary64
import MysToCpp.Source.Position
import MysToCpp.Tree.Operator

namespace MysToCpp

/-- A name and where it stands. -/
structure Ident where
  name : String
  span : Span := .nowhere
  deriving DecidableEq, Repr, Inhabited

/-- The values that have a literal. -/
inductive Constant where
  | none
  | bool (value : Bool)
  | int (value : Nat)
  | float (value : Binary64)
  | text (value : String)
  | bytes (value : List UInt8)
  | ellipsis
  deriving DecidableEq, Repr, Inhabited

/-- How a parameter takes its arguments. -/
inductive ParamKind where
  | positional
  /-- All remaining positional arguments. -/
  | rest
  | keywordOnly
  /-- All remaining keyword arguments. -/
  | keywordRest
  deriving DecidableEq, Repr, Inhabited

mutual

inductive Expr where
  | boolOp (span : Span) (op : BoolOp) (values : List Expr)
  /-- `target := value` -/
  | named (span : Span) (target value : Expr)
  | binary (span : Span) (left : Expr) (op : BinaryOp) (right : Expr)
  | unary (span : Span) (op : UnaryOp) (operand : Expr)
  | lambda (span : Span) (params : List Param) (body : Expr)
  /-- `body if test else orelse` -/
  | conditional (span : Span) (test body orelse : Expr)
  | dict (span : Span) (keys values : List Expr)
  | set (span : Span) (elements : List Expr)
  | list (span : Span) (elements : List Expr)
  | tuple (span : Span) (elements : List Expr)
  | listComp (span : Span) (element : Expr) (clauses : List Comprehension)
  | setComp (span : Span) (element : Expr) (clauses : List Comprehension)
  | dictComp (span : Span) (key value : Expr) (clauses : List Comprehension)
  | generator (span : Span) (element : Expr) (clauses : List Comprehension)
  | await (span : Span) (value : Expr)
  | yield (span : Span) (value : Option Expr)
  | yieldFrom (span : Span) (value : Expr)
  /-- `left op₁ comparator₁ op₂ comparator₂ …` -/
  | compare (span : Span) (left : Expr) (ops : List CompareOp) (comparators : List Expr)
  | call (span : Span) (func : Expr) (args : List Expr) (keywords : List KeywordArg)
  | formatted (span : Span) (text : String)
  | constant (span : Span) (value : Constant)
  | member (span : Span) (value : Expr) (attr : Ident)
  | subscript (span : Span) (value index : Expr)
  | starred (span : Span) (value : Expr)
  | name (span : Span) (id : String)
  | slice (span : Span) (lower upper step : Option Expr)

/-- A clause `for target in source if condition …` of a comprehension. -/
structure Comprehension where
  target : Expr
  source : Expr
  conditions : List Expr
  isAsync : Bool

/-- An argument `name=value`, or `**value` without a name. -/
structure KeywordArg where
  name : Option Ident
  value : Expr
  span : Span

structure Param where
  name : Ident
  hint : Option Expr
  default : Option Expr
  kind : ParamKind
  span : Span

end

instance : Inhabited Expr := ⟨.constant .nowhere .none⟩

namespace Expr

def span : Expr → Span
  | boolOp s .. | named s .. | binary s .. | unary s .. | lambda s .. | conditional s .. | dict s ..
  | set s .. | list s .. | tuple s .. | listComp s .. | setComp s .. | dictComp s .. | generator s ..
  | await s .. | yield s .. | yieldFrom s .. | compare s .. | call s .. | formatted s ..
  | constant s .. | member s .. | subscript s .. | starred s .. | name s .. | slice s .. => s

/-- The text of a bare name. -/
def name? : Expr → Option String
  | name _ id => some id
  | _ => none

theorem name?_eq_some {e : Expr} {id : String} : name? e = some id ↔ ∃ span, e = .name span id := by
  constructor
  · intro h
    cases e with
    | name span id' =>
        cases h
        exact ⟨span, rfl⟩
    | _ => cases h
  · rintro ⟨span, rfl⟩
    rfl

/-- What a message calls an expression. -/
def describe : Expr → String
  | boolOp .. | binary .. | unary .. => "expression"
  | named .. => "named expression"
  | lambda .. => "lambda"
  | conditional .. => "conditional expression"
  | dict .. => "dict literal"
  | set .. => "set display"
  | listComp .. => "list comprehension"
  | setComp .. => "set comprehension"
  | dictComp .. => "dict comprehension"
  | generator .. => "generator expression"
  | await .. => "await expression"
  | yield .. | yieldFrom .. => "yield expression"
  | compare .. => "comparison"
  | call .. => "function call"
  | formatted .. => "f-string expression"
  | constant .. => "literal"
  | member .. => "attribute"
  | subscript .. => "subscript"
  | starred .. => "starred"
  | name .. => "name"
  | list .. => "list"
  | tuple .. => "tuple"
  | slice .. => "slice"

/-- Whether one value can be assigned to an expression: a name, an attribute or a subscript. -/
def isSingleTarget : Expr → Bool
  | name .. | member .. | subscript .. => true
  | _ => false

mutual

/-- The first part of an expression that cannot be assigned to. -/
def badTarget? : Expr → Option Expr
  | name .. | member .. | subscript .. => none
  | tuple _ elements | list _ elements => badTargets? elements
  | starred _ value => badTarget? value
  | other => some other

/-- The first part of a list of expressions that cannot be assigned to. -/
def badTargets? : List Expr → Option Expr
  | [] => none
  | e :: rest =>
    match badTarget? e with
    | some bad => some bad
    | none => badTargets? rest

end

end Expr

end MysToCpp
