/-
# Trees as nodes

Everything in a tree that has a span of its own, as one type, with the nodes directly below each: the
parts of a clause or of a handler count as parts of the expression or statement that it belongs to.  A
node is `Nested` if its span lies between two places, its parts lie inside of it and are nested
themselves, and the statements of each of its blocks follow each other.  Decorators stand in front.
-/
import MysToCpp.Proofs.Source.Place
import MysToCpp.Tree.Stmt

namespace MysToCpp

/-- A part of a tree with a span. -/
inductive Node where
  | expr (e : Expr)
  | stmt (s : Stmt)
  | param (p : Param)
  | keyword (k : KeywordArg)
  | imported (a : Alias)
  | ident (i : Ident)

def Node.span : Node → Span
  | expr e => e.span
  | stmt s => s.span
  | param p => p.span
  | keyword k => k.span
  | imported a => a.span
  | ident i => i.span

/-! ## Parts -/

def Comprehension.parts (c : Comprehension) : List Node :=
  .expr c.target :: .expr c.source :: c.conditions.map .expr

def Param.parts (p : Param) : List Node :=
  .ident p.name :: (p.hint.toList ++ p.default.toList).map .expr

def KeywordArg.parts (k : KeywordArg) : List Node :=
  k.name.toList.map .ident ++ [.expr k.value]

def Alias.parts (a : Alias) : List Node := a.asName.toList.map .ident

/-- The nodes directly below an expression. -/
def Expr.parts : Expr → List Node
  | boolOp _ _ values => values.map .expr
  | named _ target value => [.expr target, .expr value]
  | binary _ left _ right => [.expr left, .expr right]
  | unary _ _ operand => [.expr operand]
  | lambda _ params body => params.map .param ++ [.expr body]
  | conditional _ test body orelse => [.expr body, .expr test, .expr orelse]
  | dict _ keys values => (keys ++ values).map .expr
  | set _ elements | list _ elements | tuple _ elements => elements.map .expr
  | listComp _ element clauses | setComp _ element clauses | generator _ element clauses =>
    .expr element :: clauses.flatMap (·.parts)
  | dictComp _ key value clauses => .expr key :: .expr value :: clauses.flatMap (·.parts)
  | await _ value | yieldFrom _ value | starred _ value => [.expr value]
  | yield _ value => value.toList.map .expr
  | compare _ left _ comparators => (left :: comparators).map .expr
  | call _ func args keywords => (func :: args).map .expr ++ keywords.map .keyword
  | formatted .. | constant .. | name .. => []
  | member _ value attr => [.expr value, .ident attr]
  | subscript _ value index => [.expr value, .expr index]
  | slice _ lower upper step => (lower.toList ++ upper.toList ++ step.toList).map .expr

def WithItem.parts (item : WithItem) : List Node :=
  .expr item.context :: item.target.toList.map .expr

def Handler.parts (h : Handler) : List Node :=
  h.kind.toList.map .expr ++ h.name.toList.map .ident ++ h.body.map .stmt

def FunctionDef.parts (f : FunctionDef) : List Node :=
  .ident f.name :: (f.params.map .param ++ f.returns.toList.map .expr ++ f.body.map .stmt)

def ClassDef.parts (c : ClassDef) : List Node :=
  .ident c.name :: (c.bases.map .expr ++ c.keywords.map .keyword ++ c.body.map .stmt)

/-- The nodes directly below a statement, its decorators apart. -/
def Stmt.parts : Stmt → List Node
  | functionDef _ f => f.parts
  | classDef _ c => c.parts
  | ret _ value => value.toList.map .expr
  | delete _ targets => targets.map .expr
  | assign _ targets value => (targets ++ [value]).map .expr
  | augAssign _ target _ value => [.expr target, .expr value]
  | annAssign _ target hint value => (target :: hint :: value.toList).map .expr
  | forLoop _ target source body orelse _ =>
    .expr target :: .expr source :: (body ++ orelse).map .stmt
  | whileLoop _ test body orelse | ifElse _ test body orelse =>
    .expr test :: (body ++ orelse).map .stmt
  | withBlock _ items body _ => items.flatMap (·.parts) ++ body.map .stmt
  | raise _ exception cause => (exception.toList ++ cause.toList).map .expr
  | tryBlock _ body handlers orelse final =>
    body.map .stmt ++ handlers.flatMap (·.parts) ++ (orelse ++ final).map .stmt
  | assert _ test message => (test :: message.toList).map .expr
  | importModules _ names | importFrom _ _ names _ => names.map .imported
  | globals _ names | nonlocals _ names => names.map .ident
  | expr _ value => [.expr value]
  | pass _ | breakLoop _ | continueLoop _ => []

/-- The blocks of a statement. -/
def Stmt.blocks : Stmt → List (List Stmt)
  | functionDef _ f => [f.body]
  | classDef _ c => [c.body]
  | forLoop _ _ _ body orelse _ | whileLoop _ _ body orelse | ifElse _ _ body orelse =>
    [body, orelse]
  | withBlock _ _ body _ => [body]
  | tryBlock _ body handlers orelse final => body :: orelse :: final :: handlers.map (·.body)
  | _ => []

def Stmt.decorators : Stmt → List Expr
  | functionDef _ f => f.decorators
  | classDef _ c => c.decorators
  | _ => []

namespace Node

/-- The nodes directly below a node, decorators apart. -/
def parts : Node → List Node
  | expr e => e.parts
  | stmt s => s.parts
  | param p => p.parts
  | keyword k => k.parts
  | imported a => a.parts
  | ident _ => []

def decorators : Node → List Node
  | stmt s => s.decorators.map expr
  | _ => []

def blocks : Node → List (List Stmt)
  | stmt s => s.blocks
  | _ => []

/-! ## Nesting -/

/-- The statements of a block follow each other. -/
def Follow (block : List Stmt) : Prop :=
  block.Pairwise fun s t => s.span.stop.offset ≤ t.span.start.offset

theorem follow_of_inOrder {block : List Stmt} {lo hi : Nat}
    (h : Span.InOrder lo hi (block.map Stmt.span)) : Follow block :=
  List.pairwise_map.mp h.pairwise

/-- A node between two places that holds the spans of its parts, stands behind its decorators, and whose
blocks are in order. -/
structure Spaced (place : Position → Prop) (x : Node) : Prop where
  between : x.span.Between place
  parts : ∀ c ∈ x.parts, x.span.start.offset ≤ c.span.start.offset ∧
    c.span.stop.offset ≤ x.span.stop.offset
  decorators : ∀ d ∈ x.decorators, d.span.stop.offset ≤ x.span.start.offset
  blocks : ∀ b ∈ x.blocks, Follow b

/-- A node whose spans nest, all the way down. -/
inductive Nested (place : Position → Prop) : Node → Prop
  | mk {x : Node} : x.Spaced place → (∀ c ∈ x.parts, Nested place c) →
      (∀ d ∈ x.decorators, Nested place d) → Nested place x

variable {place : Position → Prop}

theorem Nested.spaced {x : Node} (h : x.Nested place) : x.Spaced place := by
  cases h
  assumption

theorem Nested.between {x : Node} (h : x.Nested place) : x.span.Between place := h.spaced.between

theorem Nested.part {x c : Node} (h : x.Nested place) (hc : c ∈ x.parts) : c.Nested place := by
  cases h with
  | mk _ hparts => exact hparts c hc

end Node

end MysToCpp
