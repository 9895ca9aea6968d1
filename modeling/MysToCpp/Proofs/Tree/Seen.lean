/-
# What the translation reads of a tree

Not all of a tree goes into its C++ text.  `Module.seen` clears what does not: every span; the index of a
subscript and the entries of a dictionary, unless they stand in a type annotation; the message of an
`assert` and the cause of a `raise`; what an import names at the top level; whatever a class holds beside
its methods; and of a method the annotation, the default and the kind of its first parameter, and the
result type if it is a constructor.  Two modules agree but for these parts if `seen` makes them equal.

A type annotation is read as a whole, so that only its spans are cleared (`Expr.bare`).
-/
import MysToCpp.Proofs.Tree.Bare
import MysToCpp.Tree.Stmt

namespace MysToCpp

mutual

/-- An expression that is no type annotation, with what is read of it. -/
def Expr.seen : Expr → Expr
  | .boolOp _ op values => .boolOp .nowhere op (Expr.seenAll values)
  | .named _ target value => .named .nowhere target.seen value.seen
  | .binary _ left op right => .binary .nowhere left.seen op right.seen
  | .unary _ op operand => .unary .nowhere op operand.seen
  | .lambda _ params body => .lambda .nowhere (Param.seenAll params) body.seen
  | .conditional _ test body orelse => .conditional .nowhere test.seen body.seen orelse.seen
  | .dict .. => .dict .nowhere [] []
  | .set _ elements => .set .nowhere (Expr.seenAll elements)
  | .list _ elements => .list .nowhere (Expr.seenAll elements)
  | .tuple _ elements => .tuple .nowhere (Expr.seenAll elements)
  | .listComp _ element clauses => .listComp .nowhere element.seen (Comprehension.seenAll clauses)
  | .setComp _ element clauses => .setComp .nowhere element.seen (Comprehension.seenAll clauses)
  | .dictComp _ key value clauses =>
      .dictComp .nowhere key.seen value.seen (Comprehension.seenAll clauses)
  | .generator _ element clauses => .generator .nowhere element.seen (Comprehension.seenAll clauses)
  | .await _ value => .await .nowhere value.seen
  | .yield _ value => .yield .nowhere (Expr.seen? value)
  | .yieldFrom _ value => .yieldFrom .nowhere value.seen
  | .compare _ left ops comparators => .compare .nowhere left.seen ops (Expr.seenAll comparators)
  | .call _ func args keywords =>
      .call .nowhere func.seen (Expr.seenAll args) (KeywordArg.seenAll keywords)
  | .formatted _ text => .formatted .nowhere text
  | .constant _ value => .constant .nowhere value
  | .member _ value attr => .member .nowhere value.seen attr.bare
  | .subscript _ value _ => .subscript .nowhere value.seen (.constant .nowhere .none)
  | .starred _ value => .starred .nowhere value.seen
  | .name _ id => .name .nowhere id
  | .slice _ lower upper step =>
      .slice .nowhere (Expr.seen? lower) (Expr.seen? upper) (Expr.seen? step)

def Expr.seen? : Option Expr → Option Expr
  | none => none
  | some e => some e.seen

def Expr.seenAll : List Expr → List Expr
  | [] => []
  | e :: rest => e.seen :: Expr.seenAll rest

def Comprehension.seen : Comprehension → Comprehension
  | ⟨target, source, conditions, isAsync⟩ =>
      ⟨target.seen, source.seen, Expr.seenAll conditions, isAsync⟩

def Comprehension.seenAll : List Comprehension → List Comprehension
  | [] => []
  | c :: rest => c.seen :: Comprehension.seenAll rest

def KeywordArg.seen : KeywordArg → KeywordArg
  | ⟨name, value, _⟩ => ⟨name.map Ident.bare, value.seen, .nowhere⟩

def KeywordArg.seenAll : List KeywordArg → List KeywordArg
  | [] => []
  | k :: rest => k.seen :: KeywordArg.seenAll rest

/-- The annotation of a parameter is a type. -/
def Param.seen : Param → Param
  | ⟨name, hint, default, kind, _⟩ =>
      ⟨name.bare, Expr.bare? hint, Expr.seen? default, kind, .nowhere⟩

def Param.seenAll : List Param → List Param
  | [] => []
  | p :: rest => p.seen :: Param.seenAll rest

end

/-- Only the name of the first parameter of a method is read. -/
def Param.seenSelf : Param → Param
  | ⟨name, _, _, _, _⟩ => ⟨name.bare, none, none, .positional, .nowhere⟩

def Param.seenOfMethod : List Param → List Param
  | [] => []
  | self :: rest => self.seenSelf :: rest.map Param.seen

def Alias.bare (a : Alias) : Alias := ⟨a.name, a.asName.map Ident.bare, .nowhere⟩

def WithItem.seen (item : WithItem) : WithItem := ⟨item.context.seen, item.target.map Expr.seen⟩

mutual

/-- A statement with what is read of it. -/
def Stmt.seen : Stmt → Stmt
  | .functionDef _ f => .functionDef .nowhere f.seen
  | .classDef _ c => .classDef .nowhere c.seen
  | .ret _ value => .ret .nowhere (value.map Expr.seen)
  | .delete _ targets => .delete .nowhere (targets.map Expr.seen)
  | .assign _ targets value => .assign .nowhere (targets.map Expr.seen) value.seen
  | .augAssign _ target op value => .augAssign .nowhere target.seen op value.seen
  | .annAssign _ target hint value => .annAssign .nowhere target.seen hint.bare (value.map Expr.seen)
  | .forLoop _ target source body orelse isAsync =>
      .forLoop .nowhere target.seen source.seen (Stmt.seenAll body) (Stmt.seenAll orelse) isAsync
  | .whileLoop _ test body orelse =>
      .whileLoop .nowhere test.seen (Stmt.seenAll body) (Stmt.seenAll orelse)
  | .ifElse _ test body orelse => .ifElse .nowhere test.seen (Stmt.seenAll body) (Stmt.seenAll orelse)
  | .withBlock _ items body isAsync =>
      .withBlock .nowhere (items.map WithItem.seen) (Stmt.seenAll body) isAsync
  | .raise _ exception _ => .raise .nowhere (exception.map Expr.seen) none
  | .tryBlock _ body handlers orelse final =>
      .tryBlock .nowhere (Stmt.seenAll body) (Handler.seenAll handlers) (Stmt.seenAll orelse)
        (Stmt.seenAll final)
  | .assert _ test _ => .assert .nowhere test.seen none
  | .importModules _ names => .importModules .nowhere (names.map Alias.bare)
  | .importFrom _ module names level => .importFrom .nowhere module (names.map Alias.bare) level
  | .globals _ names => .globals .nowhere (names.map Ident.bare)
  | .nonlocals _ names => .nonlocals .nowhere (names.map Ident.bare)
  | .expr _ value => .expr .nowhere value.seen
  | .pass _ => .pass .nowhere
  | .breakLoop _ => .breakLoop .nowhere
  | .continueLoop _ => .continueLoop .nowhere

def Stmt.seenAll : List Stmt → List Stmt
  | [] => []
  | stmt :: rest => stmt.seen :: Stmt.seenAll rest

/-- The methods of a class; what else stands in it is not read. -/
def Stmt.seenMethods : List Stmt → List Stmt
  | [] => []
  | .functionDef _ method :: rest => .functionDef .nowhere method.seenMethod :: Stmt.seenMethods rest
  | _ :: rest => Stmt.seenMethods rest

def FunctionDef.seen : FunctionDef → FunctionDef
  | ⟨name, params, body, decorators, returns, isAsync⟩ =>
      ⟨name.bare, params.map Param.seen, Stmt.seenAll body, decorators.map Expr.seen,
        Expr.bare? returns, isAsync⟩

/-- A method; a constructor has no result type. -/
def FunctionDef.seenMethod : FunctionDef → FunctionDef
  | ⟨name, params, body, decorators, returns, isAsync⟩ =>
      ⟨name.bare, Param.seenOfMethod params, Stmt.seenAll body, decorators.map Expr.seen,
        if name.name = "__init__" then none else Expr.bare? returns, isAsync⟩

def ClassDef.seen : ClassDef → ClassDef
  | ⟨name, bases, keywords, body, decorators⟩ =>
      ⟨name.bare, bases.map Expr.seen, keywords.map KeywordArg.seen, Stmt.seenMethods body,
        decorators.map Expr.seen⟩

def Handler.seen : Handler → Handler
  | ⟨kind, name, body, _⟩ =>
      ⟨kind.map Expr.seen, name.map Ident.bare, Stmt.seenAll body, .nowhere⟩

def Handler.seenAll : List Handler → List Handler
  | [] => []
  | h :: rest => h.seen :: Handler.seenAll rest

end

/-- A statement of a module; of an import nothing but that it is one is read. -/
def Stmt.seenOfModule : Stmt → Stmt
  | .importModules .. => .importModules .nowhere []
  | .importFrom .. => .importFrom .nowhere none [] 0
  | stmt => stmt.seen

/-- A module with what is read of it. -/
def Module.seen (m : Module) : Module := ⟨m.body.map Stmt.seenOfModule⟩

theorem Expr.seenAll_eq_map (es : List Expr) : Expr.seenAll es = es.map Expr.seen := by
  induction es with
  | nil => rfl
  | cons e es ih => rw [Expr.seenAll, ih, List.map_cons]

theorem Param.name_seen (p : Param) : p.seen.name.name = p.name.name := by
  cases p
  rfl

theorem FunctionDef.seen_eq (f : FunctionDef) :
    f.seen = ⟨f.name.bare, f.params.map Param.seen, Stmt.seenAll f.body, f.decorators.map Expr.seen,
      Expr.bare? f.returns, f.isAsync⟩ := by
  cases f
  rfl

theorem FunctionDef.seenMethod_eq (f : FunctionDef) :
    f.seenMethod = ⟨f.name.bare, Param.seenOfMethod f.params, Stmt.seenAll f.body,
      f.decorators.map Expr.seen, if f.name.name = "__init__" then none else Expr.bare? f.returns,
      f.isAsync⟩ := by
  cases f
  rfl

theorem ClassDef.seen_eq (c : ClassDef) :
    c.seen = ⟨c.name.bare, c.bases.map Expr.seen, c.keywords.map KeywordArg.seen,
      Stmt.seenMethods c.body, c.decorators.map Expr.seen⟩ := by
  cases c
  rfl

end MysToCpp
