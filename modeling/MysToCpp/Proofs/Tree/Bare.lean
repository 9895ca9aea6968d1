/-
# Trees without spans

Two expressions are the same program text in different places when they agree but for their spans.
`Expr.bare` forgets the spans, so that `e.bare = f.bare` says so.
-/
import MysToCpp.Tree.Expr

namespace MysToCpp

def Ident.bare (id : Ident) : Ident := { id with span := .nowhere }

@[simp] theorem Ident.name_bare (id : Ident) : id.bare.name = id.name := rfl

mutual

/-- An expression without the places of its parts. -/
def Expr.bare : Expr → Expr
  | .boolOp _ op values => .boolOp .nowhere op (Expr.bareAll values)
  | .named _ target value => .named .nowhere target.bare value.bare
  | .binary _ left op right => .binary .nowhere left.bare op right.bare
  | .unary _ op operand => .unary .nowhere op operand.bare
  | .lambda _ params body => .lambda .nowhere (Param.bareAll params) body.bare
  | .conditional _ test body orelse => .conditional .nowhere test.bare body.bare orelse.bare
  | .dict _ keys values => .dict .nowhere (Expr.bareAll keys) (Expr.bareAll values)
  | .set _ elements => .set .nowhere (Expr.bareAll elements)
  | .list _ elements => .list .nowhere (Expr.bareAll elements)
  | .tuple _ elements => .tuple .nowhere (Expr.bareAll elements)
  | .listComp _ element clauses => .listComp .nowhere element.bare (Comprehension.bareAll clauses)
  | .setComp _ element clauses => .setComp .nowhere element.bare (Comprehension.bareAll clauses)
  | .dictComp _ key value clauses =>
      .dictComp .nowhere key.bare value.bare (Comprehension.bareAll clauses)
  | .generator _ element clauses => .generator .nowhere element.bare (Comprehension.bareAll clauses)
  | .await _ value => .await .nowhere value.bare
  | .yield _ value => .yield .nowhere (Expr.bare? value)
  | .yieldFrom _ value => .yieldFrom .nowhere value.bare
  | .compare _ left ops comparators => .compare .nowhere left.bare ops (Expr.bareAll comparators)
  | .call _ func args keywords =>
      .call .nowhere func.bare (Expr.bareAll args) (KeywordArg.bareAll keywords)
  | .formatted _ text => .formatted .nowhere text
  | .constant _ value => .constant .nowhere value
  | .member _ value attr => .member .nowhere value.bare attr.bare
  | .subscript _ value index => .subscript .nowhere value.bare index.bare
  | .starred _ value => .starred .nowhere value.bare
  | .name _ id => .name .nowhere id
  | .slice _ lower upper step =>
      .slice .nowhere (Expr.bare? lower) (Expr.bare? upper) (Expr.bare? step)

def Expr.bare? : Option Expr → Option Expr
  | none => none
  | some e => some e.bare

def Expr.bareAll : List Expr → List Expr
  | [] => []
  | e :: rest => e.bare :: Expr.bareAll rest

def Comprehension.bare : Comprehension → Comprehension
  | ⟨target, source, conditions, isAsync⟩ =>
      ⟨target.bare, source.bare, Expr.bareAll conditions, isAsync⟩

def Comprehension.bareAll : List Comprehension → List Comprehension
  | [] => []
  | c :: rest => c.bare :: Comprehension.bareAll rest

def KeywordArg.bare : KeywordArg → KeywordArg
  | ⟨name, value, _⟩ => ⟨name.map Ident.bare, value.bare, .nowhere⟩

def KeywordArg.bareAll : List KeywordArg → List KeywordArg
  | [] => []
  | k :: rest => k.bare :: KeywordArg.bareAll rest

def Param.bare : Param → Param
  | ⟨name, hint, default, kind, _⟩ =>
      ⟨name.bare, Expr.bare? hint, Expr.bare? default, kind, .nowhere⟩

def Param.bareAll : List Param → List Param
  | [] => []
  | p :: rest => p.bare :: Param.bareAll rest

end

theorem Expr.bareAll_eq_map (es : List Expr) : Expr.bareAll es = es.map Expr.bare := by
  induction es with
  | nil => rfl
  | cons e es ih => rw [Expr.bareAll, ih, List.map_cons]

theorem KeywordArg.bareAll_eq_map (ks : List KeywordArg) :
    KeywordArg.bareAll ks = ks.map KeywordArg.bare := by
  induction ks with
  | nil => rfl
  | cons k ks ih => rw [KeywordArg.bareAll, ih, List.map_cons]

theorem Comprehension.bareAll_eq_map (cs : List Comprehension) :
    Comprehension.bareAll cs = cs.map Comprehension.bare := by
  induction cs with
  | nil => rfl
  | cons c cs ih => rw [Comprehension.bareAll, ih, List.map_cons]

theorem Param.bareAll_eq_map (ps : List Param) : Param.bareAll ps = ps.map Param.bare := by
  induction ps with
  | nil => rfl
  | cons p ps ih => rw [Param.bareAll, ih, List.map_cons]

theorem Expr.bare?_eq_map (e : Option Expr) : Expr.bare? e = e.map Expr.bare := by
  cases e <;> rfl

theorem Expr.name?_of_bare {e : Expr} {id : String} (h : e.bare = .name .nowhere id) :
    e.name? = some id := by
  cases e <;> simp_all [Expr.bare, Expr.name?]

@[simp] theorem Expr.name?_bare (e : Expr) : e.bare.name? = e.name? := by
  cases e <;> rfl

mutual

/-- Whether an expression can be assigned to does not depend on places. -/
theorem Expr.badTarget?_bare : ∀ e : Expr, e.bare.badTarget? = e.badTarget?.map Expr.bare
  | .tuple _ elements | .list _ elements => Expr.badTargets?_bareAll elements
  | .starred _ value => Expr.badTarget?_bare value
  | .name .. | .member .. | .subscript .. => rfl
  | .boolOp .. | .named .. | .binary .. | .unary .. | .lambda .. | .conditional .. | .dict .. | .set ..
  | .listComp .. | .setComp .. | .dictComp .. | .generator .. | .await .. | .yield .. | .yieldFrom ..
  | .compare .. | .call .. | .formatted .. | .constant .. | .slice .. => rfl

theorem Expr.badTargets?_bareAll (es : List Expr) :
    Expr.badTargets? (Expr.bareAll es) = (Expr.badTargets? es).map Expr.bare := by
  cases es with
  | nil => rfl
  | cons e es =>
      rw [Expr.bareAll, Expr.badTargets?, Expr.badTargets?, Expr.badTarget?_bare e]
      cases e.badTarget? with
      | none => exact Expr.badTargets?_bareAll es
      | some bad => rfl

end

end MysToCpp
