/-
# The shape of trees

The type of trees admits more than the grammar: a comparison without operators, a dictionary with a key
too many, a literal that is assigned to.  `WellFormed` says what a node of a program is like when one
looks at it and at what stands directly below it, and `Stmt.Filled` that its blocks hold something.
What is allowed of an expression depends on where it stands in one respect only: a slice is an index or
one of several indices.  So nodes are reached together with their `Role`.

`Node.Formed` is the form in which all of this is carried through a parser.  It depends on what is known
about the tokens that the tree was read from, the `Promise`.
-/
import MysToCpp.Proofs.Tree.Node

namespace MysToCpp

/-! ## Targets -/

/-- What one value can be bound to: a name, an attribute or a subscript. -/
inductive Expr.IsVariable : Expr → Prop
  | name (span : Span) (id : String) : IsVariable (.name span id)
  | member (span : Span) (value : Expr) (attr : Ident) : IsVariable (.member span value attr)
  | subscript (span : Span) (value index : Expr) : IsVariable (.subscript span value index)

/-- What a value can be bound to: one variable, or several in tuples and lists. -/
inductive Expr.IsTarget : Expr → Prop
  | single {e : Expr} : e.IsVariable → IsTarget e
  | tuple {span : Span} {elements : List Expr} : (∀ e ∈ elements, IsTarget e) →
      IsTarget (.tuple span elements)
  | list {span : Span} {elements : List Expr} : (∀ e ∈ elements, IsTarget e) →
      IsTarget (.list span elements)
  | starred {span : Span} {value : Expr} : IsTarget value → IsTarget (.starred span value)

theorem Expr.isVariable_of_isSingleTarget {e : Expr} (h : e.isSingleTarget = true) :
    e.IsVariable := by
  unfold isSingleTarget at h
  split at h
  · exact .name _ _
  · exact .member _ _ _
  · exact .subscript _ _ _
  · cases h

theorem Expr.isTarget_of_badTarget? {e : Expr} (h : e.badTarget? = none) : e.IsTarget := by
  induction e using Expr.badTarget?.induct _ (fun es => Expr.badTargets? es = none →
    ∀ e ∈ es, e.IsTarget) with
  | case1 => exact .single (.name _ _)
  | case2 => exact .single (.member _ _ _)
  | case3 => exact .single (.subscript _ _ _)
  | case4 _ elements ih => exact .tuple (ih h)
  | case5 _ elements ih => exact .list (ih h)
  | case6 _ value ih => exact .starred (ih h)
  | case7 other =>
      have hself : other.badTarget? = some other := by rw [Expr.badTarget?] <;> assumption
      cases hself.symm.trans h
  | case8 _ e he => cases he
  | case9 e rest bad he ih hbads =>
      rw [Expr.badTargets?, he] at hbads
      cases hbads
  | case10 e rest he ih ihrest hbads e' he' =>
      rw [Expr.badTargets?, he] at hbads
      rcases List.mem_cons.mp he' with rfl | hmem
      · exact ih he
      · exact ihrest hbads e' hmem

/-! ## Nodes -/

def Expr.isSlice : Expr → Bool
  | slice .. => true
  | _ => false

/-- An expression whose parts fit together. -/
def Expr.WellFormed : Expr → Prop
  | boolOp _ _ values => 2 ≤ values.length
  | compare _ _ ops comparators => 1 ≤ ops.length ∧ comparators.length = ops.length
  | dict _ keys values => keys.length = values.length
  | set _ elements => elements ≠ []
  | listComp _ _ clauses | setComp _ _ clauses | dictComp _ _ _ clauses | generator _ _ clauses =>
    clauses ≠ [] ∧ ∀ c ∈ clauses, c.target.IsTarget
  | named _ target _ => ∃ span id, target = .name span id
  | _ => True

/-- A statement whose parts fit together. -/
def Stmt.WellFormed : Stmt → Prop
  | assign _ targets _ | delete _ targets => targets ≠ [] ∧ ∀ e ∈ targets, e.IsTarget
  | augAssign _ target _ _ | annAssign _ target _ _ => target.IsVariable
  | forLoop _ target _ _ _ _ => target.IsTarget
  | withBlock _ items _ _ => ∀ item ∈ items, ∀ e ∈ item.target, e.IsTarget
  | tryBlock _ _ handlers orelse final =>
    (handlers ≠ [] ∨ final ≠ []) ∧ (orelse ≠ [] → handlers ≠ [])
  | importModules _ names => names ≠ []
  | importFrom _ module names level => names ≠ [] ∧ (module ≠ none ∨ 1 ≤ level)
  | globals _ names | nonlocals _ names => names ≠ []
  | _ => True

/-- A statement that holds at least one statement wherever it must hold some; `else` and `finally` may
be missing. -/
def Stmt.Filled : Stmt → Prop
  | functionDef _ f => f.body ≠ []
  | classDef _ c => c.body ≠ []
  | forLoop _ _ _ body _ _ | whileLoop _ _ body _ | ifElse _ _ body _ | withBlock _ _ body _ =>
    body ≠ []
  | tryBlock _ body handlers _ _ => body ≠ [] ∧ ∀ h ∈ handlers, h.body ≠ []
  | _ => True

def Node.WellFormed : Node → Prop
  | expr e => e.WellFormed
  | stmt s => s.WellFormed
  | _ => True

/-! ## Roles -/

/-- Where an expression stands. -/
inductive Role where
  | plain
  /-- The index of a subscript. -/
  | index
  /-- One of several indices. -/
  | axis

/-- The nodes directly below a node that stands in a role, with the roles of their own. -/
def Node.partsAt : Role → Node → List (Role × Node)
  | _, .expr (.subscript _ value index) => [(.plain, .expr value), (.index, .expr index)]
  | .index, .expr (.tuple _ elements) => elements.map fun e => (.axis, .expr e)
  | _, x => x.parts.map fun c => (.plain, c)

/-- The nodes of a module, at every depth. -/
inductive Module.Has (m : Module) : Role → Node → Prop
  | top {s : Stmt} : s ∈ m.body → Has m .plain (.stmt s)
  | part {r r' : Role} {x c : Node} : Has m r x → (r', c) ∈ x.partsAt r → Has m r' c
  | decorator {r : Role} {x d : Node} : Has m r x → d ∈ x.decorators → Has m .plain d

theorem Node.map_snd_partsAt (r : Role) (x : Node) : (x.partsAt r).map Prod.snd = x.parts := by
  unfold partsAt
  split
  · rfl
  · simp [parts, Expr.parts, Function.comp_def]
  · simp [Function.comp_def]

theorem Node.mem_parts {r r' : Role} {x c : Node} (h : (r', c) ∈ x.partsAt r) : c ∈ x.parts := by
  rw [← map_snd_partsAt r x]
  exact List.mem_map_of_mem h

theorem Module.Has.child {m : Module} {r : Role} {x c : Node} (h : m.Has r x) (hc : c ∈ x.parts) :
    ∃ r', m.Has r' c := by
  rw [← Node.map_snd_partsAt r x] at hc
  obtain ⟨⟨r', c'⟩, hmem, rfl⟩ := List.mem_map.mp hc
  exact ⟨r', h.part hmem⟩

/-! ## Formed trees -/

/-- What is known about the tokens of a program, and so about the tree read from them. -/
structure Promise where
  /-- What names are known to be. -/
  word : String → Prop
  /-- Whether something is known to stand in every block that is opened. -/
  filled : Prop
  /-- Whether the tokens are known to stand one behind the other, between places. -/
  placed : Prop
  place : Position → Prop

/-- The names that stand in a node itself are words. -/
def Node.Spelled (word : String → Prop) : Node → Prop
  | expr (.name _ id) => word id
  | ident i => word i.name
  | _ => True

/-- The blocks of a node hold something. -/
def Node.Filled : Node → Prop
  | stmt s => s.Filled
  | _ => True

def Node.isSlice : Node → Bool
  | expr e => e.isSlice
  | _ => false

/-- What is asked of a node in a role, apart from the nodes below it. -/
structure Node.Shaped (P : Promise) (r : Role) (x : Node) : Prop where
  wellFormed : x.WellFormed
  role : x.isSlice = true → r ≠ .plain
  spelled : x.Spelled P.word
  filled : P.filled → x.Filled

/-- A node that is as it should be, all the way down. -/
inductive Node.Formed (P : Promise) : Role → Node → Prop
  | mk {r : Role} {x : Node} : x.Shaped P r → (P.placed → x.Spaced P.place) →
      (∀ part ∈ x.partsAt r, Formed P part.1 part.2) → (∀ d ∈ x.decorators, Formed P .plain d) →
      Formed P r x

/-- An expression that can stand anywhere. -/
abbrev Expr.Formed (P : Promise) (e : Expr) : Prop := Node.Formed P .plain (.expr e)

abbrev Stmt.Formed (P : Promise) (s : Stmt) : Prop := Node.Formed P .plain (.stmt s)

namespace Node

variable {P : Promise} {r : Role} {x : Node}

theorem Formed.shaped (h : Formed P r x) : x.Shaped P r := by
  cases h with
  | mk hshape => exact hshape

theorem Formed.of_has {m : Module} (hm : ∀ s ∈ m.body, s.Formed P) (h : m.Has r x) :
    Formed P r x := by
  induction h with
  | top hs => exact hm _ hs
  | part _ hc ih =>
      cases ih with
      | mk _ _ hparts => exact hparts _ hc
  | decorator _ hd ih =>
      cases ih with
      | mk _ _ _ hdecorators => exact hdecorators _ hd

/-- Where the tokens stand one behind the other, the spans of a formed node nest. -/
theorem Formed.nested (h : Formed P r x) (hplaced : P.placed) : x.Nested P.place := by
  induction h with
  | @mk r x _ hspaced _ _ ihparts ihdecorators =>
      refine .mk (hspaced hplaced) ?_ ihdecorators
      intro c hc
      rw [← map_snd_partsAt r x] at hc
      obtain ⟨part, hpart, rfl⟩ := List.mem_map.mp hc
      exact ihparts part hpart

/-- What can stand anywhere can stand among several indices. -/
theorem Formed.axis (h : Formed P .plain x) : Formed P .axis x := by
  cases h with
  | mk hshape hspaced hparts hdecorators =>
      refine .mk ⟨hshape.wellFormed, nofun, hshape.spelled, hshape.filled⟩ hspaced ?_ hdecorators
      intro part hpart
      apply hparts part
      cases x with
      | expr e => cases e <;> exact hpart
      | _ => exact hpart

/-- What can stand among several indices can be the only one. -/
theorem Formed.index (h : Formed P .axis x) : Formed P .index x := by
  cases h with
  | mk hshape hspaced hparts hdecorators =>
      refine .mk ⟨hshape.wellFormed, nofun, hshape.spelled, hshape.filled⟩ hspaced ?_ hdecorators
      intro part hpart
      cases x with
      | expr e =>
          cases e with
          | tuple span elements =>
              -- the elements of a tuple had nothing special about them
              obtain ⟨e, he, rfl⟩ := List.mem_map.mp hpart
              have hplain : (Role.plain, Node.expr e) ∈ (Node.expr (.tuple span elements)).partsAt
                  .axis := List.mem_map_of_mem (List.mem_map_of_mem he)
              exact (hparts _ hplain).axis
          | _ => exact hparts part hpart
      | _ => exact hparts part hpart

end Node

/-- What cannot be assigned to is a part of the target, or the target itself. -/
theorem Expr.formed_badTarget {P : Promise} {e bad : Expr} (h : e.Formed P)
    (hbad : e.badTarget? = some bad) : bad.Formed P := by
  induction e using Expr.badTarget?.induct _ (fun es =>
    (∀ e ∈ es, e.Formed P) → Expr.badTargets? es = some bad → bad.Formed P) with
  | case1 | case2 | case3 => cases hbad
  | case4 _ elements ih | case5 _ elements ih =>
      cases h with
      | mk _ _ hparts =>
          refine ih ?_ hbad
          intro e he
          exact hparts (.plain, .expr e) (List.mem_map_of_mem (List.mem_map_of_mem he))
  | case6 _ value ih =>
      cases h with
      | mk _ _ hparts => exact ih (hparts (.plain, .expr value) List.mem_cons_self) hbad
  | case7 other =>
      have hself : other.badTarget? = some other := by rw [Expr.badTarget?] <;> assumption
      cases hself.symm.trans hbad
      exact h
  | case8 hes hbads => cases hbads
  | case9 e rest bad' he ih hes hbads =>
      rw [Expr.badTargets?, he] at hbads
      exact ih (hes e List.mem_cons_self) (he.trans hbads)
  | case10 e rest he _ ih hes hbads =>
      rw [Expr.badTargets?, he] at hbads
      exact ih (fun e he => hes e (.tail _ he)) hbads

end MysToCpp
