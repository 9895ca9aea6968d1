/-
# What stands in a tree

`Node.Within x y` says that the node `y` is `x` or stands somewhere below it.  So a condition on the names
of an expression, at whatever depth, is one on the nodes within it (`Expr.Names`).
-/
import MysToCpp.Proofs.Tree.Node

namespace MysToCpp

/-- The nodes of a tree, its root included. -/
inductive Node.Within : Node → Node → Prop
  | self (x : Node) : Within x x
  | part {x c y : Node} : c ∈ x.parts → Within c y → Within x y

theorem Node.Nested.within {place : Position → Prop} {x y : Node} (h : x.Nested place)
    (hy : x.Within y) : y.Nested place := by
  induction hy with
  | self => exact h
  | part hc _ ih => exact ih (h.part hc)

theorem Node.Within.snoc {x y c : Node} (h : x.Within y) (hc : c ∈ y.parts) : x.Within c := by
  induction h with
  | self => exact .part hc (.self c)
  | part hx _ ih => exact .part hx (ih hc)

def Node.isStmt : Node → Bool
  | stmt _ => true
  | _ => false

/-- Statements are parts of statements only. -/
theorem Node.isStmt_part {x c : Node} (hx : x.isStmt = false) (hc : c ∈ x.parts) : c.isStmt = false := by
  cases x with
  | stmt s => cases hx
  | expr e =>
      cases e <;> simp only [parts, Expr.parts, Comprehension.parts, List.mem_append, List.mem_map,
        List.mem_cons, List.mem_flatMap, List.not_mem_nil, or_false] at hc <;> grind [isStmt]
  | param p =>
      simp only [parts, Param.parts, List.mem_cons, List.mem_map] at hc
      grind [isStmt]
  | keyword k =>
      simp only [parts, KeywordArg.parts, List.mem_append, List.mem_cons, List.mem_map] at hc
      grind [isStmt]
  | imported a =>
      simp only [parts, Alias.parts, List.mem_map] at hc
      grind [isStmt]
  | ident i => cases hc

theorem Node.Within.isStmt {x y : Node} (h : x.Within y) (hx : x.isStmt = false) : y.isStmt = false := by
  induction h with
  | self => exact hx
  | part hc _ ih => exact ih (isStmt_part hx hc)

def Expr.Names (P : String → Prop) (e : Expr) : Prop :=
  ∀ span id, Node.Within (.expr e) (.expr (.name span id)) → P id

namespace Expr

variable {P : String → Prop}

@[simp] theorem names_name {span : Span} {id : String} : Names P (.name span id) ↔ P id := by
  constructor
  · exact fun h => h span id (.self _)
  · intro h span' id' hwithin
    cases hwithin with
    | self => exact h
    | part hc => cases hc

/-- The names of an expression that is no name are those of its parts. -/
theorem names_iff_parts {e : Expr} {es : List Expr} (hname : e.name? = none)
    (hparts : e.parts = es.map .expr) : Names P e ↔ ∀ e' ∈ es, Names P e' := by
  constructor
  · intro h e' he' span id hwithin
    refine h span id (.part ?_ hwithin)
    rw [Node.parts, hparts]
    exact List.mem_map_of_mem he'
  · intro h span id hwithin
    cases hwithin with
    | self => cases hname
    | part hc hwithin =>
        rw [Node.parts, hparts] at hc
        obtain ⟨e', he', rfl⟩ := List.mem_map.mp hc
        exact h e' he' span id hwithin

@[simp] theorem names_subscript {span : Span} {value index : Expr} :
    Names P (.subscript span value index) ↔ Names P value ∧ Names P index := by
  have hparts : (Expr.subscript span value index).parts = [value, index].map .expr := rfl
  rw [names_iff_parts rfl hparts]
  simp

@[simp] theorem names_list {span : Span} {elements : List Expr} :
    Names P (.list span elements) ↔ ∀ e ∈ elements, Names P e := names_iff_parts rfl rfl

@[simp] theorem names_tuple {span : Span} {elements : List Expr} :
    Names P (.tuple span elements) ↔ ∀ e ∈ elements, Names P e := names_iff_parts rfl rfl

@[simp] theorem names_dict {span : Span} {keys values : List Expr} :
    Names P (.dict span keys values) ↔ ∀ e ∈ keys ++ values, Names P e := names_iff_parts rfl rfl

end Expr

end MysToCpp
