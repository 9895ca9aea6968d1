/-
# What lowering points at

A construct without a C++ form is reported at a node of the tree: at the construct itself, or at the
part of it that is to blame.  So in a tree whose spans nest in a text, every report lies between two
places of the text; and a report that quotes C++ code is about a declaration without a value, whose
target that code is.  The proof follows `lowerExpr`, `resolveType` and `lowerStmt` by their own
induction; all else is put together from them.
-/
import MysToCpp.Cpp.Module
import MysToCpp.Proofs.Tree.Within

namespace MysToCpp

variable {place : Position → Prop} {α β : Type}

/-- What is reported lies between places; broken rules for declarations have no place. -/
def Lowered.Blames (l : Lowered α) (place : Position → Prop) : Prop :=
  ∀ what span, l = .error (.unsupported what span) → span.Between place

/-- A node that is reported: the report stands at its span, and a variable without a value is a
declaration, which is reported by the C++ text of its target. -/
structure Node.Blamed (x : Node) (what : Unsupported) (span : Span) : Prop where
  stands : x.span = span
  declared : ∀ text, what = .uninitialized text → ∃ target hint,
    x = .stmt (.annAssign span target hint none) ∧ Cpp.lowerExpr target = .ok text

/-- What is reported is a node of one of some trees; broken rules for declarations are no node's. -/
def Lowered.Accuses (l : Lowered α) (xs : List Node) : Prop :=
  ∀ what span, l = .error (.unsupported what span) → ∃ x ∈ xs, ∃ y, x.Within y ∧ y.Blamed what span

namespace Lowered.Accuses

variable {l : Lowered α} {xs ys : List Node} {x c : Node}

theorem bind_of_ok {f : α → Lowered β} (hl : l.Accuses xs) (hf : ∀ a, l = .ok a → (f a).Accuses xs) :
    Lowered.Accuses (l >>= f) xs := by
  cases l with
  | error e => exact fun what span h => hl what span (by cases h; rfl)
  | ok a => exact hf a rfl

theorem bind {f : α → Lowered β} (hl : l.Accuses xs) (hf : ∀ a, (f a).Accuses xs) :
    Lowered.Accuses (l >>= f) xs := hl.bind_of_ok fun a _ => hf a

theorem mono (h : l.Accuses xs) (hsub : xs ⊆ ys) : l.Accuses ys := by
  intro what span he
  obtain ⟨x, hx, y, hy⟩ := h what span he
  exact ⟨x, hsub hx, y, hy⟩

theorem parts (h : l.Accuses xs) (hsub : xs ⊆ x.parts) : l.Accuses [x] := by
  intro what span he
  obtain ⟨c, hc, y, hwithin, hy⟩ := h what span he
  exact ⟨x, List.mem_cons_self, y, .part (hsub hc) hwithin, hy⟩

theorem part (h : l.Accuses [c]) (hc : c ∈ x.parts) : l.Accuses [x] :=
  h.parts (List.cons_subset.mpr ⟨hc, List.nil_subset _⟩)

theorem among (h : l.Accuses [x]) (hx : x ∈ xs) : l.Accuses xs :=
  h.mono (List.cons_subset.mpr ⟨hx, List.nil_subset _⟩)

/-- What is accused in trees whose spans nest lies between places. -/
theorem blames (h : l.Accuses xs) (hxs : ∀ x ∈ xs, x.Nested place) : l.Blames place := by
  intro what span he
  obtain ⟨x, hx, y, hwithin, hy⟩ := h what span he
  rw [← hy.stands]
  exact ((hxs x hx).within hwithin).between

end Lowered.Accuses

namespace Cpp

/-! ## Putting texts together -/

variable {xs : List Node} {x : Node}

theorem accuses_ok (a : α) : Lowered.Accuses (.ok a) xs := fun _ _ h => nomatch h

theorem accuses_misdeclared (what : Misdeclared) :
    Lowered.Accuses (.error (.misdeclared what) : Lowered α) xs := fun _ _ h => nomatch h

theorem accuses_error {what : Unsupported} {span : Span} (h : x.Blamed what span) :
    Lowered.Accuses (.error (.unsupported what span) : Lowered α) [x] := by
  intro what' span' he
  cases he
  exact ⟨x, List.mem_cons_self, x, .self x, h⟩

theorem accuses_unsupported {span : Span} (h : x.span = span) :
    Lowered.Accuses (unsupported span : Lowered α) [x] := accuses_error ⟨h, by simp⟩

theorem accuses_cons {l : Lowered α} {rest : Lowered (List α)} (hl : l.Accuses [x])
    (hrest : rest.Accuses xs) :
    Lowered.Accuses (l >>= fun a => rest >>= fun as => .ok (a :: as)) (x :: xs) :=
  (hl.among List.mem_cons_self).bind fun _ =>
    (hrest.mono (List.subset_cons_self _ _)).bind fun _ => accuses_ok _

theorem accuses_mapM {f : α → Lowered β} {node : α → Node} (h : ∀ a, (f a).Accuses [node a])
    (as : List α) : Lowered.Accuses (as.mapM f) (as.map node) := by
  induction as with
  | nil => exact accuses_ok []
  | cons a as ih =>
      rw [List.mapM_cons]
      exact accuses_cons (h a) ih

/-! ## Expressions -/

section Texts

variable {span : Span} (hspan : x.span = span)

include hspan

theorem accuses_constantText (c : Constant) : (constantText span c).Accuses [x] := by
  cases c with
  | bytes | ellipsis => exact accuses_error ⟨hspan, by simp⟩
  | _ => exact accuses_ok _

theorem accuses_binaryText (op : BinaryOp) (left right : String) :
    (binaryText span op left right).Accuses [x] := by
  unfold binaryText
  split
  · exact accuses_ok _
  · split
    · exact accuses_ok _
    · exact accuses_unsupported hspan

theorem accuses_boolText (op : BoolOp) (texts : List String) :
    (boolText span op texts).Accuses [x] := by
  cases texts with
  | nil => exact accuses_unsupported hspan
  | cons first rest => exact accuses_ok _

theorem accuses_compareText (op : CompareOp) (left right : String) :
    (compareText span op left right).Accuses [x] := by
  unfold compareText
  split
  · exact accuses_ok _
  · exact accuses_ok _
  · split
    · exact accuses_ok _
    · exact accuses_unsupported hspan

theorem accuses_updateText (op : BinaryOp) (target value : String) :
    (updateText span op target value).Accuses [x] := by
  unfold updateText
  split
  · exact accuses_ok _
  · split
    · exact accuses_ok _
    · exact accuses_unsupported hspan

theorem accuses_optionalType (value index : Expr) : (optionalType span value index).Accuses [x] := by
  unfold optionalType
  split
  · split
    · exact accuses_ok _
    · exact accuses_unsupported hspan
  · exact accuses_unsupported hspan

end Texts

theorem accuses_callOrFail (func : String) (args : List String) (keywords : List KeywordArg) :
    (callOrFail func args keywords).Accuses (keywords.map .keyword) := by
  cases keywords with
  | nil => exact accuses_ok _
  | cons k rest =>
      have hk : Lowered.Accuses (unsupported k.span : Lowered String) [.keyword k] :=
        accuses_unsupported rfl
      exact hk.among List.mem_cons_self

theorem accuses_lowerExpr (e : Expr) : (lowerExpr e).Accuses [.expr e] := by
  induction e using lowerExpr.induct _ (fun es => (lowerExprs es).Accuses (es.map .expr)) with
  | case1 | case13 => exact accuses_ok _
  | case2 _ c => exact accuses_constantText (by rfl) c
  | case3 _ left op right ihl ihr =>
      rw [lowerExpr]
      refine (ihl.part List.mem_cons_self).bind fun _ => ?_
      refine (ihr.part (.tail _ List.mem_cons_self)).bind fun _ => ?_
      exact accuses_binaryText (by rfl) op _ _
  | case4 _ op values ih =>
      rw [lowerExpr]
      exact (ih.parts (List.Subset.refl _)).bind fun _ => accuses_boolText (by rfl) op _
  | case5 _ op operand token htoken ih =>
      rw [lowerExpr, htoken]
      exact (ih.part List.mem_cons_self).bind fun _ => accuses_ok _
  | case6 _ op operand htoken =>
      rw [lowerExpr, htoken]
      exact accuses_unsupported rfl
  | case7 _ left op right ihl ihr =>
      rw [lowerExpr]
      refine (ihl.part List.mem_cons_self).bind fun _ => ?_
      refine (ihr.part (.tail _ List.mem_cons_self)).bind fun _ => ?_
      exact accuses_compareText (by rfl) op _ _
  | case8 _ func args keywords ihf ihargs =>
      rw [lowerExpr]
      refine (ihf.part (List.mem_append_left _ List.mem_cons_self)).bind fun f => ?_
      refine (ihargs.parts ?_).bind fun texts => (accuses_callOrFail f texts keywords).parts ?_
      · exact fun c hc => List.mem_append_left _ (.tail _ hc)
      · exact List.subset_append_right _ _
  | case9 _ value attr ih =>
      rw [lowerExpr]
      exact (ih.part List.mem_cons_self).bind fun _ => accuses_ok _
  | case10 _ value index ih =>
      rw [lowerExpr]
      exact ih.part List.mem_cons_self
  | case11 _ elements ih | case12 _ elements ih =>
      rw [lowerExpr]
      exact (ih.parts (List.Subset.refl _)).bind fun _ => accuses_ok _
  | case14 => exact accuses_error ⟨rfl, by simp⟩
  | case15 other =>
      have hother : lowerExpr other = unsupported other.span := by rw [lowerExpr] <;> assumption
      rw [hother]
      exact accuses_unsupported rfl
  | case16 => exact accuses_ok _
  | case17 e rest ih ihrest =>
      rw [lowerExprs]
      exact accuses_cons ih ihrest

theorem accuses_lowerExprs (es : List Expr) : (lowerExprs es).Accuses (es.map .expr) := by
  induction es with
  | nil => exact accuses_ok _
  | cons e rest ih =>
      rw [lowerExprs]
      exact accuses_cons (accuses_lowerExpr e) ih

/-! ## Types -/

theorem accuses_keyType (key : Expr) : (keyType key).Accuses [.expr key] := by
  unfold keyType
  split
  · exact accuses_ok _
  · exact accuses_unsupported rfl

theorem accuses_resolveType (e : Expr) : (resolveType e).Accuses [.expr e] := by
  induction e using resolveType.induct _ (fun es => (resolveTypes es).Accuses (es.map .expr)) with
  | case1 => exact accuses_ok _
  | case2 _ value index => exact accuses_optionalType (by rfl) value index
  | case3 _ element ih =>
      rw [resolveType]
      exact (ih.part List.mem_cons_self).bind fun _ => accuses_ok _
  | case4 _ elements hmany =>
      rw [resolveType.eq_4 _ _ hmany]
      exact accuses_error ⟨rfl, by simp⟩
  | case5 _ elements ih =>
      rw [resolveType]
      exact (ih.parts (List.Subset.refl _)).bind fun _ => accuses_ok _
  | case6 _ key value ih =>
      rw [resolveType]
      refine ((accuses_keyType key).part List.mem_cons_self).bind fun _ => ?_
      exact (ih.part (.tail _ List.mem_cons_self)).bind fun _ => accuses_ok _
  | case7 other =>
      have hother : resolveType other = unsupported other.span := by
        rw [resolveType] <;> assumption
      rw [hother]
      exact accuses_unsupported rfl
  | case8 => exact accuses_ok _
  | case9 e rest ih ihrest =>
      rw [resolveTypes]
      exact accuses_cons ih ihrest

theorem accuses_returnType (hint : Option Expr) :
    (returnType hint).Accuses (hint.toList.map .expr) := by
  unfold returnType
  split
  · exact accuses_ok _
  · exact accuses_ok _
  · exact accuses_resolveType _

theorem accuses_elementType (e : Expr) : (elementType e).Accuses [.expr e] := by
  unfold elementType
  split
  · exact accuses_ok _
  · exact accuses_resolveType e

theorem accuses_elementTypes (es : List Expr) : (elementTypes es).Accuses (es.map .expr) := by
  induction es with
  | nil => exact accuses_ok _
  | cons e rest ih =>
      rw [elementTypes]
      exact accuses_cons (accuses_elementType e) ih

theorem accuses_paramType (hint : Expr) : (paramType hint).Accuses [.expr hint] := by
  unfold paramType
  split
  · exact accuses_ok _
  · exact ((accuses_elementType _).part List.mem_cons_self).bind fun _ => accuses_ok _
  · exact ((accuses_elementTypes _).parts (List.Subset.refl _)).bind fun _ => accuses_ok _
  · exact accuses_unsupported rfl
  · exact (accuses_resolveType _).bind fun _ => accuses_ok _

theorem accuses_paramText (function : String) (param : Param) :
    (paramText function param).Accuses [.param param] := by
  unfold paramText
  split
  · exact accuses_misdeclared _
  · next hint hhint =>
    split
    · next default hdefault =>
      have hblamed : Lowered.Accuses (unsupported default.span : Lowered String) [.expr default] :=
        accuses_unsupported rfl
      exact hblamed.part (by simp [Node.parts, Param.parts, hdefault])
    · split
      · exact accuses_unsupported rfl
      · refine ((accuses_paramType hint).part ?_).bind fun _ => accuses_ok _
        simp [Node.parts, Param.parts, hhint]

theorem accuses_paramTexts (function : String) (params : List Param) :
    (paramTexts function params).Accuses (params.map .param) :=
  accuses_mapM (accuses_paramText function) params

/-! ## Statements -/

theorem accuses_assignText {span : Span} (value : String) {targets : List Expr}
    (hspan : x.span = span) (h : targets.map .expr ⊆ x.parts) :
    (assignText span value targets).Accuses [x] := by
  unfold assignText
  split
  · next here elements =>
    have htuple : (lowerExprs elements).Accuses [.expr (.tuple here elements)] :=
      (accuses_lowerExprs elements).parts (List.Subset.refl _)
    exact (htuple.parts h).bind fun _ => accuses_ok _
  · exact ((accuses_lowerExpr _).parts h).bind fun _ => accuses_ok _
  · exact accuses_error ⟨hspan, by simp⟩

theorem accuses_declareText (target : String) (hint value : Expr) :
    (declareText target hint value).Accuses [.expr hint, .expr value] := by
  have hhint : (resolveType hint).Accuses [.expr hint, .expr value] :=
    (accuses_resolveType hint).among (by simp)
  have hvalue : (lowerExpr value).Accuses [.expr hint, .expr value] :=
    (accuses_lowerExpr value).among (by simp)
  have hobject : (declareObject target hint value).Accuses [.expr hint, .expr value] :=
    hhint.bind fun _ => hvalue.bind fun _ => accuses_ok _
  unfold declareText
  split
  · refine hhint.bind fun _ => ?_
    split
    · next elements helements =>
      have hall : (lowerExprs elements).Accuses [.expr value] := by
        unfold listElements? at helements
        split at helements <;> cases helements
        exact (accuses_lowerExprs _).parts (List.Subset.refl _)
      exact (hall.among (by simp)).bind fun _ => accuses_ok _
    · exact hvalue.bind fun _ => accuses_ok _
  · split
    · exact hvalue.bind fun _ => accuses_ok _
    · split
      · exact hvalue.bind fun _ => accuses_ok _
      · exact hobject
  · exact hobject

/-- A declaration without a value is reported by its target. -/
theorem accuses_declaration (span : Span) (target hint : Expr) (value : Option Expr) :
    (declaration span target hint value).Accuses [.stmt (.annAssign span target hint value)] := by
  refine ((accuses_lowerExpr target).part List.mem_cons_self).bind_of_ok ?_
  intro name hname
  cases value with
  | none =>
      refine accuses_error ⟨rfl, ?_⟩
      rintro text ⟨⟩
      exact ⟨target, hint, rfl, hname⟩
  | some v => exact (accuses_declareText name hint v).parts (List.subset_cons_self _ _)

theorem accuses_loopVariable (target : Expr) : (loopVariable target).Accuses [.expr target] := by
  unfold loopVariable
  split
  · exact ((accuses_lowerExprs _).parts (List.Subset.refl _)).bind fun _ => accuses_ok _
  · exact accuses_lowerExpr _

theorem accuses_caughtType (kind : Option Expr) :
    (caughtType kind).Accuses (kind.toList.map .expr) := by
  cases kind with
  | none => exact accuses_ok _
  | some e => exact accuses_lowerExpr e

theorem accuses_bindings (items : List WithItem) :
    (bindings items).Accuses (items.flatMap (·.parts)) := by
  induction items with
  | nil => exact accuses_ok _
  | cons item rest ih =>
      obtain ⟨context, target⟩ := item
      cases target with
      | none =>
          have hcontext : Lowered.Accuses (unsupported context.span : Lowered (List String))
              [.expr context] := accuses_unsupported rfl
          exact hcontext.among (by simp [WithItem.parts])
      | some target =>
          refine ((accuses_lowerExpr target).among (by simp [WithItem.parts])).bind fun _ => ?_
          refine ((accuses_lowerExpr context).among (by simp [WithItem.parts])).bind fun _ => ?_
          refine (ih.mono ?_).bind fun _ => accuses_ok _
          rw [List.flatMap_cons]
          exact List.subset_append_right _ _

theorem accuses_lowerStmt (stmt : Stmt) : (lowerStmt stmt).Accuses [.stmt stmt] := by
  induction stmt using lowerStmt.induct _
    (fun handlers => (lowerHandlers handlers).Accuses (handlers.flatMap (·.parts)))
    (fun handler => (lowerHandler handler).Accuses handler.parts)
    (fun body => (lowerStmts body).Accuses (body.map .stmt)) with
  | case1 _ value =>
      rw [lowerStmt]
      exact ((accuses_lowerExpr value).part List.mem_cons_self).bind fun _ => accuses_ok _
  | case2 _ targets value =>
      rw [lowerStmt]
      refine ((accuses_lowerExpr value).part ?_).bind fun text => accuses_assignText text rfl ?_
      · exact List.mem_map_of_mem (List.mem_append_right _ List.mem_cons_self)
      · exact List.map_subset _ (List.subset_append_left _ _)
  | case3 span target hint value => exact accuses_declaration span target hint value
  | case4 _ target op value =>
      rw [lowerStmt]
      refine ((accuses_lowerExpr target).part List.mem_cons_self).bind fun _ => ?_
      refine ((accuses_lowerExpr value).part (.tail _ List.mem_cons_self)).bind fun _ => ?_
      exact accuses_updateText (by rfl) op _ _
  | case5 _ value =>
      rw [lowerStmt]
      exact ((accuses_lowerExpr value).part List.mem_cons_self).bind fun _ => accuses_ok _
  | case6 => exact accuses_error ⟨rfl, by simp⟩
  | case7 | case8 | case9 | case11 => exact accuses_ok _
  | case10 _ test message =>
      rw [lowerStmt]
      exact ((accuses_lowerExpr test).part List.mem_cons_self).bind fun _ => accuses_ok _
  | case12 _ exception cause =>
      rw [lowerStmt]
      exact ((accuses_lowerExpr exception).part List.mem_cons_self).bind fun _ => accuses_ok _
  | case13 _ test body orelse ihbody ihorelse =>
      rw [lowerStmt]
      refine ((accuses_lowerExpr test).part List.mem_cons_self).bind fun _ => ?_
      refine (ihbody.parts fun c hc => .tail _ ?_).bind fun _ => ?_
      · exact List.map_subset _ (List.subset_append_left _ _) hc
      refine (ihorelse.parts fun c hc => .tail _ ?_).bind fun _ => accuses_ok _
      exact List.map_subset _ (List.subset_append_right _ _) hc
  | case14 _ test body orelse helse =>
      rw [lowerStmt, if_pos helse]
      exact accuses_unsupported rfl
  | case15 _ test body orelse helse ih =>
      rw [lowerStmt, if_neg helse]
      refine ((accuses_lowerExpr test).part List.mem_cons_self).bind fun _ => ?_
      refine (ih.parts fun c hc => .tail _ ?_).bind fun _ => accuses_ok _
      exact List.map_subset _ (List.subset_append_left _ _) hc
  | case16 _ target source body orelse isAsync helse =>
      rw [lowerStmt, if_pos helse]
      exact accuses_unsupported rfl
  | case17 _ target source body orelse isAsync helse ih =>
      rw [lowerStmt, if_neg helse]
      refine ((accuses_loopVariable target).part List.mem_cons_self).bind fun _ => ?_
      refine ((accuses_lowerExpr source).part (.tail _ List.mem_cons_self)).bind fun _ => ?_
      refine (ih.parts fun c hc => .tail _ (.tail _ ?_)).bind fun _ => accuses_ok _
      exact List.map_subset _ (List.subset_append_left _ _) hc
  | case18 _ body handlers orelse final helse =>
      rw [lowerStmt, if_pos helse]
      exact accuses_unsupported rfl
  | case19 _ body handlers orelse final helse ihbody ihhandlers ihfinal =>
      rw [lowerStmt, if_neg helse]
      refine (ihbody.parts fun c hc => ?_).bind fun _ => ?_
      · exact List.mem_append_left _ (List.mem_append_left _ hc)
      refine (ihhandlers.parts fun c hc => ?_).bind fun _ => ?_
      · exact List.mem_append_left _ (List.mem_append_right _ hc)
      refine (ihfinal.parts fun c hc => ?_).bind fun _ => accuses_ok _
      exact List.mem_append_right _ (List.map_subset _ (List.subset_append_right _ _) hc)
  | case20 _ items body =>
      rw [lowerStmt, if_pos rfl]
      exact accuses_unsupported rfl
  | case21 _ items body isAsync hsync ih =>
      rw [lowerStmt, if_neg hsync]
      refine ((accuses_bindings items).parts (List.subset_append_left _ _)).bind fun _ => ?_
      exact (ih.parts (List.subset_append_right _ _)).bind fun _ => accuses_ok _
  | case22 other =>
      have hother : lowerStmt other = unsupported other.span := by rw [lowerStmt] <;> assumption
      rw [hother]
      exact accuses_unsupported rfl
  | case23 kind name body _ ih =>
      rw [lowerHandler]
      refine ((accuses_caughtType kind).mono ?_).bind fun _ => ?_
      · exact fun c hc => List.mem_append_left _ (List.mem_append_left _ hc)
      exact (ih.mono (List.subset_append_right _ _)).bind fun _ => accuses_ok _
  | case24 | case26 => exact accuses_ok _
  | case25 stmt rest ih ihrest =>
      rw [lowerStmts]
      exact accuses_cons ih ihrest
  | case27 handler rest ih ihrest =>
      rw [lowerHandlers, List.flatMap_cons]
      refine (ih.mono (List.subset_append_left _ _)).bind fun _ => ?_
      exact (ihrest.mono (List.subset_append_right _ _)).bind fun _ => accuses_ok _

theorem accuses_lowerStmts (body : List Stmt) : (lowerStmts body).Accuses (body.map .stmt) := by
  induction body with
  | nil => exact accuses_ok _
  | cons stmt rest ih =>
      rw [lowerStmts]
      exact accuses_cons (accuses_lowerStmt stmt) ih

/-! ## Modules -/

theorem accuses_mainSignature (f : FunctionDef) (params : List String) :
    (mainSignature f params).Accuses xs := by
  unfold mainSignature
  split
  · exact accuses_ok _
  · split
    · exact accuses_ok _
    · exact accuses_misdeclared _
  · exact accuses_misdeclared _

theorem accuses_signature (f : FunctionDef) : (signature f).Accuses f.parts := by
  refine ((accuses_returnType f.returns).mono ?_).bind fun result => ?_
  · exact fun c hc => .tail _ (List.mem_append_left _ (List.mem_append_right _ hc))
  refine ((accuses_paramTexts f.name.name f.params).mono ?_).bind fun params => ?_
  · exact fun c hc => .tail _ (List.mem_append_left _ (List.mem_append_left _ hc))
  split
  · split
    · exact accuses_mainSignature f params
    · exact accuses_misdeclared _
  · exact accuses_ok _

theorem accuses_body (f : FunctionDef) : (lowerStmts f.body).Accuses f.parts :=
  (accuses_lowerStmts f.body).mono fun _ hc => .tail _ (List.mem_append_right _ hc)

theorem accuses_functionText (f : FunctionDef) : (functionText f).Accuses f.parts :=
  (accuses_signature f).bind fun _ => (accuses_body f).bind fun _ => accuses_ok _

theorem accuses_methodText (className : String) (span : Span) (f : FunctionDef) :
    (methodText className span f).Accuses [.stmt (.functionDef span f)] := by
  unfold methodText
  split
  · exact accuses_misdeclared _
  · split
    · exact accuses_error ⟨rfl, by simp⟩
    · split
      · exact accuses_unsupported rfl
      · refine ((accuses_paramTexts _ _).parts ?_).bind fun _ => ?_
        · intro c hc
          have hparam := List.map_subset Node.param (List.drop_subset 1 f.params) hc
          exact .tail _ (List.mem_append_left _ (List.mem_append_left _ hparam))
        refine ((accuses_body f).parts (List.Subset.refl _)).bind fun _ => ?_
        refine Lowered.Accuses.bind ?_ fun _ => accuses_ok _
        unfold methodHead
        split
        · exact accuses_ok _
        · refine ((accuses_returnType f.returns).parts ?_).bind fun _ => accuses_ok _
          exact fun c hc => .tail _ (List.mem_append_left _ (List.mem_append_right _ hc))

theorem accuses_methodTexts (className : String) (body : List Stmt) :
    (methodTexts className body).Accuses (body.map .stmt) := by
  induction body with
  | nil => exact accuses_ok _
  | cons stmt rest ih =>
      have hrest := ih.mono (List.subset_cons_self (.stmt stmt) _)
      cases stmt with
      | functionDef span method =>
          refine ((accuses_methodText className span method).among List.mem_cons_self).bind fun _ => ?_
          exact hrest.bind fun _ => accuses_ok _
      | _ => exact hrest

theorem accuses_classText (span : Span) (c : ClassDef) :
    (classText span c).Accuses [.stmt (.classDef span c)] := by
  unfold classText
  split
  · exact accuses_unsupported rfl
  · refine ((accuses_methodTexts c.name.name c.body).parts ?_).bind fun _ => accuses_ok _
    exact fun x hx => .tail _ (List.mem_append_right _ hx)

theorem accuses_declare (stmt : Stmt) : (declare stmt).Accuses [.stmt stmt] := by
  unfold declare
  split
  · split
    · exact accuses_unsupported rfl
    · exact ((accuses_functionText _).parts (List.Subset.refl _)).bind fun _ => accuses_ok _
  · exact (accuses_classText _ _).bind fun _ => accuses_ok _
  · exact accuses_ok _
  · exact accuses_ok _
  · exact (accuses_lowerStmt _).bind fun _ => accuses_ok _

theorem accuses_translate (m : Module) : (translate m).Accuses (m.body.map .stmt) :=
  (accuses_mapM accuses_declare m.body).bind fun _ => accuses_ok _

theorem blames_translate {m : Module} (h : ∀ stmt ∈ m.body, (Node.stmt stmt).Nested place) :
    (translate m).Blames place := by
  refine (accuses_translate m).blames ?_
  intro x hx
  obtain ⟨stmt, hstmt, rfl⟩ := List.mem_map.mp hx
  exact h stmt hstmt

end Cpp

end MysToCpp
