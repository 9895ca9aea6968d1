/-
# Parts of a tree that do not matter

A module is translated as what is read of it (`Module.seen`) is, but for where an error stands.  So two
modules that agree on what is read have the same text, or fail for the same reason.  Every function of
the translation has one lemma here, which says what clearing the tree does to its answer: nothing, if it
is a text, and otherwise the place of the error is lost (`Lowered.unplaced`).
-/
import Mathlib.Data.List.Basic
import MysToCpp.Cpp.Module
import MysToCpp.Proofs.Tree.Seen

namespace MysToCpp

def LoweringError.unplaced : LoweringError → LoweringError
  | unsupported what _ => unsupported what .nowhere
  | misdeclared what => misdeclared what

/-- A result whose error has no place. -/
def Lowered.unplaced {α : Type} (l : Lowered α) : Lowered α := l.mapError LoweringError.unplaced

section

variable {α β : Type}

@[simp] theorem Lowered.unplaced_ok (a : α) : Lowered.unplaced (.ok a) = .ok a := rfl

@[simp] theorem Lowered.unplaced_error (e : LoweringError) :
    Lowered.unplaced (.error e : Lowered α) = .error e.unplaced := rfl

@[simp] theorem Lowered.unplaced_bind (l : Lowered α) (f : α → Lowered β) :
    Lowered.unplaced (l >>= f) = l.unplaced >>= fun a => (f a).unplaced := by
  cases l <;> rfl

end

namespace Cpp

open Lowered (unplaced unplaced_bind)

variable {α : Type}

@[simp] theorem unplaced_unsupported (span : Span) :
    unplaced (unsupported span : Lowered α) = unsupported .nowhere := rfl

/-! ## Expressions -/

@[simp] theorem span_seen (e : Expr) : e.seen.span = .nowhere := by
  cases e <;> rfl

@[simp] theorem span_bare (e : Expr) : e.bare.span = .nowhere := by
  cases e <;> rfl

section Texts

variable (span : Span)

@[simp] theorem unplaced_constantText (c : Constant) :
    (constantText span c).unplaced = constantText .nowhere c := by
  cases c <;> rfl

@[simp] theorem unplaced_binaryText (op : BinaryOp) (left right : String) :
    (binaryText span op left right).unplaced = binaryText .nowhere op left right := by
  cases op <;> rfl

@[simp] theorem unplaced_boolText (op : BoolOp) (texts : List String) :
    (boolText span op texts).unplaced = boolText .nowhere op texts := by
  cases texts <;> rfl

@[simp] theorem unplaced_compareText (op : CompareOp) (left right : String) :
    (compareText span op left right).unplaced = compareText .nowhere op left right := by
  cases op <;> rfl

@[simp] theorem unplaced_updateText (op : BinaryOp) (target value : String) :
    (updateText span op target value).unplaced = updateText .nowhere op target value := by
  cases op <;> rfl

end Texts

theorem callOrFail_seen (func : String) (args : List String) (keywords : List KeywordArg) :
    callOrFail func args (KeywordArg.seenAll keywords) = (callOrFail func args keywords).unplaced := by
  cases keywords with
  | nil => rfl
  | cons k rest =>
      obtain ⟨name, value, span⟩ := k
      rfl

/-- A comparison of more than two operands has no C++ form. -/
theorem lowerExpr_compare_seen {span : Span} {left : Expr} {ops : List CompareOp}
    {comparators : List Expr} (h : ∀ op right, ops = [op] → comparators = [right] → False) :
    lowerExpr (Expr.compare span left ops comparators).seen = unsupported .nowhere := by
  have hseen : ∀ op right, ops = [op] → Expr.seenAll comparators = [right] → False := by
    intro op right hop hright
    obtain ⟨e, he, -⟩ := List.map_eq_singleton_iff.mp (Expr.seenAll_eq_map comparators ▸ hright)
    exact h op e hop he
  rw [Expr.seen, lowerExpr]
  · rfl
  all_goals simp_all

theorem lowerExpr_seen (e : Expr) : lowerExpr e.seen = (lowerExpr e).unplaced := by
  induction e using lowerExpr.induct _ (fun es =>
    lowerExprs (Expr.seenAll es) = (lowerExprs es).unplaced) with
  | case1 | case13 | case14 => rfl
  | case2 _ c => simp [Expr.seen, lowerExpr]
  | case3 _ left op right ihl ihr => simp [Expr.seen, lowerExpr, ihl, ihr]
  | case4 _ op values ih => simp [Expr.seen, lowerExpr, ih]
  | case5 _ op operand token htoken ih => simp [Expr.seen, lowerExpr, htoken, ih]
  | case6 _ op operand htoken => simp [Expr.seen, lowerExpr, htoken]
  | case7 _ left op right ihl ihr => simp [Expr.seen, Expr.seenAll, lowerExpr, ihl, ihr]
  | case8 _ func args keywords ihf ihargs =>
      simp [Expr.seen, lowerExpr, ihf, ihargs, callOrFail_seen]
  | case9 _ value attr ih => simp [Expr.seen, lowerExpr, ih]
  | case10 _ value index ih => simp [Expr.seen, lowerExpr, ih]
  | case11 _ elements ih | case12 _ elements ih => simp [Expr.seen, lowerExpr, ih]
  | case15 other hname hconstant hbinary hbool hunary hcompare hcall hmember hsubscript htuple hlist
      hdict hlambda =>
      have hother : lowerExpr other = unsupported other.span := by rw [lowerExpr] <;> assumption
      rw [hother]
      cases other with
      | compare =>
          refine lowerExpr_compare_seen ?_
          rintro op right rfl rfl
          exact hcompare _ _ _ _ rfl
      | name => cases hname _ _ rfl
      | constant => cases hconstant _ _ rfl
      | binary => cases hbinary _ _ _ _ rfl
      | boolOp => cases hbool _ _ _ rfl
      | unary => cases hunary _ _ _ rfl
      | call => cases hcall _ _ _ _ rfl
      | member => cases hmember _ _ _ rfl
      | subscript => cases hsubscript _ _ _ rfl
      | tuple => cases htuple _ _ rfl
      | list => cases hlist _ _ rfl
      | dict => cases hdict _ _ _ rfl
      | lambda => cases hlambda _ _ _ rfl
      | _ => rfl
  | case16 => rfl
  | case17 e rest ih ihrest => simp [Expr.seenAll, lowerExprs, ih, ihrest]

theorem lowerExprs_seen (es : List Expr) :
    lowerExprs (es.map Expr.seen) = (lowerExprs es).unplaced := by
  induction es with
  | nil => rfl
  | cons e rest ih => simp [lowerExprs, lowerExpr_seen, ih]

/-! ## Types -/

theorem name?_bare (e : Expr) : e.bare.name? = e.name? := by
  cases e <;> rfl

theorem keyType_bare (key : Expr) : keyType key.bare = (keyType key).unplaced := by
  unfold keyType
  rw [name?_bare]
  cases key.name? <;> simp

theorem optionalType_bare (span : Span) (value index : Expr) :
    optionalType .nowhere value.bare index.bare = (optionalType span value index).unplaced := by
  unfold optionalType
  rw [name?_bare, name?_bare]
  cases value.name? with
  | none => rfl
  | some name =>
      cases index.name? with
      | none => rfl
      | some inner => by_cases hname : name = "Optional" <;> simp [hname]

/-- A dictionary type has one entry. -/
theorem resolveType_dict_bare {span : Span} {keys values : List Expr}
    (h : ∀ key value, keys = [key] → values = [value] → False) :
    resolveType (Expr.dict span keys values).bare = unsupported .nowhere := by
  have hbare : ∀ key value, Expr.bareAll keys = [key] → Expr.bareAll values = [value] → False := by
    intro key value hkey hvalue
    obtain ⟨k, hk, -⟩ := List.map_eq_singleton_iff.mp (Expr.bareAll_eq_map keys ▸ hkey)
    obtain ⟨v, hv, -⟩ := List.map_eq_singleton_iff.mp (Expr.bareAll_eq_map values ▸ hvalue)
    exact h k v hk hv
  rw [Expr.bare, resolveType]
  · rfl
  all_goals simp_all

theorem resolveType_bare (e : Expr) : resolveType e.bare = (resolveType e).unplaced := by
  induction e using resolveType.induct _ (fun es =>
    resolveTypes (Expr.bareAll es) = (resolveTypes es).unplaced) with
  | case1 => rfl
  | case2 span value index => exact optionalType_bare span value index
  | case3 _ element ih => simp [Expr.bare, Expr.bareAll, resolveType, ih]
  | case4 span elements hmany =>
      have hbare : ∀ element, Expr.bareAll elements = [element] → False := by
        intro element helement
        obtain ⟨e, he, -⟩ := List.map_eq_singleton_iff.mp (Expr.bareAll_eq_map elements ▸ helement)
        exact hmany e he
      have hlength : (Expr.bareAll elements).length = elements.length := by
        rw [Expr.bareAll_eq_map, List.length_map]
      rw [Expr.bare, resolveType.eq_4 _ _ hbare, resolveType.eq_4 _ _ hmany, hlength]
      rfl
  | case5 _ elements ih => simp [Expr.bare, resolveType, ih]
  | case6 _ key value ih => simp [Expr.bare, Expr.bareAll, resolveType, keyType_bare, ih]
  | case7 other hname hsubscript hone hlist htuple hdict =>
      have hother : resolveType other = unsupported other.span := by rw [resolveType] <;> assumption
      rw [hother]
      cases other with
      | dict =>
          refine resolveType_dict_bare ?_
          rintro key value rfl rfl
          exact hdict _ _ _ rfl
      | name => cases hname _ _ rfl
      | subscript => cases hsubscript _ _ _ rfl
      | list => cases hlist _ _ rfl
      | tuple => cases htuple _ _ rfl
      | _ => rfl
  | case8 => rfl
  | case9 e rest ih ihrest => simp [Expr.bareAll, resolveTypes, ih, ihrest]

theorem returnType_bare (hint : Option Expr) :
    returnType (Expr.bare? hint) = (returnType hint).unplaced := by
  cases hint with
  | none => rfl
  | some e =>
      cases e with
      | constant span c => cases c <;> rfl
      | _ => exact resolveType_bare _

theorem elementType_bare (e : Expr) : elementType e.bare = (elementType e).unplaced := by
  unfold elementType
  rw [name?_bare]
  cases e.name? with
  | none => exact resolveType_bare e
  | some name => rfl

theorem elementTypes_bare (es : List Expr) :
    elementTypes (Expr.bareAll es) = (elementTypes es).unplaced := by
  induction es with
  | nil => rfl
  | cons e rest ih => simp [Expr.bareAll, elementTypes, elementType_bare, ih]

theorem paramType_bare (hint : Expr) : paramType hint.bare = (paramType hint).unplaced := by
  have hreference (e : Expr) : (do let text ← resolveType e.bare; .ok (text ++ "&")) =
      Lowered.unplaced (do let text ← resolveType e; .ok (text ++ "&")) := by
    simp [resolveType_bare]
  cases hint with
  | name => rfl
  | list span elements =>
      match elements with
      | [] | _ :: _ :: _ => rfl
      | [element] => simp [Expr.bare, Expr.bareAll, paramType, elementType_bare]
  | tuple span elements => simp [Expr.bare, paramType, elementTypes_bare]
  | _ => exact hreference _

theorem paramText_seen (function : String) (param : Param) :
    paramText function param.seen = (paramText function param).unplaced := by
  obtain ⟨name, hint, default, kind, span⟩ := param
  cases hint with
  | none => rfl
  | some hint =>
      cases default with
      | some default => simp [Param.seen, paramText, Expr.bare?, Expr.seen?]
      | none =>
          by_cases hkind : kind = .positional
          · simp [Param.seen, paramText, Expr.bare?, Expr.seen?, hkind, paramType_bare]
          · simp [Param.seen, paramText, Expr.bare?, Expr.seen?, hkind]

theorem paramTexts_seen (function : String) (params : List Param) :
    paramTexts function (params.map Param.seen) = (paramTexts function params).unplaced := by
  induction params with
  | nil => rfl
  | cons p rest ih =>
      unfold paramTexts at ih ⊢
      rw [List.map_cons, List.mapM_cons, List.mapM_cons, paramText_seen, ih]
      simp only [unplaced_bind]
      rfl

/-! ## Statements -/

theorem assignText_seen (span : Span) (value : String) (targets : List Expr) :
    assignText .nowhere value (targets.map Expr.seen) =
      (assignText span value targets).unplaced := by
  have hone (target : Expr) : (do let text ← lowerExpr target.seen; .ok (text ++ " = " ++ value ++ ";")) =
      Lowered.unplaced (do let text ← lowerExpr target; .ok (text ++ " = " ++ value ++ ";")) := by
    simp [lowerExpr_seen]
  match targets with
  | [] => rfl
  | first :: second :: rest => simp [assignText, LoweringError.unplaced]
  | [target] =>
      cases target with
      | tuple _ elements =>
          simp [Expr.seen, assignText, Expr.seenAll_eq_map, lowerExprs_seen]
      | _ => exact hone _

theorem listElements?_seen (e : Expr) :
    listElements? e.seen = (listElements? e).map (·.map Expr.seen) := by
  cases e with
  | list _ elements => simp [Expr.seen, listElements?, Expr.seenAll_eq_map]
  | _ => rfl

theorem declareList_seen (target : String) (hint value : Expr) :
    declareList target hint.bare value.seen = (declareList target hint value).unplaced := by
  unfold declareList
  rw [resolveType_bare, listElements?_seen]
  cases listElements? value <;> simp [lowerExprs_seen, lowerExpr_seen]

theorem declareObject_seen (target : String) (hint value : Expr) :
    declareObject target hint.bare value.seen = (declareObject target hint value).unplaced := by
  simp [declareObject, resolveType_bare, lowerExpr_seen]

theorem declareText_seen (target : String) (hint value : Expr) :
    declareText target hint.bare value.seen = (declareText target hint value).unplaced := by
  cases hint with
  | list => exact declareList_seen target _ value
  | name span type =>
      have hobject := declareObject_seen target (.name span type) value
      simp only [Expr.bare, declareText] at hobject ⊢
      split
      · simp [lowerExpr_seen]
      · split
        · simp [lowerExpr_seen]
        · exact hobject
  | _ => exact declareObject_seen target _ value

theorem declaration_seen (span : Span) (target hint : Expr) (value : Option Expr) :
    declaration .nowhere target.seen hint.bare (value.map Expr.seen) =
      (declaration span target hint value).unplaced := by
  cases value <;> simp [declaration, lowerExpr_seen, declareText_seen, LoweringError.unplaced]

theorem loopVariable_seen (target : Expr) :
    loopVariable target.seen = (loopVariable target).unplaced := by
  cases target with
  | tuple _ elements => simp [Expr.seen, loopVariable, Expr.seenAll_eq_map, lowerExprs_seen]
  | _ => exact lowerExpr_seen _

theorem caughtType_seen (kind : Option Expr) :
    caughtType (kind.map Expr.seen) = (caughtType kind).unplaced := by
  cases kind with
  | none => rfl
  | some e => exact lowerExpr_seen e

theorem bindings_seen (items : List WithItem) :
    bindings (items.map WithItem.seen) = (bindings items).unplaced := by
  induction items with
  | nil => rfl
  | cons item rest ih =>
      obtain ⟨context, target⟩ := item
      cases target <;> simp [WithItem.seen, bindings, lowerExpr_seen, ih]

theorem handlerText_bare (type : String) (name : Option Ident) (body : String) :
    handlerText type (name.map Ident.bare) body = handlerText type name body := by
  cases name <;> rfl

theorem isEmpty_seenAll (body : List Stmt) : (Stmt.seenAll body).isEmpty = body.isEmpty := by
  cases body <;> rfl

theorem lowerStmt_seen (stmt : Stmt) : lowerStmt stmt.seen = (lowerStmt stmt).unplaced := by
  induction stmt using lowerStmt.induct _
    (fun handlers => lowerHandlers (Handler.seenAll handlers) = (lowerHandlers handlers).unplaced)
    (fun handler => lowerHandler handler.seen = (lowerHandler handler).unplaced)
    (fun body => lowerStmts (Stmt.seenAll body) = (lowerStmts body).unplaced) with
  | case1 _ value => simp [Stmt.seen, lowerStmt, lowerExpr_seen]
  | case2 span targets value =>
      simp [Stmt.seen, lowerStmt, lowerExpr_seen, assignText_seen span]
  | case3 span target hint value => exact declaration_seen span target hint value
  | case4 _ target op value => simp [Stmt.seen, lowerStmt, lowerExpr_seen]
  | case5 _ value => simp [Stmt.seen, lowerStmt, lowerExpr_seen]
  | case6 | case7 | case8 | case9 | case11 => rfl
  | case10 _ test message => simp [Stmt.seen, lowerStmt, lowerExpr_seen]
  | case12 _ exception cause => simp [Stmt.seen, lowerStmt, lowerExpr_seen]
  | case13 _ test body orelse ihbody ihorelse =>
      simp [Stmt.seen, lowerStmt, lowerExpr_seen, ihbody, ihorelse]
  | case14 _ test body orelse helse =>
      rw [Stmt.seen, lowerStmt, lowerStmt, isEmpty_seenAll, if_pos helse, if_pos helse]
      rfl
  | case15 _ test body orelse helse ih =>
      rw [Stmt.seen, lowerStmt, lowerStmt, isEmpty_seenAll, if_neg helse, if_neg helse]
      simp [lowerExpr_seen, ih]
  | case16 _ target source body orelse isAsync helse =>
      rw [Stmt.seen, lowerStmt, lowerStmt, isEmpty_seenAll, if_pos helse, if_pos helse]
      rfl
  | case17 _ target source body orelse isAsync helse ih =>
      rw [Stmt.seen, lowerStmt, lowerStmt, isEmpty_seenAll, if_neg helse, if_neg helse]
      simp [loopVariable_seen, lowerExpr_seen, ih]
  | case18 _ body handlers orelse final helse =>
      rw [Stmt.seen, lowerStmt, lowerStmt, isEmpty_seenAll, if_pos helse, if_pos helse]
      rfl
  | case19 _ body handlers orelse final helse ihbody ihhandlers ihfinal =>
      rw [Stmt.seen, lowerStmt, lowerStmt, isEmpty_seenAll, if_neg helse, if_neg helse]
      simp [ihbody, ihhandlers, ihfinal]
  | case20 _ items body => rfl
  | case21 _ items body isAsync hsync ih =>
      rw [Stmt.seen, lowerStmt, lowerStmt, if_neg hsync, if_neg hsync]
      simp [bindings_seen, ih]
  | case22 other =>
      have hother : lowerStmt other = unsupported other.span := by rw [lowerStmt] <;> assumption
      rw [hother]
      cases other with
      | functionDef | classDef | delete | importModules | importFrom | globals | nonlocals => rfl
      | ret _ value => cases value <;> grind
      | raise _ exception => cases exception <;> grind
      | _ => grind
  | case23 kind name body _ ih =>
      simp [Handler.seen, lowerHandler, caughtType_seen, handlerText_bare, ih]
  | case24 | case26 => rfl
  | case25 stmt rest ih ihrest => simp [Stmt.seenAll, lowerStmts, ih, ihrest]
  | case27 handler rest ih ihrest => simp [Handler.seenAll, lowerHandlers, ih, ihrest]

theorem lowerStmts_seen (body : List Stmt) :
    lowerStmts (Stmt.seenAll body) = (lowerStmts body).unplaced := by
  induction body with
  | nil => rfl
  | cons stmt rest ih => simp [Stmt.seenAll, lowerStmts, lowerStmt_seen, ih]

/-! ## Functions and classes -/

theorem firstParam_seen (f : FunctionDef) : firstParam f.seen = firstParam f := by
  rw [FunctionDef.seen_eq]
  unfold firstParam
  cases f.params with
  | nil => rfl
  | cons p rest => exact p.name_seen

theorem mainSignature_seen (f : FunctionDef) (params : List String) :
    mainSignature f.seen params = (mainSignature f params).unplaced := by
  match params with
  | [] => rfl
  | _ :: _ :: _ => rfl
  | [param] =>
      simp only [mainSignature, firstParam_seen]
      split <;> rfl

theorem signature_seen (f : FunctionDef) : signature f.seen = (signature f).unplaced := by
  have hmain := mainSignature_seen f
  rw [FunctionDef.seen_eq] at hmain ⊢
  simp only [signature, returnType_bare, paramTexts_seen, unplaced_bind, Ident.name_bare]
  congr; funext result; congr; funext params
  by_cases hname : f.name.name = "main"
  · by_cases hresult : result = "void"
    · simp only [if_pos hname, if_pos hresult, hmain]
    · simp [hname, hresult, LoweringError.unplaced]
  · simp [hname]

theorem functionText_seen (f : FunctionDef) : functionText f.seen = (functionText f).unplaced := by
  have hsignature := signature_seen f
  rw [FunctionDef.seen_eq] at hsignature ⊢
  simp [functionText, hsignature, lowerStmts_seen]

theorem methodHead_seen (className : String) (method : FunctionDef) (params : String) :
    methodHead className method.seenMethod params = (methodHead className method params).unplaced := by
  rw [FunctionDef.seenMethod_eq]
  by_cases hinit : method.name.name = "__init__"
  · simp [methodHead, hinit]
  · simp [methodHead, hinit, returnType_bare]

theorem takesSelf_seen (method : FunctionDef) : takesSelf method.seenMethod = takesSelf method := by
  rw [FunctionDef.seenMethod_eq]
  unfold takesSelf
  cases method.params with
  | nil => rfl
  | cons self rest =>
      cases self
      rfl

theorem drop_seenOfMethod (params : List Param) :
    (Param.seenOfMethod params).drop 1 = (params.drop 1).map Param.seen := by
  cases params <;> rfl

theorem methodText_seen (className : String) (span : Span) (method : FunctionDef) :
    methodText className .nowhere method.seenMethod = (methodText className span method).unplaced := by
  have hself := takesSelf_seen method
  have hhead := methodHead_seen className method
  rw [FunctionDef.seenMethod_eq] at hself hhead ⊢
  simp only [methodText, hself, hhead, Ident.name_bare, List.isEmpty_map, drop_seenOfMethod,
    paramTexts_seen, lowerStmts_seen]
  split
  · rfl
  · split
    · rfl
    · split
      · rfl
      · simp

theorem methodTexts_seen (className : String) (body : List Stmt) :
    methodTexts className (Stmt.seenMethods body) = (methodTexts className body).unplaced := by
  induction body with
  | nil => rfl
  | cons stmt rest ih =>
      cases stmt with
      | functionDef span method =>
          simp [Stmt.seenMethods, methodTexts, methodText_seen className span, ih]
      | _ => exact ih

theorem classText_seen (span : Span) (c : ClassDef) :
    classText .nowhere c.seen = (classText span c).unplaced := by
  rw [ClassDef.seen_eq]
  simp only [classText, List.isEmpty_map, methodTexts_seen, Ident.name_bare]
  split
  · rfl
  · simp

/-! ## Modules -/

theorem declare_seen (stmt : Stmt) : declare stmt.seenOfModule = (declare stmt).unplaced := by
  have hstmt (stmt : Stmt) : (do let text ← lowerStmt stmt.seen; .ok ⟨none, text⟩ : Lowered Declaration) =
      Lowered.unplaced (do let text ← lowerStmt stmt; .ok ⟨none, text⟩) := by
    simp [lowerStmt_seen]
  cases stmt with
  | functionDef span f =>
      have htext := functionText_seen f
      rw [FunctionDef.seen_eq] at htext
      simp only [Stmt.seenOfModule, Stmt.seen, FunctionDef.seen_eq, declare, List.isEmpty_map, htext]
      split
      · rfl
      · simp
  | classDef span c => simp [Stmt.seenOfModule, Stmt.seen, declare, classText_seen span]
  | importModules | importFrom => rfl
  | _ => exact hstmt _

theorem declarations_seen (body : List Stmt) :
    declarations (body.map Stmt.seenOfModule) = (declarations body).unplaced := by
  induction body with
  | nil => rfl
  | cons stmt rest ih =>
      unfold declarations at ih ⊢
      rw [List.map_cons, List.mapM_cons, List.mapM_cons, declare_seen, ih]
      simp only [unplaced_bind]
      rfl

/-- A module is translated as what is read of it is, but for where an error stands. -/
theorem translate_seen (m : Module) : translate m.seen = (translate m).unplaced := by
  unfold translate
  rw [Module.seen, declarations_seen]
  simp

end Cpp

theorem LoweringError.message_unplaced (e : LoweringError) : e.unplaced.message = e.message := by
  cases e <;> rfl

/-- Two modules that agree on what is read have the same text, or fail for the same reason. -/
theorem translate_of_seen_eq (m₁ m₂ : Module) (h : m₁.seen = m₂.seen) :
    (∃ text, Cpp.translate m₁ = .ok text ∧ Cpp.translate m₂ = .ok text) ∨
    ∃ e₁ e₂, Cpp.translate m₁ = .error e₁ ∧ Cpp.translate m₂ = .error e₂ ∧
      e₁.unplaced = e₂.unplaced ∧ e₁.message = e₂.message := by
  have hboth : (Cpp.translate m₁).unplaced = (Cpp.translate m₂).unplaced := by
    rw [← Cpp.translate_seen, ← Cpp.translate_seen, h]
  cases h₁ : Cpp.translate m₁ with
  | ok text =>
      cases h₂ : Cpp.translate m₂ with
      | ok text' =>
          rw [h₁, h₂] at hboth
          cases hboth
          exact .inl ⟨text, rfl, rfl⟩
      | error e =>
          rw [h₁, h₂] at hboth
          cases hboth
  | error e₁ =>
      cases h₂ : Cpp.translate m₂ with
      | ok text =>
          rw [h₁, h₂] at hboth
          cases hboth
      | error e₂ =>
          rw [h₁, h₂] at hboth
          have hplace : e₁.unplaced = e₂.unplaced := Except.error.inj hboth
          refine .inr ⟨e₁, e₂, rfl, rfl, hplace, ?_⟩
          rw [← e₁.message_unplaced, hplace, e₂.message_unplaced]

/-- An import, a class with a constructor, an assertion and a raised dictionary, and the same module with
other parts in all places that are not read. -/
theorem translate_of_seen_eq_sample :
    let here : Span := ⟨⟨3, 5, 40⟩, ⟨3, 9, 44⟩⟩
    let name (s : String) := Expr.name .nowhere s
    let init (self : Param) (returns : Option Expr) := Stmt.functionDef .nowhere ⟨⟨"__init__", .nowhere⟩,
      [self, ⟨⟨"n", .nowhere⟩, some (.list .nowhere [name "int"]), none, .positional, .nowhere⟩],
      [.pass .nowhere], [], returns, false⟩
    let m₁ : Module := ⟨[.importModules .nowhere [⟨"os", none, .nowhere⟩],
      .classDef .nowhere ⟨⟨"C", .nowhere⟩, [], [],
        [.pass .nowhere, init ⟨⟨"self", .nowhere⟩, none, none, .positional, .nowhere⟩ none], []⟩,
      .assert .nowhere (.subscript .nowhere (name "xs") (name "i")) none,
      .raise .nowhere (some (.dict .nowhere [] [])) none]⟩
    let m₂ : Module := ⟨[.importModules here [⟨"sys", some ⟨"s", here⟩, here⟩],
      .classDef here ⟨⟨"C", here⟩, [], [],
        [init ⟨⟨"self", here⟩, some (name "C"), some (name "x"), .rest, here⟩ (some (name "None")),
          .ret here none], []⟩,
      .assert here (.subscript here (name "xs") (name "j")) (some (name "why")),
      .raise here (some (.dict here [name "k"] [name "v"])) (some (name "cause"))]⟩
    let parts := ["#include \"mys.hpp\"", "#include \"todo\"", "class C \x7b", "public:",
      "    C(List<int>& n)\n    \x7b\n    \x7d", "\x7d;", "ASSERT(xs);", "throw MakeDict<todo>(\x7b\x7d);\n"]
    let text := "\n\n".intercalate parts
    m₁.seen = m₂.seen ∧ Cpp.translate m₁ = .ok text ∧ Cpp.translate m₂ = .ok text := by
  intro here name init m₁ m₂ parts text
  have hseen : m₁.seen = m₂.seen := by cbv
  have htext : Cpp.translate m₁ = .ok text := by
    set_option maxRecDepth 2000 in cbv
  refine ⟨hseen, htext, ?_⟩
  rcases translate_of_seen_eq m₁ m₂ hseen with ⟨text', htext', hsame⟩ | ⟨e₁, e₂, herror, -⟩
  · rw [hsame, ← htext', htext]
  · rw [htext] at herror
    cases herror

end MysToCpp
