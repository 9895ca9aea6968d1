/-
# Statements in lines

The C++ text of a statement is made of lines that close every block they open.  A block is moved one
level to the right, a handler stands between the lines of its `try`, and a block without handlers is
moved back again.  The proof follows `lowerStmt` by its own induction; what stands in a line is known
from the expressions.
-/
import MysToCpp.Proofs.Cpp.TidyExpressions

namespace MysToCpp.Cpp

/-! ## Single lines -/

theorem Snug.lined {text : String} (h : Snug text) : Lined 0 text 0 :=
  (Line.starts h.fronted h.toReads : Line 0 0 text (0 + 0)).lined

theorem lined_opening {text : String} (h : Reads [] text ['\x7b']) (hfronted : Fronted text) :
    Lined 0 text 1 :=
  (Line.starts hfronted h : Line 0 0 text (0 + 1)).lined

theorem lined_turning {text : String} (h : Reads ['\x7b'] text ['\x7b'])
    (hhead : text.toList.head? = some '\x7d') : Lined 1 text 1 :=
  (Line.closes hhead h : Line 0 1 text (0 + 1)).lined

theorem lined_closing : Lined 1 "\x7d" 0 :=
  (Line.closes rfl (.literal rfl rfl) : Line 0 1 "\x7d" (0 + 0)).lined

/-- Texts of which each is made of lines that close what they open. -/
abbrev AllLined (a : Nat) (texts : List String) : Prop := ∀ t ∈ texts, Lined a t a

theorem lined_blockOf {texts : List String} (h : AllLined 0 texts) : Lined 1 (blockOf texts) 1 :=
  (lined_unlines h).indent

/-! ## Simple statements -/

theorem Snug.ended {text : String} (h : Snug text) : Lined 0 (text ++ ";") 0 :=
  (h.append (.literal rfl rfl)).lined

theorem lined_word {word text : String} (hword : Snug word) (h : Inline text) :
    Lined 0 (word ++ text ++ ";") 0 :=
  (hword.append h).ended

/-- `left = right;` -/
theorem lined_set {left right : String} (hleft : Snug left) (hright : Inline right) :
    Lined 0 (left ++ " = " ++ right ++ ";") 0 :=
  lined_word (hleft.append (.literal rfl rfl)) hright

theorem snug_auto : Snug "auto " := ⟨.literal rfl rfl, .literal rfl⟩

theorem lined_tupleParts {names : List String} (h : AllSnug names) :
    ∀ i, AllLined 0 (tupleParts i names) := by
  induction names with
  | nil =>
      intro i t ht
      cases ht
  | cons name rest ih =>
      intro i
      obtain ⟨hname, hrest⟩ := List.forall_mem_cons.mp h
      have hget : Inline " = std::get<" := .literal rfl rfl
      have hvalue : Inline ">(*value.m_tuple);" := .literal rfl rfl
      refine List.forall_mem_cons.mpr ⟨?_, ih hrest (i + 1)⟩
      have htarget : Snug ("auto " ++ name ++ " = std::get<") :=
        (snug_auto.append hname.toReads).append hget
      exact ((htarget.append (snug_nat i).toReads).append hvalue).lined

theorem gives_updateText {span : Span} {op : BinaryOp} {target value : String}
    (htarget : Snug target) (hvalue : Inline value) :
    (updateText span op target value).Gives (Lined 0 · 0) := by
  unfold updateText
  split
  · exact gives_ok (lined_set htarget (snug_powerText htarget.toReads hvalue).toReads)
  · split
    · next token htoken =>
      have hop : Snug (target ++ " " ++ token) :=
        (htarget.append (.literal rfl rfl)).append (inline_binaryToken htoken)
      exact gives_ok (lined_word (hop.append (.literal rfl rfl)) hvalue)
    · exact gives_error

theorem lined_typed {type target text : String} (htype : Snug type) (htarget : Inline target)
    (htext : Inline text) : Lined 0 (type ++ " " ++ target ++ " = " ++ text ++ ";") 0 :=
  lined_set ((htype.append (.literal rfl rfl)).append htarget) htext

/-- A declaration by a constructor, whose arguments stand between brackets. -/
theorem lined_constructed {type target inner left right : String} {opened : List Char}
    (htype : Inline type) (htarget : Inline target) (hinner : Inline inner)
    (hleft : Reads [] left opened) (hright : Reads opened right []) :
    Lined 0 ("auto " ++ target ++ " = " ++ type ++ left ++ inner ++ right) 0 := by
  have hvariable : Snug ("auto " ++ target ++ " = " ++ type) :=
    ((snug_auto.append htarget).append (.literal rfl rfl)).append htype
  have hwhole := Snug.between (hvariable.toReads.append hleft) (hvariable.fronted.append _) hinner hright
  exact hwhole.lined

section Statements

variable [Text.IdentifierTable] {m : Module} (hm : Harmless m)

include hm

theorem gives_assignText {span : Span} {value : String} {targets : List Expr} (hvalue : Snug value)
    (h : AllHeld m targets) : (assignText span value targets).Gives (Lined 0 · 0) := by
  unfold assignText
  split
  · next elements =>
    have htuple := h _ List.mem_cons_self
    refine (gives_lowerExprs hm fun e he => htuple.part (List.mem_map_of_mem he)).bind ?_
    intro names hnames
    have hfirst : Snug "auto value = " := ⟨.literal rfl rfl, .literal rfl⟩
    have hlines : AllLined 0 (("auto value = " ++ value ++ ";") :: tupleParts 0 names) :=
      List.forall_mem_cons.mpr ⟨lined_word hfirst hvalue.toReads, lined_tupleParts hnames 0⟩
    exact gives_ok (lined_unlines hlines)
  · refine (gives_lowerExpr hm (h _ List.mem_cons_self)).bind ?_
    intro text htext
    exact gives_ok (lined_set htext hvalue.toReads)
  · exact gives_error

theorem gives_declareList {target : String} {hint value : Expr} (htarget : Inline target)
    (hhint : m.Holds (.expr hint)) (hvalue : m.Holds (.expr value)) :
    (declareList target hint value).Gives (Lined 0 · 0) := by
  refine (gives_resolveType hm hhint).bind ?_
  intro type htype
  cases value with
  | list _ elements =>
      refine (gives_lowerExprs hm fun e he => hvalue.part (List.mem_map_of_mem he)).bind ?_
      intro texts htexts
      exact gives_ok (lined_constructed htype.toReads htarget (inline_commas htexts)
        (.literal rfl rfl) (.literal rfl rfl))
  | _ =>
      refine (gives_lowerExpr hm hvalue).bind ?_
      intro text htext
      exact gives_ok (lined_typed htype htarget htext.toReads)

theorem gives_declareObject {target : String} {hint value : Expr} (htarget : Inline target)
    (hhint : m.Holds (.expr hint)) (hvalue : m.Holds (.expr value)) :
    (declareObject target hint value).Gives (Lined 0 · 0) := by
  refine (gives_resolveType hm hhint).bind ?_
  intro type htype
  refine (gives_lowerExpr hm hvalue).bind ?_
  intro text htext
  exact gives_ok (lined_constructed htype.toReads htarget htext.toReads (.literal rfl rfl)
    (.literal rfl rfl))

theorem gives_declareText {target : String} {hint value : Expr} (htarget : Inline target)
    (hhint : m.Holds (.expr hint)) (hvalue : m.Holds (.expr value)) :
    (declareText target hint value).Gives (Lined 0 · 0) := by
  unfold declareText
  split
  · exact gives_declareList hm htarget hhint hvalue
  · next type =>
    split
    · refine (gives_lowerExpr hm hvalue).bind ?_
      intro text htext
      exact gives_ok (lined_typed (snug_identifier (hm.word _ hhint)) htarget htext.toReads)
    · split
      · refine (gives_lowerExpr hm hvalue).bind ?_
        intro text htext
        have hstart : Snug "String " := ⟨.literal rfl rfl, .literal rfl⟩
        have hhead : Snug ("String " ++ target) := hstart.append htarget
        exact gives_ok (Snug.between (hhead.toReads.append (.literal rfl rfl))
          (hhead.fronted.append _) htext.toReads (.literal rfl rfl)).lined
      · exact gives_declareObject hm htarget hhint hvalue
  · exact gives_declareObject hm htarget hhint hvalue

theorem gives_declaration {span : Span} {target hint : Expr} {value : Option Expr}
    (h : AllHeld m (target :: hint :: value.toList)) :
    (declaration span target hint value).Gives (Lined 0 · 0) := by
  obtain ⟨htarget, hhint, hvalue⟩ : m.Holds (.expr target) ∧ m.Holds (.expr hint) ∧
      AllHeld m value.toList := by
    simpa [AllHeld] using h
  refine (gives_lowerExpr hm htarget).bind ?_
  intro name hname
  cases value with
  | none => exact gives_error
  | some v => exact gives_declareText hm hname.toReads hhint (hvalue v List.mem_cons_self)

theorem gives_loopVariable {target : Expr} (h : m.Holds (.expr target)) :
    (loopVariable target).Gives Inline := by
  unfold loopVariable
  split
  · refine (gives_lowerExprs hm fun e he => h.part (List.mem_map_of_mem he)).bind ?_
    intro texts htexts
    have hopen : Reads [] "[" ['['] := .literal rfl rfl
    have hclose : Reads ['['] "]" [] := .literal rfl rfl
    exact gives_ok ((hopen.add (inline_commas htexts)).append hclose)
  · intro text htext
    exact (gives_lowerExpr hm h text htext).toReads

theorem gives_caughtType {kind : Option Expr} (h : AllHeld m kind.toList) :
    (caughtType kind).Gives Inline := by
  cases kind with
  | none => exact gives_ok (.literal rfl rfl)
  | some e =>
      intro text htext
      exact (gives_lowerExpr hm (h e List.mem_cons_self) text htext).toReads

theorem gives_bindings {items : List WithItem} (h : ∀ c ∈ items.flatMap (·.parts), m.Holds c) :
    (bindings items).Gives (AllLined 0) := by
  induction items with
  | nil => exact gives_ok fun _ ht => nomatch ht
  | cons item rest ih =>
      obtain ⟨context, target⟩ := item
      have hrest := ih fun c hc => h c (List.mem_append_right _ hc)
      have hcontext := h (.expr context) List.mem_cons_self
      cases target with
      | none => exact gives_error
      | some target =>
          have htarget := h (.expr target) (.tail _ List.mem_cons_self)
          refine (gives_lowerExpr hm htarget).bind ?_
          intro name hname
          refine (gives_lowerExpr hm hcontext).bind ?_
          intro value hvalue
          refine hrest.bind ?_
          intro others hothers
          have hline := lined_set (snug_auto.append hname.toReads) hvalue.toReads
          exact gives_ok (List.forall_mem_cons.mpr ⟨hline, hothers⟩)

end Statements

/-! ## Blocks -/

theorem lined_braced {header body : String} (hheader : Snug header) (hbody : Lined 1 body 1) :
    Lined 0 (braced header body) 0 := by
  have hopen : Lined 0 (header ++ " \x7b") 1 :=
    lined_opening (hheader.toReads.append (.literal rfl rfl)) (hheader.fronted.append _)
  exact hopen.under (hbody.under lined_closing.last)

theorem lined_ifText {test body orelse : String} (htest : Inline test) (hbody : Lined 1 body 1)
    (horelse : Lined 1 orelse 1) : Lined 0 (ifText test body orelse) 0 := by
  have hword : Reads [] "if (" ['('] := .literal rfl rfl
  have hfronted : Fronted "if (" := .literal rfl
  unfold ifText
  split
  · exact lined_braced (.between hword hfronted htest (.literal rfl rfl)) hbody
  · have hopen : Lined 0 ("if (" ++ test ++ ") \x7b") 1 :=
      lined_opening ((hword.add htest).append (.literal rfl rfl)) ((hfronted.append _).append _)
    have hturn : Lined 1 "\x7d else \x7b" 1 := lined_turning (.literal rfl rfl) rfl
    exact hopen.under (hbody.under (hturn.under (horelse.under lined_closing.last)))

theorem lined_try : Lined 0 "try \x7b" 1 :=
  lined_opening (.literal rfl rfl) (.literal rfl)

theorem lined_guarded {texts handlers : List String} (htexts : AllLined 0 texts)
    (hhandlers : AllLined 1 handlers) : Lined 0 (guarded (blockOf texts) handlers) 0 := by
  unfold guarded
  split
  · exact (lined_unlines htexts).dedent_indent
  · exact lined_try.under ((lined_blockOf htexts).under
      ((lined_unlines hhandlers).under lined_closing.last))

theorem lined_finalized {code final : String} (hcode : Lined 0 code 0) (hfinal : Lined 1 final 1) :
    Lined 0 (finalized code final) 0 := by
  have hthrow : Snug "throw;" := .of_solid (by decide) rfl
  have hturn : Lined 1 "\x7d catch (...) \x7b" 1 := lined_turning (.literal rfl rfl) rfl
  unfold finalized
  split
  · exact hcode
  · exact lined_try.under (hcode.indent.under (hfinal.under (hturn.under (hfinal.under
      (hthrow.lined.indent.under lined_closing.last)))))

theorem lined_handlerText {type body : String} {name : Option Ident} (htype : Inline type)
    (hname : ∀ i ∈ name, Inline i.name) (hbody : Lined 1 body 1) :
    Lined 1 (handlerText type name body) 1 := by
  have hcaught : Inline ((name.map (·.name)).getD "e") := by
    cases name with
    | none => exact .literal rfl rfl
    | some i => exact hname i rfl
  have hword : Reads ['\x7b'] "\x7d catch (" ['('] := .literal rfl rfl
  have hreference : Inline "& " := .literal rfl rfl
  have hopen : Reads ['('] ") \x7b" ['\x7b'] := .literal rfl rfl
  have hturn := lined_turning ((((hword.add htype).add hreference).add hcaught).append hopen) (by simp)
  have htext : handlerText type name body =
      "\x7d catch (" ++ type ++ "& " ++ ((name.map (·.name)).getD "e") ++ ") \x7b" ++ "\n" ++ body := by
    have hend : ") \x7b\n" = ") \x7b" ++ "\n" := rfl
    rw [handlerText, hend, ← String.append_assoc]
  rw [htext]
  exact hturn.append hbody

/-! ## Statements -/

section Lowering

variable [Text.IdentifierTable] {m : Module} (hm : Harmless m)

include hm

theorem gives_lowerStmt {stmt : Stmt} (h : m.Holds (.stmt stmt)) :
    (lowerStmt stmt).Gives (Lined 0 · 0) := by
  induction stmt using lowerStmt.induct _
    (fun handlers => (∀ c ∈ handlers.flatMap (·.parts), m.Holds c) →
      (lowerHandlers handlers).Gives (AllLined 1))
    (fun handler => (∀ c ∈ handler.parts, m.Holds c) →
      (lowerHandler handler).Gives (Lined 1 · 1))
    (fun body => (∀ stmt ∈ body, m.Holds (.stmt stmt)) → (lowerStmts body).Gives (AllLined 0)) with
  | case1 _ value =>
      rw [lowerStmt]
      refine (gives_lowerExpr hm (h.part List.mem_cons_self)).bind ?_
      intro text htext
      exact gives_ok htext.ended
  | case2 _ targets value =>
      rw [lowerStmt]
      have hall : AllHeld m (targets ++ [value]) := fun e he => h.part (List.mem_map_of_mem he)
      refine (gives_lowerExpr hm (hall value (by simp))).bind ?_
      intro text htext
      exact gives_assignText hm htext fun e he => hall e (List.mem_append_left _ he)
  | case3 _ target hint value =>
      exact gives_declaration hm fun e he => h.part (List.mem_map_of_mem he)
  | case4 _ target op value =>
      rw [lowerStmt]
      refine (gives_lowerExpr hm (h.part List.mem_cons_self)).bind ?_
      intro t ht
      refine (gives_lowerExpr hm (h.part (.tail _ List.mem_cons_self))).bind ?_
      intro v hv
      exact gives_updateText ht hv.toReads
  | case5 _ value =>
      rw [lowerStmt]
      refine (gives_lowerExpr hm (h.part List.mem_cons_self)).bind ?_
      intro text htext
      have hword : Snug "return " := ⟨.literal rfl rfl, .literal rfl⟩
      exact gives_ok (lined_word hword htext.toReads)
  | case6 => exact gives_error
  | case7 => exact gives_ok (lined_empty 0)
  | case8 | case9 | case11 => exact gives_ok (Snug.of_solid (by decide) rfl).lined
  | case10 _ test message =>
      rw [lowerStmt]
      refine (gives_lowerExpr hm (h.part List.mem_cons_self)).bind ?_
      intro text htext
      have hfronted : Fronted "ASSERT(" := .literal rfl
      exact gives_ok (Snug.between (.literal rfl rfl) hfronted htext.toReads (.literal rfl rfl)).lined
  | case12 _ exception cause =>
      rw [lowerStmt]
      refine (gives_lowerExpr hm (h.part List.mem_cons_self)).bind ?_
      intro text htext
      have hword : Snug "throw " := ⟨.literal rfl rfl, .literal rfl⟩
      exact gives_ok (lined_word hword htext.toReads)
  | case13 _ test body orelse ihbody ihorelse =>
      rw [lowerStmt]
      have hall : ∀ stmt ∈ body ++ orelse, m.Holds (.stmt stmt) := fun stmt hs =>
        h.part (.tail _ (List.mem_map_of_mem hs))
      refine (gives_lowerExpr hm (h.part List.mem_cons_self)).bind ?_
      intro t ht
      refine (ihbody fun stmt hs => hall stmt (List.mem_append_left _ hs)).bind ?_
      intro b hb
      refine (ihorelse fun stmt hs => hall stmt (List.mem_append_right _ hs)).bind ?_
      intro o ho
      exact gives_ok (lined_ifText ht.toReads (lined_blockOf hb) (lined_blockOf ho))
  | case14 _ test body orelse helse =>
      rw [lowerStmt, if_pos helse]
      exact gives_error
  | case15 _ test body orelse helse ih =>
      rw [lowerStmt, if_neg helse]
      refine (gives_lowerExpr hm (h.part List.mem_cons_self)).bind ?_
      intro t ht
      refine (ih fun stmt hs => h.part (.tail _ ?_)).bind ?_
      · exact List.mem_map_of_mem (List.mem_append_left _ hs)
      · intro b hb
        have hheader : Snug ("while (" ++ t ++ ")") :=
          .between (.literal rfl rfl) (.literal rfl) ht.toReads (.literal rfl rfl)
        exact gives_ok (lined_braced hheader (lined_blockOf hb))
  | case16 _ target source body orelse isAsync helse =>
      rw [lowerStmt, if_pos helse]
      exact gives_error
  | case17 _ target source body orelse isAsync helse ih =>
      rw [lowerStmt, if_neg helse]
      refine (gives_loopVariable hm (h.part List.mem_cons_self)).bind ?_
      intro v hv
      refine (gives_lowerExpr hm (h.part (.tail _ List.mem_cons_self))).bind ?_
      intro s hs
      refine (ih fun stmt hstmt => h.part (.tail _ (.tail _ ?_))).bind ?_
      · exact List.mem_map_of_mem (List.mem_append_left _ hstmt)
      · intro b hb
        have hword : Reads [] "for (auto " ['('] := .literal rfl rfl
        have hfronted : Fronted "for (auto " := .literal rfl
        have hheader : Snug ("for (auto " ++ v ++ ": " ++ s ++ ")") :=
          .between ((hword.add hv).append (.literal rfl rfl)) ((hfronted.append _).append _)
            hs.toReads (.literal rfl rfl)
        exact gives_ok (lined_braced hheader (lined_blockOf hb))
  | case18 _ body handlers orelse final helse =>
      rw [lowerStmt, if_pos helse]
      exact gives_error
  | case19 _ body handlers orelse final helse ihbody ihhandlers ihfinal =>
      rw [lowerStmt, if_neg helse]
      refine (ihbody fun stmt hs => h.part ?_).bind ?_
      · exact List.mem_append_left _ (List.mem_append_left _ (List.mem_map_of_mem hs))
      intro b hb
      refine (ihhandlers fun c hc => h.part ?_).bind ?_
      · exact List.mem_append_left _ (List.mem_append_right _ hc)
      intro hs hhs
      refine (ihfinal fun stmt hs => h.part ?_).bind ?_
      · exact List.mem_append_right _ (List.mem_map_of_mem (List.mem_append_right _ hs))
      intro f hf
      exact gives_ok (lined_finalized (lined_guarded hb hhs) (lined_blockOf hf))
  | case20 _ items body =>
      rw [lowerStmt, if_pos rfl]
      exact gives_error
  | case21 _ items body isAsync hsync ih =>
      rw [lowerStmt, if_neg hsync]
      refine (gives_bindings hm fun c hc => h.part (List.mem_append_left _ hc)).bind ?_
      intro bound hbound
      refine (ih fun stmt hs => h.part ?_).bind ?_
      · exact List.mem_append_right _ (List.mem_map_of_mem hs)
      intro b hb
      have hopen : Lined 0 "\x7b" 1 :=
        lined_opening (.literal rfl rfl) (.literal rfl)
      exact gives_ok (hopen.under ((lined_blockOf hbound).under
        ((lined_blockOf hb).under lined_closing.last)))
  | case22 other =>
      have hother : lowerStmt other = unsupported other.span := by rw [lowerStmt] <;> assumption
      rw [hother]
      exact gives_error
  | case23 kind name body _ ih hparts =>
      rw [lowerHandler]
      refine (gives_caughtType hm fun e he => hparts _ ?_).bind ?_
      · exact List.mem_append_left _ (List.mem_append_left _ (List.mem_map_of_mem he))
      intro type htype
      refine (ih fun stmt hs => hparts _ ?_).bind ?_
      · exact List.mem_append_right _ (List.mem_map_of_mem hs)
      intro b hb
      have hname : ∀ i ∈ name, Inline i.name := by
        intro i hi
        have hident : Node.ident i ∈ name.toList.map .ident :=
          List.mem_map_of_mem (Option.mem_toList.mpr hi)
        have hword := hm.word _ (hparts _ (List.mem_append_left _ (List.mem_append_right _ hident)))
        exact (snug_identifier hword).toReads
      exact gives_ok (lined_handlerText htype hname (lined_blockOf hb))
  | case24 | case26 => exact gives_ok fun _ ht => nomatch ht
  | case25 stmt rest ih ihrest hbody =>
      obtain ⟨hstmt, hrest⟩ := List.forall_mem_cons.mp hbody
      rw [lowerStmts]
      exact gives_cons (ih hstmt) (ihrest hrest)
  | case27 handler rest ih ihrest hparts =>
      rw [lowerHandlers]
      exact gives_cons (ih fun c hc => hparts c (List.mem_append_left _ hc))
        (ihrest fun c hc => hparts c (List.mem_append_right _ hc))

end Lowering

end MysToCpp.Cpp
