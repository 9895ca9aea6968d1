/-
# Expressions in a line

The C++ text of an expression or a type stands in a line, and it closes what it opens.  The proofs follow
`lowerExpr` and `resolveType` by their own induction, over the nodes of a module that is `Harmless`: its
names are identifiers, and no string of it is C++ code, which would be taken over as it is.
-/
import MysToCpp.Proofs.Cpp.TidyLiterals
import MysToCpp.Proofs.Tree.Shape

namespace MysToCpp

open Lexer (IsIdentifier)

/-! ## Results -/

section Gives

variable {α β : Type} {V : α → Prop} {W : β → Prop}

/-- A text that is given satisfies `V`. -/
def Lowered.Gives (l : Lowered α) (V : α → Prop) : Prop := ∀ a, l = .ok a → V a

theorem Lowered.Gives.bind {l : Lowered α} {f : α → Lowered β} (hl : l.Gives V)
    (hf : ∀ a, V a → (f a).Gives W) : Lowered.Gives (l >>= f) W := by
  cases l with
  | error e =>
      intro b hb
      cases hb
  | ok a => exact hf a (hl a rfl)

theorem Cpp.gives_ok {a : α} (h : V a) : Lowered.Gives (.ok a) V := by
  intro b hb
  cases hb
  exact h

theorem Cpp.gives_error {e : LoweringError} : Lowered.Gives (.error e) V := by
  intro b hb
  cases hb

theorem Cpp.gives_cons {l : Lowered α} {rest : Lowered (List α)} (hl : l.Gives V)
    (hrest : rest.Gives fun as => ∀ a ∈ as, V a) :
    Lowered.Gives (l >>= fun a => rest >>= fun as => .ok (a :: as)) fun as => ∀ a ∈ as, V a := by
  refine hl.bind ?_
  intro a ha
  refine hrest.bind ?_
  intro as has
  exact gives_ok (List.forall_mem_cons.mpr ⟨ha, has⟩)

end Gives

/-! ## Programs without C++ code -/

/-- A node of a module, in whatever role. -/
def Module.Holds (m : Module) (x : Node) : Prop := ∃ r, m.Has r x

theorem Module.Holds.part {m : Module} {x c : Node} (h : m.Holds x) (hc : c ∈ x.parts) :
    m.Holds c := by
  obtain ⟨r, hx⟩ := h
  exact hx.child hc

namespace Cpp

/-- A module whose names are identifiers and whose strings are no C++ code. -/
structure Harmless [Text.IdentifierTable] (m : Module) : Prop where
  word : ∀ x, m.Holds x → x.Spelled IsIdentifier
  text : ∀ span s, m.Holds (.expr (.constant span (.text s))) →
    ¬ embeddedSentinel.toList <+: s.toList

abbrev AllHeld (m : Module) (es : List Expr) : Prop := ∀ e ∈ es, m.Holds (.expr e)

abbrev AllSnug (texts : List String) : Prop := ∀ t ∈ texts, Snug t

theorem inline_commas {texts : List String} (h : AllSnug texts) : Inline (commas texts) :=
  .intercalate (.literal rfl rfl) fun t ht => (h t ht).toReads

/-! ## Operators -/

theorem inline_binaryToken {op : BinaryOp} {token : String} (h : binaryToken? op = some token) :
    Inline token := by
  cases op <;> cases h <;> exact .literal rfl rfl

theorem inline_boolToken (op : BoolOp) : Inline (boolToken op) := by
  cases op <;> exact .literal rfl rfl

theorem snug_unaryToken {op : UnaryOp} {token : String} (h : unaryToken? op = some token) :
    Snug token := by
  cases op <;> cases h <;> exact .of_solid (by decide) rfl

theorem inline_compareToken {op : CompareOp} {token : String} (h : compareToken? op = some token) :
    Inline token := by
  cases op <;> cases h <;> exact .literal rfl rfl

/-! ## Texts put together -/

theorem reads_opened {func : String} (h : Inline func) : Reads [] (func ++ "(") ['('] :=
  h.append (.literal rfl rfl)

theorem snug_operation {left token right : String} (hleft : Inline left) (htoken : Inline token)
    (hright : Inline right) : Snug (operation left token right) := by
  have hopen : Reads [] ("(" ++ left) ['('] := Reads.add (.literal rfl rfl) hleft
  have hblank : Reads ['('] " " ['('] := .literal rfl rfl
  have hclose : Reads ['('] ")" [] := .literal rfl rfl
  refine ⟨?_, by simp [Fronted, operation]⟩
  exact ((((hopen.append hblank).add htoken).append hblank).add hright).append hclose

theorem reads_pair {func left right : String} (hfunc : Reads [] func ['(']) (hleft : Inline left)
    (hright : Inline right) : Inline (func ++ left ++ ", " ++ right ++ ")") := by
  have hcomma : Reads ['('] ", " ['('] := .literal rfl rfl
  have hclose : Reads ['('] ")" [] := .literal rfl rfl
  exact (((hfunc.add hleft).append hcomma).add hright).append hclose

theorem snug_powerText {base exponent : String} (hbase : Inline base) (hexponent : Inline exponent) :
    Snug (powerText base exponent) :=
  ⟨reads_pair (.literal rfl rfl) hbase hexponent, by simp [Fronted, powerText]⟩

theorem gives_binaryText {span : Span} {op : BinaryOp} {left right : String} (hleft : Inline left)
    (hright : Inline right) : (binaryText span op left right).Gives Snug := by
  unfold binaryText
  split
  · exact gives_ok (snug_powerText hleft hright)
  · split
    · next token htoken =>
      exact gives_ok (snug_operation hleft (inline_binaryToken htoken) hright)
    · exact gives_error

/-- Operands are added one by one, in parentheses. -/
theorem snug_grouped (op : BoolOp) {rest : List String} (h : AllSnug rest) :
    ∀ {text : String}, Snug text →
      Snug (rest.foldl (fun text value => operation text (boolToken op) value) text) := by
  induction rest with
  | nil =>
      intro text htext
      exact htext
  | cons value rest ih =>
      intro text htext
      obtain ⟨hvalue, hrest⟩ := List.forall_mem_cons.mp h
      exact ih hrest (snug_operation htext.toReads (inline_boolToken op) hvalue.toReads)

theorem gives_boolText {span : Span} {op : BoolOp} {texts : List String} (h : AllSnug texts) :
    (boolText span op texts).Gives Snug := by
  cases texts with
  | nil => exact gives_error
  | cons first rest =>
      obtain ⟨hfirst, hrest⟩ := List.forall_mem_cons.mp h
      exact gives_ok (snug_grouped op hrest hfirst)

theorem gives_compareText {span : Span} {op : CompareOp} {left right : String} (hleft : Snug left)
    (hright : Inline right) : (compareText span op left right).Gives Snug := by
  unfold compareText
  split
  · exact gives_ok ⟨reads_pair (.literal rfl rfl) hleft.toReads hright, by simp [Fronted]⟩
  · exact gives_ok ⟨reads_pair (.literal rfl rfl) hleft.toReads hright, by simp [Fronted]⟩
  · split
    · next token htoken =>
      have hblank : Inline " " := .literal rfl rfl
      have hop : Snug (left ++ " " ++ token ++ " ") :=
        ((hleft.append hblank).append (inline_compareToken htoken)).append hblank
      exact gives_ok (hop.append hright)
    · exact gives_error

/-- Blanks in the output are literals between the arguments. -/
theorem snug_printText {args : List String} (h : AllSnug args) : Snug (printText args) := by
  unfold printText
  split
  · exact ⟨.literal rfl rfl, by simp [Fronted]⟩
  · have hstart : Inline "std::cout << " := .literal rfl rfl
    have hargs : Inline (" << \" \" << ".intercalate args) :=
      .intercalate (.literal rfl rfl) fun t ht => (h t ht).toReads
    have hstop : Inline " << std::endl" := .literal rfl rfl
    exact ⟨(hstart.append hargs).append hstop, by simp [Fronted]⟩

theorem snug_callText {func : String} {args : List String} (hfunc : Snug func) (h : AllSnug args) :
    Snug (callText func args) := by
  unfold callText
  split
  · exact snug_printText h
  · exact .between (reads_opened hfunc.toReads) (hfunc.fronted.append _) (inline_commas h)
      (.literal rfl rfl)

theorem gives_callOrFail {func : String} {args : List String} (keywords : List KeywordArg)
    (hfunc : Snug func) (h : AllSnug args) : (callOrFail func args keywords).Gives Snug := by
  cases keywords with
  | nil => exact gives_ok (snug_callText hfunc h)
  | cons k rest => exact gives_error

theorem snug_memberText {value attr : String} (hvalue : Snug value) (hattr : Inline attr) :
    Snug (memberText value attr) := by
  unfold memberText
  split
  · exact ⟨Reads.append (.literal rfl rfl) hattr, by simp [Fronted]⟩
  · exact (hvalue.append (.literal rfl rfl)).append hattr

theorem snug_typeName {name : String} (h : Snug name) : Snug (typeName name) := by
  unfold typeName
  split
  · exact .of_solid (by decide) rfl
  · exact h

theorem snug_template {name : String} {args : List String} (hname : Snug name) (h : AllSnug args) :
    Snug (template name args) :=
  ((hname.append (.literal rfl rfl)).append (inline_commas h)).append (.literal rfl rfl)

/-! ## Expressions -/

section Expressions

variable [Text.IdentifierTable] {m : Module} (hm : Harmless m)

include hm

theorem gives_constantText {span : Span} {c : Constant} (h : m.Holds (.expr (.constant span c))) :
    (constantText span c).Gives Snug := by
  cases c with
  | none => exact gives_ok (.of_solid (by decide) rfl)
  | bool b => cases b <;> exact gives_ok (.of_solid (by decide) rfl)
  | int n => exact gives_ok (snug_nat n)
  | float x => exact gives_ok (snug_float x)
  | text s =>
      have hplain := hm.text span s h
      refine gives_ok ?_
      rw [stringText, if_neg (by rwa [List.isPrefixOf_iff_prefix])]
      exact snug_quote s
  | bytes | ellipsis => exact gives_error

theorem gives_lowerExpr {e : Expr} (h : m.Holds (.expr e)) : (lowerExpr e).Gives Snug := by
  induction e using lowerExpr.induct _ (fun es => AllHeld m es →
    (lowerExprs es).Gives AllSnug) with
  | case1 _ id => exact gives_ok (snug_identifier (hm.word _ h))
  | case2 => exact gives_constantText hm h
  | case3 _ left op right ihl ihr =>
      rw [lowerExpr]
      refine (ihl (h.part List.mem_cons_self)).bind ?_
      intro l hl
      refine (ihr (h.part (.tail _ List.mem_cons_self))).bind ?_
      intro r hr
      exact gives_binaryText hl.toReads hr.toReads
  | case4 _ op values ih =>
      rw [lowerExpr]
      refine (ih fun e he => h.part (List.mem_map_of_mem he)).bind ?_
      intro texts htexts
      exact gives_boolText htexts
  | case5 _ op operand token htoken ih =>
      rw [lowerExpr, htoken]
      refine (ih (h.part List.mem_cons_self)).bind ?_
      intro text htext
      exact gives_ok ((snug_unaryToken htoken).append htext.toReads)
  | case6 _ op operand htoken =>
      rw [lowerExpr, htoken]
      exact gives_error
  | case7 _ left op right ihl ihr =>
      rw [lowerExpr]
      refine (ihl (h.part List.mem_cons_self)).bind ?_
      intro l hl
      refine (ihr (h.part (.tail _ List.mem_cons_self))).bind ?_
      intro r hr
      exact gives_compareText hl hr.toReads
  | case8 _ func args keywords ihf ihargs =>
      rw [lowerExpr]
      refine (ihf (h.part List.mem_cons_self)).bind ?_
      intro f hf
      refine (ihargs fun e he => h.part ?_).bind ?_
      · exact List.mem_append_left _ (.tail _ (List.mem_map_of_mem he))
      · intro texts htexts
        exact gives_callOrFail keywords hf htexts
  | case9 _ value attr ih =>
      rw [lowerExpr]
      refine (ih (h.part List.mem_cons_self)).bind ?_
      intro text htext
      have hattr : IsIdentifier attr.name :=
        hm.word (.ident attr) (h.part (.tail _ List.mem_cons_self))
      exact gives_ok (snug_memberText htext (snug_identifier hattr).toReads)
  | case10 _ value index ih =>
      rw [lowerExpr]
      exact ih (h.part List.mem_cons_self)
  | case11 _ elements ih | case12 _ elements ih =>
      rw [lowerExpr]
      refine (ih fun e he => h.part (List.mem_map_of_mem he)).bind ?_
      intro texts htexts
      exact gives_ok (.between (.literal rfl rfl) (.literal rfl) (inline_commas htexts)
        (.literal rfl rfl))
  | case13 => exact gives_ok ⟨.literal rfl rfl, .literal rfl⟩
  | case14 => exact gives_error
  | case15 other =>
      have hother : lowerExpr other = unsupported other.span := by rw [lowerExpr] <;> assumption
      rw [hother]
      exact gives_error
  | case16 => exact gives_ok (List.forall_mem_nil _)
  | case17 e rest ih ihrest hes =>
      obtain ⟨he, hrest⟩ := List.forall_mem_cons.mp hes
      rw [lowerExprs]
      exact gives_cons (ih he) (ihrest hrest)

theorem gives_lowerExprs {es : List Expr} (h : AllHeld m es) : (lowerExprs es).Gives AllSnug := by
  induction es with
  | nil => exact gives_ok (List.forall_mem_nil _)
  | cons e rest ih =>
      obtain ⟨he, hrest⟩ := List.forall_mem_cons.mp h
      rw [lowerExprs]
      exact gives_cons (gives_lowerExpr hm he) (ih hrest)

/-! ## Types -/

theorem snug_name {e : Expr} {name : String} (h : m.Holds (.expr e)) (hname : e.name? = some name) :
    Snug name := by
  cases e with
  | name span id =>
      cases hname
      exact snug_identifier (hm.word _ h)
  | _ => cases hname

theorem gives_keyType {key : Expr} (h : m.Holds (.expr key)) : (keyType key).Gives Snug := by
  unfold keyType
  split
  · next name hname => exact gives_ok (snug_typeName (snug_name hm h hname))
  · exact gives_error

theorem gives_optionalType {span : Span} {value index : Expr} (h : m.Holds (.expr index)) :
    (optionalType span value index).Gives Snug := by
  unfold optionalType
  split
  · next name inner _ hinner =>
    have htype : Snug (typeName inner) := snug_typeName (snug_name hm h hinner)
    split
    · have hargs : AllSnug [typeName inner] := List.forall_mem_singleton.mpr htype
      exact gives_ok (snug_template (.of_solid (by decide) rfl) hargs)
    · exact gives_error
  · exact gives_error

theorem gives_resolveType {e : Expr} (h : m.Holds (.expr e)) : (resolveType e).Gives Snug := by
  induction e using resolveType.induct _ (fun es => AllHeld m es →
    (resolveTypes es).Gives AllSnug) with
  | case1 _ id => exact gives_ok (snug_typeName (snug_identifier (hm.word _ h)))
  | case2 _ value index => exact gives_optionalType hm (h.part (.tail _ List.mem_cons_self))
  | case3 _ element ih =>
      rw [resolveType]
      refine (ih (h.part List.mem_cons_self)).bind ?_
      intro text htext
      exact gives_ok (snug_template (.of_solid (by decide) rfl) (List.forall_mem_singleton.mpr htext))
  | case4 _ elements hmany =>
      rw [resolveType.eq_4 _ _ hmany]
      exact gives_error
  | case5 _ elements ih =>
      rw [resolveType]
      refine (ih fun e he => h.part (List.mem_map_of_mem he)).bind ?_
      intro texts htexts
      exact gives_ok (snug_template (.of_solid (by decide) rfl) htexts)
  | case6 _ key value ih =>
      rw [resolveType]
      refine (gives_keyType hm (h.part List.mem_cons_self)).bind ?_
      intro k hk
      refine (ih (h.part (.tail _ List.mem_cons_self))).bind ?_
      intro v hv
      have hargs : AllSnug [k, v] := List.forall_mem_cons.mpr ⟨hk, List.forall_mem_singleton.mpr hv⟩
      exact gives_ok (snug_template (.of_solid (by decide) rfl) hargs)
  | case7 other =>
      have hother : resolveType other = unsupported other.span := by
        rw [resolveType] <;> assumption
      rw [hother]
      exact gives_error
  | case8 => exact gives_ok (List.forall_mem_nil _)
  | case9 e rest ih ihrest hes =>
      obtain ⟨he, hrest⟩ := List.forall_mem_cons.mp hes
      rw [resolveTypes]
      exact gives_cons (ih he) (ihrest hrest)

end Expressions

end Cpp

end MysToCpp
