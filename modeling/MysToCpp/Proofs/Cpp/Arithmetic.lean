/-
# Lowered arithmetic is read back

The C++ text of an arithmetic expression is an expression of the language too, and it stands for the
same tree: `parse_lowered` sends an expression through the lowering, the lexer and the parser and gets
it back up to spans.

Both halves go by the tokens of the text, `Expr.spelled`, where every operation stands in parentheses.
`Arithmetic.lowered` says that the text is read as these tokens.  `Arithmetic.climbed` says that the
parser comes to the tree from them: what stands between two parentheses is read with the loosest
binding, and everything else is an operand, or a call with nothing behind it that binds as tightly.
-/
import MysToCpp.Cpp.Expr
import MysToCpp.Proofs.Parser.RoundTrip
import MysToCpp.Proofs.Token.Spelling
import MysToCpp.Text.Unicode

namespace MysToCpp

open Keyword Punct

mutual

/-- The tokens of an expression with every operation in parentheses. -/
def Expr.spelled : Expr → List TokenKind
  | .name _ id => [.name id]
  | .constant _ value => value.token?.toList
  | .unary _ op e => op.token :: e.spelled
  | .binary _ left op right =>
      .punct parenOpen :: (left.spelled ++ .punct op.mark :: (right.spelled ++ [.punct parenClose]))
  | .call _ func args _ =>
      func.spelled ++ .punct parenOpen ::
        (joined (.punct comma) (Expr.spelledAll args) ++ [.punct parenClose])
  | _ => []

def Expr.spelledAll : List Expr → List (List TokenKind)
  | [] => []
  | e :: rest => e.spelled :: Expr.spelledAll rest

end

theorem Expr.spelledAll_eq_map (es : List Expr) : Expr.spelledAll es = es.map Expr.spelled := by
  induction es with
  | nil => rfl
  | cons e es ih => rw [Expr.spelledAll, ih, List.map_cons]

section

variable [Text.IdentifierTable]

/-- Names that are read as names. -/
def IsName (id : String) : Prop := Lexer.IsIdentifier id ∧ Keyword.ofSpelling? id = none

/-- Arithmetic that both languages write alike: names, whole numbers, signs, the operators that have the
same mark, and calls of functions by their name, except `print`. -/
inductive Arithmetic : Expr → Prop
  | name (span) {id} : IsName id → Arithmetic (.name span id)
  | int (span) {n} : n < Token.intLimit → Arithmetic (.constant span (.int n))
  | unary (span) {op e} : op ∈ [.plus, .minus] → Arithmetic e → Arithmetic (.unary span op e)
  | binary (span) {left op right} : op ∉ [.matMult, .pow, .floorDiv] → Arithmetic left →
      Arithmetic right → Arithmetic (.binary span left op right)
  | call (span span') {id args} : IsName id → id ≠ "print" → (∀ a ∈ args, Arithmetic a) →
      Arithmetic (.call span (.name span' id) args [])

/-! ## From the text to the tokens -/

namespace Lexer

/-- Characters that no operand starts with: those that go on with a mark, blanks and comments. -/
def notOperand : List Char :=
  ['=', '>', '<', '*', '/'] ++ [' ', '\t', '\x0c', '#', '\n', '\r']

/-- `text` is read as the tokens `ks` wherever nothing sticks to it, and starts as operands do. -/
structure Writes (text : List Char) (ks : List TokenKind) : Prop where
  starts : ∃ x more, text = x :: more ∧ x ∉ notOperand
  lexes : ∀ gap rest stack, (∀ y ∈ gap, isGap y = true) → Apart rest →
    Lexes (gap ++ (text ++ rest)) stack ks rest stack

omit [Text.IdentifierTable] in
theorem blank_isGap : ∀ y ∈ [' '], isGap y = true := by
  intro y hy
  rw [List.mem_singleton.mp hy]
  decide

omit [Text.IdentifierTable] in
theorem nothing_isGap : ∀ y ∈ ([] : List Char), isGap y = true := nofun

/-- Behind a sign stands an operand, so that no longer mark is read. -/
theorem Writes.unmarked {text : List Char} {ks : List TokenKind} (h : Writes text ks)
    (rest : List Char) : Unmarked (text ++ rest) := by
  obtain ⟨x, more, rfl, hx⟩ := h.starts
  rintro y ⟨⟩ hy
  exact hx (List.mem_append_left _ hy)

theorem writes_name {id : String} (h : IsName id) : Writes id.toList [.name id] := by
  obtain ⟨hid, hword⟩ := h
  refine ⟨?_, fun gap rest stack hgap hapart => lexes_name hid hword hgap hapart⟩
  obtain ⟨first, more, htext, hfirst, -⟩ := hid
  refine ⟨first, more, htext, fun hmem => ?_⟩
  have hnone : notOperand.all (!Text.isIdentifierStart ·) = true := rfl
  have hnot := List.all_eq_true.mp hnone first hmem
  rw [hfirst] at hnot
  cases hnot

theorem writes_int {n : Nat} (hn : n < Token.intLimit) : Writes (toString n).toList [.int n] := by
  refine ⟨?_, fun gap rest stack hgap hapart => lexes_int hn hgap hapart⟩
  rw [Nat.toString_eq_ofList_toDigits, String.toList_ofList]
  cases hds : Nat.toDigits 10 n with
  | nil => exact absurd hds Nat.toDigits_ne_nil
  | cons d ds =>
      have hdigit := isDigit_of_mem (hds ▸ List.mem_cons_self)
      have hnone : notOperand.all (!Text.isDigit ·) = true := by decide
      refine ⟨d, ds, rfl, fun hmem => ?_⟩
      have hnot := List.all_eq_true.mp hnone d hmem
      rw [hdigit] at hnot
      cases hnot

theorem writes_unary {op : UnaryOp} (hop : op ∈ [.plus, .minus]) {text : List Char}
    {ks : List TokenKind} (h : Writes text ks) :
    ∃ sign, Cpp.unaryToken? op = some sign ∧ Writes (sign.toList ++ text) (op.token :: ks) := by
  have hsign (p : Punct) (hp : IsOperator p) (x : Char) (hx : p.spelling.toList = [x])
      (hstart : x ∉ notOperand) :
      Writes (p.spelling.toList ++ text) (.punct p :: ks) := by
    refine ⟨⟨x, text, by rw [hx]; rfl, hstart⟩, fun gap rest stack hgap hapart => ?_⟩
    rw [List.append_assoc]
    exact (lexes_operator hp hgap (h.unmarked rest)).trans (h.lexes [] rest stack nothing_isGap hapart)
  simp only [List.mem_cons, List.not_mem_nil, or_false] at hop
  rcases hop with rfl | rfl
  · exact ⟨"+", rfl, hsign .plus (by decide) '+' rfl (by decide)⟩
  · exact ⟨"-", rfl, hsign .minus (by decide) '-' rfl (by decide)⟩

theorem writes_binary {op : BinaryOp} (hop : op ∉ [.matMult, .pow, .floorDiv])
    {left right : String} {ks₁ ks₂ : List TokenKind} (hl : Writes left.toList ks₁)
    (hr : Writes right.toList ks₂) (span : Span) :
    ∃ text, Cpp.binaryText span op left right = .ok text ∧ Writes text.toList
      (.punct parenOpen :: (ks₁ ++ .punct op.mark :: (ks₂ ++ [.punct parenClose]))) := by
  have htoken : Cpp.binaryText span op left right = .ok (Cpp.operation left op.mark.spelling right) ∧
      IsOperator op.mark := by
    cases op <;> simp [Cpp.binaryText, Cpp.binaryToken?, BinaryOp.mark, IsOperator] at hop ⊢ <;> rfl
  obtain ⟨htext, hmark⟩ := htoken
  refine ⟨_, htext, ⟨'(', _, by simp [Cpp.operation]; rfl, by decide⟩, fun gap rest stack hgap _ => ?_⟩
  have hchars : (Cpp.operation left op.mark.spelling right).toList ++ rest =
      '(' :: (left.toList ++ ([' '] ++ (op.mark.spelling.toList ++ ([' '] ++ (right.toList ++
        ')' :: rest))))) := by
    simp [Cpp.operation]
  rw [hchars]
  refine (lexes_parenOpen _ stack hgap).trans ?_
  refine (hl.lexes [] _ _ nothing_isGap (apart_cons _ (by decide))).trans ?_
  refine (lexes_operator hmark blank_isGap ?_).trans ?_
  · rintro y ⟨⟩
    decide
  · exact (hr.lexes [' '] _ _ blank_isGap (apart_cons _ (by decide))).trans (lexes_parenClose rest stack)

omit [Text.IdentifierTable] in
theorem joined_cons_cons (between : TokenKind) (first second : List TokenKind)
    (more : List (List TokenKind)) : joined between (first :: second :: more) =
      first ++ between :: joined between (second :: more) := by
  simp [joined]

theorem lowered_args {first : Expr} {more : List Expr}
    (h : ∀ a ∈ first :: more, ∃ text, Cpp.lowerExpr a = .ok text ∧ Writes text.toList a.spelled) :
    ∃ text texts, Cpp.lowerExprs (first :: more) = .ok (text :: texts) ∧
      ∀ gap rest stack, (∀ y ∈ gap, isGap y = true) →
        Lexes (gap ++ ((Cpp.commas (text :: texts)).toList ++ ')' :: rest)) stack
          (joined (.punct comma) (Expr.spelledAll (first :: more))) (')' :: rest) stack := by
  induction more generalizing first with
  | nil =>
      obtain ⟨text, htext, hwrites⟩ := h first List.mem_cons_self
      refine ⟨text, [], ?_, fun gap rest stack hgap => ?_⟩
      · rw [Cpp.lowerExprs, htext]
        rfl
      · have hlexes := hwrites.lexes gap (')' :: rest) stack hgap (apart_cons rest (by decide))
        simpa [Cpp.commas, Expr.spelledAll, joined] using hlexes
  | cons second more ih =>
      obtain ⟨text, htext, hwrites⟩ := h first List.mem_cons_self
      obtain ⟨text', texts, htexts, hmore⟩ := ih fun a ha => h a (.tail _ ha)
      refine ⟨text, text' :: texts, ?_, fun gap rest stack hgap => ?_⟩
      · rw [Cpp.lowerExprs, htext, htexts]
        rfl
      · have hchars : (Cpp.commas (text :: text' :: texts)).toList ++ ')' :: rest = text.toList ++
            ([] ++ (Punct.comma.spelling.toList ++ ([' '] ++ ((Cpp.commas (text' :: texts)).toList ++
              ')' :: rest)))) := by
          simp [Cpp.commas, String.intercalate_cons_cons, Punct.spelling]
        rw [hchars, Expr.spelledAll, Expr.spelledAll, joined_cons_cons]
        refine (hwrites.lexes gap _ stack hgap (apart_cons _ (by decide))).trans ?_
        refine (lexes_operator (p := .comma) (by decide) nothing_isGap ?_).trans (hmore [' '] rest stack blank_isGap)
        rintro y ⟨⟩
        decide

theorem writes_call {id : String} (hid : IsName id) {args : List Expr}
    (h : ∀ a ∈ args, ∃ text, Cpp.lowerExpr a = .ok text ∧ Writes text.toList a.spelled) :
    ∃ texts, Cpp.lowerExprs args = .ok texts ∧
      Writes (id ++ "(" ++ Cpp.commas texts ++ ")").toList (.name id :: .punct parenOpen ::
        (joined (.punct comma) (Expr.spelledAll args) ++ [.punct parenClose])) := by
  have hname := writes_name hid
  have hcall {texts : List String} (hargs : ∀ rest stack,
      Lexes ((Cpp.commas texts).toList ++ ')' :: rest) stack
        (joined (.punct comma) (Expr.spelledAll args)) (')' :: rest) stack) :
      Writes (id ++ "(" ++ Cpp.commas texts ++ ")").toList (.name id :: .punct parenOpen ::
        (joined (.punct comma) (Expr.spelledAll args) ++ [.punct parenClose])) := by
    have hchars (rest : List Char) : (id ++ "(" ++ Cpp.commas texts ++ ")").toList ++ rest =
        id.toList ++ ([] ++ '(' :: ((Cpp.commas texts).toList ++ ')' :: rest)) := by
      simp
    refine ⟨?_, fun gap rest stack hgap _ => ?_⟩
    · obtain ⟨x, more, htext, hx⟩ := hname.starts
      exact ⟨x, _, by rw [← List.append_nil (String.toList _), hchars, htext]; rfl, hx⟩
    · rw [hchars]
      refine (hname.lexes gap _ stack hgap (apart_cons _ (by decide))).trans ?_
      refine (lexes_parenOpen _ stack nothing_isGap).trans ?_
      exact (hargs rest _).trans (lexes_parenClose rest stack)
  cases args with
  | nil =>
      refine ⟨[], rfl, hcall fun rest stack => ?_⟩
      simpa [Cpp.commas, Expr.spelledAll, joined] using Lexes.refl (')' :: rest) stack
  | cons first more =>
      obtain ⟨text, texts, htexts, hlexes⟩ := lowered_args h
      exact ⟨text :: texts, htexts, hcall fun rest stack => hlexes [] rest stack nothing_isGap⟩

end Lexer

open Lexer in
/-- Arithmetic has a C++ text, and it is read as the tokens of the expression. -/
theorem Arithmetic.lowered {e : Expr} (h : Arithmetic e) :
    ∃ text, Cpp.lowerExpr e = .ok text ∧ Writes text.toList e.spelled := by
  induction h with
  | name span hid => exact ⟨_, by rw [Cpp.lowerExpr], writes_name hid⟩
  | int span hn => exact ⟨_, by rw [Cpp.lowerExpr]; rfl, writes_int hn⟩
  | unary span hop _ ih =>
      obtain ⟨text, htext, hwrites⟩ := ih
      obtain ⟨sign, hsign, hwrites⟩ := writes_unary hop hwrites
      refine ⟨sign ++ text, ?_, by rwa [String.toList_append]⟩
      rw [Cpp.lowerExpr, hsign, htext]
      rfl
  | binary span hop _ _ ihl ihr =>
      obtain ⟨left, hleft, hl⟩ := ihl
      obtain ⟨right, hright, hr⟩ := ihr
      obtain ⟨text, htext, hwrites⟩ := writes_binary hop hl hr span
      refine ⟨text, ?_, hwrites⟩
      rw [Cpp.lowerExpr, hleft, hright]
      exact htext
  | call span span' hid hprint _ ih =>
      obtain ⟨texts, htexts, hwrites⟩ := writes_call hid ih
      refine ⟨_, ?_, hwrites⟩
      rw [Cpp.lowerExpr, Cpp.lowerExpr, htexts]
      show Except.ok (Cpp.callText _ texts) = _
      rw [Cpp.callText, if_neg hprint]

/-! ## From the tokens to the tree -/

omit [Text.IdentifierTable] in
theorem BinaryOp.mark_ne_assign (op : BinaryOp) : TokenKind.punct op.mark ≠ .punct assign := by
  cases op <;> decide

theorem Arithmetic.leads {e : Expr} (h : Arithmetic e) : Leads 0 e.spelled := by
  induction h with
  | name span _ => exact ⟨_, [], rfl, rfl, nofun, nofun⟩
  | int span _ => exact ⟨_, [], rfl, rfl, nofun, nofun⟩
  | @unary span op e hop _ ih => cases op <;> exact .cons rfl ih fun _ => Nat.zero_le 10
  | @binary span left op right _ _ _ ih _ =>
      exact .cons rfl (ih.append (b := 0) id op.mark_ne_assign) nofun
  | call span span' _ _ _ _ => exact ⟨_, _, rfl, rfl, nofun, nofun⟩

namespace Parser

/-- The tokens between the parentheses of an operation. -/
def inner (left : Expr) (op : BinaryOp) (right : Expr) : List TokenKind :=
  left.spelled ++ .punct op.mark :: right.spelled

/-- `nested` reads arithmetic from its tokens, and an operation up to its closing parenthesis, wherever
fewer than `n` tokens are left. -/
structure ReadsSpelled (nested : Nested) (n : Nat) : Prop where
  operand : ∀ ⦃e : Expr⦄, Arithmetic e → ∀ ⦃need : Nat⦄, need ≤ 26 →
    ∀ ⦃s : ParserState⦄ ⦃tail : List TokenKind⦄, s.kinds = e.spelled ++ tail → s.kinds.length < n →
      Stops need tail → Gives (nested need) s tail fun e' => e'.bare = e.bare
  operation : ∀ ⦃left right : Expr⦄ ⦃op : BinaryOp⦄, Arithmetic left → Arithmetic right →
    op ∉ [.matMult, .pow, .floorDiv] → ∀ ⦃s : ParserState⦄ ⦃tail : List TokenKind⦄,
      s.kinds = inner left op right ++ .punct parenClose :: tail → s.kinds.length < n →
      Gives (anyExpr nested) s (.punct parenClose :: tail) fun e' =>
        e'.bare = .binary .nowhere left.bare op right.bare

section Nested

variable {nested : Nested} {n binding : Nat} {s : ParserState} {tail : List TokenKind} {e : Expr}
  (hn : ReadsSpelled nested n)

include hn

theorem gives_spelledArgs {left : Expr} {args : List Expr} (ha : ∀ a ∈ args, Arithmetic a)
    (hs : s.kinds = .punct parenOpen :: (joined (.punct comma) (Expr.spelledAll args) ++
      .punct parenClose :: tail))
    (hlt : s.kinds.length ≤ n) :
    Gives (callTail nested left) s tail fun e' =>
      e'.bare = .call .nowhere left.bare (args.map Expr.bare) [] := by
  rw [Expr.spelledAll_eq_map] at hs
  refine (gives_call Expr.spelled (fun a => .positional a.bare) (fun a hmem => ⟨?_, ?_⟩) hs hlt).imp
    fun e' he' => ?_
  · obtain ⟨k, more, hmore, hk, -⟩ := (ha a hmem).leads
    exact ⟨k, more, hmore, hk⟩
  · intro s₁ next rest h₁ hlt₁ hnext
    have hstop : Stops 0 (next :: rest) := by
      rcases hnext with rfl | rfl <;> exact stops_of_none 0 rfl fun _ => rfl
    exact gives_positional (ha a hmem).leads h₁ hnext
      (hn.operand (ha a hmem) (Nat.zero_le 26) h₁ hlt₁ hstop)
  · rw [he', List.filterMap_map, List.filterMap_map]
    show Expr.call .nowhere left.bare (args.filterMap fun a => some a.bare)
      (args.filterMap fun _ => none) = _
    simp

/-- An operand is read from its tokens, or come to by the parentheses of a call. -/
theorem climbed_of_arithmetic (he : Arithmetic e) (hb : binding ≤ 26)
    (hs : s.kinds = e.spelled ++ tail) (hlt : s.kinds.length ≤ n) (hstop : Stops 26 tail) :
    Climbed nested binding s tail e := by
  cases he with
  | name span hid => exact .of_operand (gives_name hs)
  | int span hn => exact .of_operand (gives_constant rfl hs (hstop.mono (by decide)))
  | @unary span op e hop he =>
      have hlevel : op.level = 26 := by
        simp only [List.mem_cons, List.not_mem_nil, or_false] at hop
        rcases hop with rfl | rfl <;> rfl
      refine .of_operand (gives_operator hs fun s₁ h₁ => ?_)
      rw [hlevel]
      exact hn.operand he (Nat.le_refl 26) h₁ (length_lt_of_kinds hs h₁ hlt) hstop
  | @binary span left op right hop hl hr =>
      have hinner : s.kinds = .punct parenOpen :: (inner left op right ++ .punct parenClose :: tail) := by
        rw [hs, Expr.spelled, inner]
        simp
      have hleads : Leads 0 (inner left op right) := hl.leads.append id op.mark_ne_assign
      have hfirst (s₁ : ParserState) (h₁ : s₁.kinds = inner left op right ++ .punct parenClose :: tail) :
          s₁.kind ≠ .punct parenClose := kind_ne_of_leads hleads h₁ rfl
      refine .of_operand (gives_group hfirst hinner fun s₁ h₁ => ?_)
      exact hn.operation hl hr hop h₁ (length_lt_of_kinds hinner h₁ hlt)
  | @call span span' id args hid hprint ha =>
      have hcall : s.kinds = .name id :: .punct parenOpen ::
          (joined (.punct comma) (Expr.spelledAll args) ++ .punct parenClose :: tail) := by
        rw [hs, Expr.spelled, Expr.spelled]
        simp
      have hname : Climbed nested binding s (.punct parenOpen ::
          (joined (.punct comma) (Expr.spelledAll args) ++ .punct parenClose :: tail))
          (.name span' id) := .of_operand (gives_name hcall)
      have hop : operatorAt (.punct parenOpen :: (joined (.punct comma) (Expr.spelledAll args) ++
          .punct parenClose :: tail)) = some .call := rfl
      refine hname.operator hop (Nat.le_trans hb (by decide)) ?_ fun f s₁ h₁ hf => ?_
      · rw [List.length_cons, List.length_append, List.length_cons]
        omega
      · have hlt₁ := length_lt_of_kinds hcall h₁ hlt
        refine (gives_spelledArgs hn ha h₁ (Nat.le_of_lt hlt₁)).imp fun e' he' => ?_
        rw [he', hf, Expr.bare, Expr.bareAll_eq_map]
        rfl

theorem readsSpelled_expressionLayer : ReadsSpelled (expressionLayer nested) (n + 1) := by
  constructor
  · intro e he need hneed s tail hs hlt hstop
    exact (climbed_of_arithmetic hn he hneed hs (Nat.le_of_lt_succ hlt) (hstop.mono hneed)).gives hstop
  · intro left right op hl hr hop s tail hs hlt
    obtain ⟨level, hat, hbinding, hright⟩ := operatorAt_binary op
    rw [inner, List.append_assoc, List.cons_append] at hs
    have hlevels : op.level < 26 ∧ op.rightNeed ≤ 26 := by
      cases op <;> simp at hop <;> decide
    have hmark : Stops 26 (.punct op.mark :: (right.spelled ++ .punct parenClose :: tail)) := by
      refine ⟨by rintro k ⟨⟩; rfl, fun found hfound => ?_⟩
      cases (hat _).symm.trans hfound
      exact Nat.lt_of_le_of_lt (Nat.le_of_eq hbinding) hlevels.1
    have hleft := climbed_of_arithmetic hn hl (Nat.zero_le 26) hs (Nat.le_of_lt_succ hlt) hmark
    have hclose : Stops 0 (.punct parenClose :: tail) := stops_of_none 0 rfl fun _ => rfl
    have hwhole : Climbed nested 0 s (.punct parenClose :: tail) (.binary .nowhere left op right) := by
      have hless : (TokenKind.punct parenClose :: tail).length <
          (.punct op.mark :: (right.spelled ++ .punct parenClose :: tail)).length := by
        simp only [List.length_cons, List.length_append]
        omega
      refine hleft.operator (hat _) (Nat.zero_le _) hless fun left' s₁ h₁ hl' => ?_
      have hlt₁ : s₁.kinds.length ≤ n := by
        rw [hs, List.length_append] at hlt
        rw [h₁]
        omega
      show Gives (binaryTail nested op (Operator.binary op level).rightBinding left') s₁ _ _
      rw [hright]
      refine gives_advance h₁ fun s₂ h₂ => ?_
      refine (hn.operand hr hlevels.2 h₂ (length_lt_of_kinds h₁ h₂ hlt₁)
        (hclose.mono (Nat.zero_le _))).bind fun r s₃ h₃ hr' => gives_pure h₃ ?_
      rw [Expr.bare, Expr.bare, hl', hr']
    exact hwhole.gives hclose

end Nested

theorem readsSpelled_expressionFuel (fuel : Nat) : ReadsSpelled (expressionFuel fuel) fuel := by
  induction fuel with
  | zero =>
      exact ⟨fun _ _ _ _ _ _ _ hlt => absurd hlt (Nat.not_lt_zero _),
        fun _ _ _ _ _ _ _ _ _ hlt => absurd hlt (Nat.not_lt_zero _)⟩
  | succ fuel ih => exact readsSpelled_expressionLayer ih

end Parser

/-- The C++ text of arithmetic is read back as the expression it was made from, up to spans, and nothing
but the end of the line is left. -/
theorem parse_lowered {e : Expr} (he : Arithmetic e) :
    ∃ text tokens e' s, Cpp.lowerExpr e = .ok text ∧ tokenize text = .ok tokens ∧
      parseExpression tokens = .ok e' ∧ e'.bare = e.bare ∧
      Parser.expression Precedence.lowest.binding { rest := tokens } = (some e', s) ∧
      s.kinds = [.newline, .endOfFile] := by
  obtain ⟨text, htext, hwrites⟩ := he.lowered
  obtain ⟨x, more, hchars, hx⟩ := hwrites.starts
  have hlexes := hwrites.lexes [] [] [] nofun nofun
  rw [List.nil_append, List.append_nil] at hlexes
  have hindented : Lexer.isIndentation x = false := by
    simp [Lexer.notOperand] at hx
    simp [Lexer.isIndentation, hx]
  have hcode : x ∉ ['#', '\n', '\r'] := by
    simp [Lexer.notOperand] at hx
    simp [hx]
  have hsome : e.spelled ≠ [] := by
    obtain ⟨k, more, hspelled, -⟩ := he.leads
    rw [hspelled]
    exact List.cons_ne_nil k more
  obtain ⟨tokens, htokens, hkinds⟩ := tokenize_lexed hchars hindented hcode hlexes hsome
  have hs : ParserState.kinds { rest := tokens } = e.spelled ++ [.newline, .endOfFile] := hkinds
  have hlt : (ParserState.kinds { rest := tokens }).length < tokens.length + 1 := by
    rw [ParserState.kinds_length]
    exact Nat.lt_succ_self _
  have hend : Stops 0 [.newline, .endOfFile] := Parser.stops_of_none 0 rfl fun _ => rfl
  obtain ⟨e', s, hrun, hleft, hbare⟩ :=
    (Parser.readsSpelled_expressionFuel _).operand he (Nat.zero_le 26) hs hlt hend
  exact ⟨text, tokens, e', s, htext, htokens, Parser.parseExpression_of_run hrun, hbare, hrun, hleft⟩

end

/-- `-((-a) * f(x, --1) << b)` -/
def nestedSigns : Expr :=
  .unary .nowhere .minus (.binary .nowhere (.binary .nowhere
    (.unary .nowhere .minus (.name .nowhere "a")) .mult (.call .nowhere (.name .nowhere "f")
      [.name .nowhere "x", .unary .nowhere .minus (.unary .nowhere .minus
        (.constant .nowhere (.int 1)))] [])) .shiftLeft (.name .nowhere "b"))

theorem parse_lowered_nestedSigns :
    Arithmetic nestedSigns ∧ ∃ text tokens e' s, Cpp.lowerExpr nestedSigns = .ok text ∧
      tokenize text = .ok tokens ∧ parseExpression tokens = .ok e' ∧
      e'.bare = nestedSigns.bare ∧
      Parser.expression Precedence.lowest.binding { rest := tokens } = (some e', s) ∧
      s.kinds = [.newline, .endOfFile] := by
  have hname (id : String) (first : Char) (hid : id.toList = [first])
      (hfirst : Text.isIdentifierStart first = true) (hword : Keyword.ofSpelling? id = none) :
      IsName id := ⟨⟨first, [], hid, hfirst, nofun⟩, hword⟩
  have ha := hname "a" 'a' rfl (by decide) (by decide)
  have hb := hname "b" 'b' rfl (by decide) (by decide)
  have hf := hname "f" 'f' rfl (by decide) (by decide)
  have hx := hname "x" 'x' rfl (by decide) (by decide)
  have hargs : ∀ a ∈ [.name .nowhere "x", .unary .nowhere .minus (.unary .nowhere .minus
      (.constant .nowhere (.int 1)))], Arithmetic a := by
    intro a hmem
    simp only [List.mem_cons, List.not_mem_nil, or_false] at hmem
    rcases hmem with rfl | rfl
    · exact .name _ hx
    · exact .unary _ (by decide) (.unary _ (by decide) (.int _ (by decide)))
  have he : Arithmetic nestedSigns := by
    refine .unary _ (by decide) (.binary _ (by decide) (.binary _ (by decide) ?_ ?_) (.name _ hb))
    · exact .unary _ (by decide) (.name _ ha)
    · exact .call _ _ hf (by decide) hargs
  exact ⟨he, parse_lowered he⟩

end MysToCpp
