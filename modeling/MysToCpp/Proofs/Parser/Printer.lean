/-
# Printing expressions

`Expr.print` spells an expression in tokens with no more parentheses than it takes.  Every expression
has a level, every place in another expression needs one, and an expression is put in parentheses where
its level is below what its place needs.  The printer covers the expressions that `Plain` admits.

What stands behind an expression must not be drawn into it.  `Expr.edge` is the level that an operator
behind the expression may not reach: it belongs to the part at the right end, which would take the
operator.  The tables of levels are such that no operator of a printed expression reaches the edge of
what stands before it (`lt_edge_of_level`, `le_edge_of_level`).
-/
import MysToCpp.Parser.Expression

namespace MysToCpp

open Keyword Punct

/-! ## The spelling of operators -/

def BinaryOp.mark : BinaryOp → Punct
  | add => plus
  | sub => minus
  | mult => star
  | matMult => atSign
  | div => slash
  | mod => percent
  | pow => doubleStar
  | shiftLeft => Punct.shiftLeft
  | shiftRight => Punct.shiftRight
  | bitOr => pipe
  | bitXor => caret
  | bitAnd => amp
  | floorDiv => doubleSlash

def UnaryOp.token : UnaryOp → TokenKind
  | invert => tilde
  | not => notKw
  | plus => Punct.plus
  | minus => Punct.minus

/-- The tokens of a comparison; two of them have two. -/
def CompareOp.tokens : CompareOp → List TokenKind
  | eq => [eqEq]
  | notEq => [Punct.notEq]
  | less => [Punct.less]
  | lessEq => [Punct.lessEq]
  | greater => [Punct.greater]
  | greaterEq => [Punct.greaterEq]
  | is => [isKw]
  | isNot => [isKw, notKw]
  | isIn => [inKw]
  | notIn => [notKw, inKw]

/-- The token of a constant that has one and is the same however it was written. -/
def Constant.token? : Constant → Option TokenKind
  | none => some noneKw
  | bool true => some trueKw
  | bool false => some falseKw
  | int n => some (.int n)
  | text s => some (.text s)
  | ellipsis => some Punct.ellipsis
  | float _ | bytes _ => Option.none

/-! ## Levels -/

def BinaryOp.level : BinaryOp → Nat
  | bitOr => 14
  | bitXor => 16
  | bitAnd => 18
  | shiftLeft | shiftRight => 20
  | add | sub => 22
  | mult | matMult | div | mod | floorDiv => 24
  | pow => 28

/-- What an operator needs on its left: its own level if it groups to the left. -/
def BinaryOp.leftNeed : BinaryOp → Nat
  | pow => 29
  | op => op.level

/-- What an operator needs on its right; `**` takes a sign there. -/
def BinaryOp.rightNeed : BinaryOp → Nat
  | pow => 26
  | op => op.level + 1

def UnaryOp.level : UnaryOp → Nat
  | not => 10
  | invert | plus | minus => 26

def BoolOp.level : BoolOp → Nat
  | or => 6
  | and => 8

/-- How tightly the parts of an expression hold together. -/
def Expr.level : Expr → Nat
  | .named .. => 2
  | .conditional .. | .lambda .. => 4
  | .boolOp _ op _ => op.level
  | .unary _ op _ => op.level
  | .compare .. => 12
  | .binary _ _ op _ => op.level
  | .await .. => 30
  | _ => 32

/-- An operator of this level or a higher one behind the expression would be drawn into it. -/
def Expr.edge : Expr → Nat
  | .binary _ _ op _ => op.rightNeed
  | .await .. => 31
  | .named .. => 2
  | .conditional .. | .lambda .. => 4
  | .boolOp _ op _ => op.level
  | .unary _ op _ => op.level
  | .compare .. => 12
  | _ => 33

/-! ## Printing -/

/-- Puts tokens of a level in parentheses where a higher one is needed. -/
def wrap (need level : Nat) (tokens : List TokenKind) : List TokenKind :=
  if level < need then .punct parenOpen :: (tokens ++ [.punct parenClose]) else tokens

/-- Puts a token between lists of tokens. -/
def joined (between : TokenKind) : List (List TokenKind) → List TokenKind
  | [] => []
  | first :: more => first ++ more.flatMap (between :: ·)

mutual

/-- The tokens of an expression. -/
def Expr.print : Expr → List TokenKind
  | .name _ id => [.name id]
  | .constant _ value => value.token?.toList
  | .unary _ op e => op.token :: wrap op.level e.level e.print
  | .binary _ left op right =>
      wrap op.leftNeed left.level left.print ++
        .punct op.mark :: wrap op.rightNeed right.level right.print
  | .boolOp _ op values =>
      joined (.keyword (Parser.boolWord op)) (Expr.printAll (op.level + 1) values)
  | .compare _ left ops comparators =>
      wrap 13 left.level left.print ++
        (List.zipWith (·.tokens ++ ·) ops (Expr.printAll 13 comparators)).flatten
  | .conditional _ test body orelse =>
      wrap 6 body.level body.print ++ .keyword ifKw :: (wrap 6 test.level test.print ++
        .keyword elseKw :: wrap 4 orelse.level orelse.print)
  | .lambda _ _ body => .keyword lambdaKw :: .punct colon :: wrap 4 body.level body.print
  | .named _ target value => target.print ++ .punct walrus :: wrap 2 value.level value.print
  | .await _ value => .keyword awaitKw :: wrap 31 value.level value.print
  | .member _ value attr => wrap 32 value.level value.print ++ [.punct dot, .name attr.name]
  | .subscript _ value index =>
      wrap 32 value.level value.print ++ .punct squareOpen :: (index.print ++ [.punct squareClose])
  | .call _ func args keywords =>
      wrap 32 func.level func.print ++ .punct parenOpen ::
        (joined (.punct comma) (Expr.printAll 0 args ++ KeywordArg.printAll keywords) ++
          [.punct parenClose])
  | .tuple _ elements =>
      -- a comma behind the only element tells a tuple from parentheses
      .punct parenOpen :: (joined (.punct comma) (Expr.printAll 0 elements) ++
        if elements.length = 1 then [.punct comma, .punct parenClose] else [.punct parenClose])
  | .list _ elements =>
      .punct squareOpen :: (joined (.punct comma) (Expr.printAll 0 elements) ++
        [.punct squareClose])
  | .set _ elements =>
      .punct braceOpen :: (joined (.punct comma) (Expr.printAll 0 elements) ++ [.punct braceClose])
  | .dict _ keys values =>
      .punct braceOpen :: (joined (.punct comma) (List.zipWith (fun k v => k ++ .punct colon :: v)
        (Expr.printAll 0 keys) (Expr.printAll 0 values)) ++ [.punct braceClose])
  | _ => []

def Expr.printAll (need : Nat) : List Expr → List (List TokenKind)
  | [] => []
  | e :: rest => wrap need e.level e.print :: Expr.printAll need rest

def KeywordArg.print : KeywordArg → List TokenKind
  | ⟨name, value, _⟩ =>
      .name ((name.map Ident.name).getD "") :: .punct assign :: value.print

def KeywordArg.printAll : List KeywordArg → List (List TokenKind)
  | [] => []
  | k :: rest => k.print :: KeywordArg.printAll rest

end

/-- The tokens of an expression in a place that needs a level. -/
def Expr.printAt (need : Nat) (e : Expr) : List TokenKind := wrap need e.level e.print

/-- The expressions that are printed: those whose tokens determine them. -/
inductive Plain : Expr → Prop
  | name (span id) : Plain (.name span id)
  | constant (span) {value : Constant} : value.token?.isSome → Plain (.constant span value)
  | unary (span op) {e} : Plain e → Plain (.unary span op e)
  | binary (span op) {left right} : Plain left → Plain right → Plain (.binary span left op right)
  | boolOp (span op) {values} : 2 ≤ values.length → (∀ v ∈ values, Plain v) →
      Plain (.boolOp span op values)
  | compare (span) {left ops comparators} : ops ≠ [] → ops.length = comparators.length →
      Plain left → (∀ c ∈ comparators, Plain c) → Plain (.compare span left ops comparators)
  | conditional (span) {test body orelse} : Plain test → Plain body → Plain orelse →
      Plain (.conditional span test body orelse)
  | lambda (span) {body} : Plain body → Plain (.lambda span [] body)
  | named (span span' id) {value} : Plain value → Plain (.named span (.name span' id) value)
  | await (span) {value} : Plain value → Plain (.await span value)
  | member (span attr) {value} : Plain value → Plain (.member span value attr)
  | subscript (span) {value index} : Plain value → Plain index → Plain (.subscript span value index)
  | call (span) {func args keywords} : Plain func → (∀ a ∈ args, Plain a) →
      (∀ k ∈ keywords, k.name.isSome) → (∀ k ∈ keywords, Plain k.value) →
      Plain (.call span func args keywords)
  | tuple (span) {elements} : (∀ e ∈ elements, Plain e) → Plain (.tuple span elements)
  | list (span) {elements} : (∀ e ∈ elements, Plain e) → Plain (.list span elements)
  | set (span) {elements} : elements ≠ [] → (∀ e ∈ elements, Plain e) →
      Plain (.set span elements)
  | dict (span) {keys values} : keys.length = values.length → (∀ k ∈ keys, Plain k) →
      (∀ v ∈ values, Plain v) → Plain (.dict span keys values)

theorem Expr.printAll_eq_map (need : Nat) (es : List Expr) :
    Expr.printAll need es = es.map (Expr.printAt need) := by
  induction es with
  | nil => rfl
  | cons e es ih => rw [Expr.printAll, ih, List.map_cons, Expr.printAt]

theorem KeywordArg.printAll_eq_map (ks : List KeywordArg) :
    KeywordArg.printAll ks = ks.map KeywordArg.print := by
  induction ks with
  | nil => rfl
  | cons k ks ih => rw [KeywordArg.printAll, ih, List.map_cons]

/-! ## What stands behind an expression -/

/-- The edge of an expression in its place; parentheses keep everything out. -/
def Expr.edgeAt (need : Nat) (e : Expr) : Nat := if e.level < need then 33 else e.edge

/-- String literals: two of them side by side are one. -/
def TokenKind.isString : TokenKind → Bool
  | .text _ | .bytes _ | .formatted _ => true
  | _ => false

/-- Nothing at the front of `tail` goes on with an expression in a place that asks for `binding`. -/
def Stops (binding : Nat) (tail : List TokenKind) : Prop :=
  (∀ k ∈ tail.head?, k.isString = false) ∧
  ∀ op, Operator.of? (tail.headD .endOfFile) (tail.tail.headD .endOfFile) = some op →
    op.level.binding < binding

theorem Stops.mono {a b : Nat} {tail : List TokenKind} (h : Stops a tail) (hab : a ≤ b) :
    Stops b tail :=
  ⟨h.1, fun op hop => Nat.lt_of_lt_of_le (h.2 op hop) hab⟩

theorem le_edge_of_level {e : Expr} {n : Nat} (h : n ≤ e.level) (hn : n ∉ [27, 28]) :
    n ≤ e.edge := by
  simp only [List.mem_cons, List.not_mem_nil, or_false, not_or] at hn
  cases e with
  | binary _ _ op _ =>
      cases op <;> simp only [Expr.level, Expr.edge, BinaryOp.level, BinaryOp.rightNeed] at h ⊢ <;>
        omega
  | _ => simp only [Expr.level, Expr.edge] at h ⊢; omega

theorem lt_edge_of_level {e : Expr} {n : Nat} (h : n ≤ e.level)
    (hn : n ∉ [2, 4, 6, 8, 10, 12, 26, 27, 28]) : n < e.edge := by
  simp only [List.mem_cons, List.not_mem_nil, or_false, not_or] at hn
  cases e with
  | binary _ _ op _ =>
      cases op <;> simp only [Expr.level, Expr.edge, BinaryOp.level, BinaryOp.rightNeed] at h ⊢ <;>
        omega
  | boolOp _ op _ =>
      cases op <;> simp only [Expr.level, Expr.edge, BoolOp.level] at h ⊢ <;> omega
  | unary _ op _ =>
      cases op <;> simp only [Expr.level, Expr.edge, UnaryOp.level] at h ⊢ <;> omega
  | _ => simp only [Expr.level, Expr.edge] at h ⊢; omega

theorem le_edgeAt {e : Expr} {n : Nat} (hn : n ≤ 32) (hne : n ∉ [27, 28]) : n ≤ e.edgeAt n := by
  unfold Expr.edgeAt
  split
  · omega
  · exact le_edge_of_level (by omega) hne

/-- An operator is not drawn into what stands on its left. -/
theorem lt_edgeAt {e : Expr} {t n : Nat} (ht : t ≤ n) (hn : t ≤ 32)
    (hne : t ∉ [2, 4, 6, 8, 10, 12, 26, 27, 28]) : t < e.edgeAt n := by
  unfold Expr.edgeAt
  split
  · omega
  · exact lt_edge_of_level (by omega) hne

/-! ## What an expression starts with -/

/-- The tokens start as an expression in a place of this level does: with a token that starts
expressions, which is `not` only in a place for it, and not with an argument's name. -/
def Leads (need : Nat) (tokens : List TokenKind) : Prop :=
  ∃ k more, tokens = k :: more ∧ k.startsExpression = true ∧
    more.head? ≠ some (.punct assign) ∧ (k = .keyword notKw → need ≤ 10)

theorem Leads.append {a b : Nat} {tokens rest : List TokenKind} {next : TokenKind}
    (h : Leads a tokens) (hab : a ≤ 10 → b ≤ 10) (hnext : next ≠ .punct assign) :
    Leads b (tokens ++ next :: rest) := by
  obtain ⟨k, more, rfl, hk, hmore, hnot⟩ := h
  refine ⟨k, more ++ next :: rest, rfl, hk, ?_, fun he => hab (hnot he)⟩
  cases more with
  | nil => simpa using hnext
  | cons m ms => simpa using hmore

theorem Leads.wrap {e : Expr} (h : Leads e.level e.print) (need : Nat) :
    Leads need (e.printAt need) := by
  obtain ⟨k, more, he, hk, hmore, hnot⟩ := h
  unfold Expr.printAt MysToCpp.wrap
  split
  · refine ⟨_, _, rfl, rfl, ?_, nofun⟩
    rw [he]
    intro h
    cases h
    cases hk
  · exact ⟨k, more, he, hk, hmore, fun h => by have := hnot h; omega⟩

theorem Leads.head {need : Nat} {tokens : List TokenKind} (h : Leads need tokens)
    (tail : List TokenKind) : ∃ k more, tokens ++ tail = k :: more ∧ k.startsExpression = true ∧
      (k = .keyword notKw → need ≤ 10) := by
  obtain ⟨k, more, rfl, hk, -, hnot⟩ := h
  exact ⟨k, more ++ tail, rfl, hk, hnot⟩

theorem Leads.cons {a b : Nat} {k : TokenKind} {tokens : List TokenKind}
    (hk : k.startsExpression = true) (h : Leads a tokens) (hnot : k = .keyword notKw → b ≤ 10) :
    Leads b (k :: tokens) := by
  obtain ⟨k', more, rfl, hk', -, -⟩ := h
  refine ⟨k, _, rfl, hk, ?_, hnot⟩
  intro h
  cases h
  cases hk'

theorem leads_joined {a b : Nat} {between : TokenKind} {parts : List (List TokenKind)}
    (h : ∀ first ∈ parts.head?, Leads a first) (hab : a ≤ 10 → b ≤ 10)
    (hbetween : between ≠ .punct assign) :
    joined between parts = [] ∨ Leads b (joined between parts) := by
  match parts, h with
  | [], _ => exact .inl rfl
  | [first], h =>
      obtain ⟨k, rest, rfl, hk, hrest, hnot⟩ := h first rfl
      exact .inr ⟨k, rest, by simp [joined], hk, hrest, fun he => hab (hnot he)⟩
  | first :: m :: ms, h => exact .inr ((h first rfl).append hab hbetween)

theorem leads_bracket {a b : Nat} {bracket close : TokenKind} {inner rest : List TokenKind}
    (hk : bracket.startsExpression = true) (hnot : bracket ≠ .keyword notKw)
    (hinner : inner = [] ∨ Leads a inner) (hclose : close ≠ .punct assign) :
    Leads b (bracket :: (inner ++ close :: rest)) := by
  rcases hinner with rfl | h
  · exact ⟨bracket, close :: rest, rfl, hk, by simpa using hclose, fun he => absurd he hnot⟩
  · exact .cons hk (h.append id hclose) fun he => absurd he hnot

theorem leads_printAll (need : Nat) {es : List Expr} (h : ∀ e ∈ es, Leads e.level e.print) :
    ∀ first ∈ (Expr.printAll need es).head?, Leads need first := by
  intro first hfirst
  cases es with
  | nil => cases hfirst
  | cons e es =>
      cases hfirst
      exact (h e List.mem_cons_self).wrap need

theorem Plain.leads {e : Expr} (h : Plain e) : Leads e.level e.print := by
  have hcomma : (TokenKind.punct comma) ≠ .punct assign := by decide
  induction h with
  | name span id => exact ⟨_, [], rfl, rfl, nofun, nofun⟩
  | constant span hc =>
      rename_i value
      cases value with
      | bool b => cases b <;> exact ⟨_, [], rfl, rfl, nofun, nofun⟩
      | float x | bytes x => cases hc
      | _ => exact ⟨_, [], rfl, rfl, nofun, nofun⟩
  | unary span op _ ih =>
      cases op with
      | not => exact .cons rfl (ih.wrap 10) fun _ => Nat.le_refl 10
      | _ => exact .cons rfl (ih.wrap 26) nofun
  | binary span op _ _ ihl _ =>
      refine (ihl.wrap op.leftNeed).append (fun hle => ?_) (by cases op <;> decide)
      cases op <;> exact absurd hle (by decide)
  | @boolOp span op values hlen _ ih =>
      have hab : op.level + 1 ≤ 10 → (Expr.boolOp span op values).level ≤ 10 := by
        intro hle
        exact Nat.le_of_succ_le hle
      have hword : TokenKind.keyword (Parser.boolWord op) ≠ .punct assign := nofun
      rcases leads_joined (leads_printAll (op.level + 1) ih) hab hword with hnil | h
      · cases values with
        | nil => cases hlen
        | cons v vs =>
            obtain ⟨k, more, hk, -⟩ := (ih v List.mem_cons_self).wrap (op.level + 1)
            change v.printAt (op.level + 1) ++ _ = [] at hnil
            rw [hk] at hnil
            cases hnil
      · exact h
  | @compare span left ops comparators hne hlen _ _ ihl _ =>
      match ops, comparators with
      | [], _ => exact absurd rfl hne
      | _ :: _, [] => cases hlen
      | op :: ops, c :: cs =>
          cases op <;> exact (ihl.wrap 13).append (fun hle => absurd hle (by decide)) nofun
  | conditional span _ _ _ _ ih _ => exact (ih.wrap 6).append (fun _ => show 4 ≤ 10 by decide) nofun
  | lambda span _ _ => exact ⟨_, _, rfl, rfl, nofun, nofun⟩
  | named span span' id _ _ => exact ⟨_, _, rfl, rfl, nofun, nofun⟩
  | await span _ ih => exact .cons rfl (ih.wrap 31) nofun
  | member span attr _ ih => exact (ih.wrap 32).append (fun hle => absurd hle (by decide)) nofun
  | subscript span _ _ ih _ =>
      exact (ih.wrap 32).append (fun hle => absurd hle (by decide)) nofun
  | call span _ _ _ _ ih _ _ =>
      exact (ih.wrap 32).append (fun hle => absurd hle (by decide)) nofun
  | @tuple span elements _ ih =>
      have hinner := leads_joined (leads_printAll 0 ih) (b := 0) id hcomma
      simp only [Expr.print]
      split
      · exact leads_bracket rfl nofun hinner hcomma
      · exact leads_bracket rfl nofun hinner nofun
  | list span _ ih =>
      exact leads_bracket rfl nofun (leads_joined (leads_printAll 0 ih) (b := 0) id hcomma)
        nofun
  | set span _ _ ih =>
      exact leads_bracket rfl nofun (leads_joined (leads_printAll 0 ih) (b := 0) id hcomma)
        nofun
  | @dict span keys values hlen _ _ ihk _ =>
      refine leads_bracket (a := 0) rfl nofun (leads_joined (a := 0) ?_ id hcomma) nofun
      intro first hfirst
      match keys, values with
      | [], _ => cases hfirst
      | _ :: _, [] => cases hlen
      | k :: ks, v :: vs =>
          cases hfirst
          exact ((ihk k List.mem_cons_self).wrap 0).append id nofun

/-- An expression in its place starts as one. -/
theorem Plain.leadsAt {e : Expr} (h : Plain e) (need : Nat) : Leads need (e.printAt need) :=
  h.leads.wrap need

end MysToCpp
