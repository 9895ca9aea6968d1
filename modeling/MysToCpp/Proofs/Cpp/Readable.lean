/-
# What the text of an expression says about its tree

Operations of numbers and of truth values are written in parentheses, but signs, negations and
comparisons are not.  So the C++ text of an expression determines the tree up to the places where a
comparison is not held together: `!a == b` stands for `not (a == b)` and for `(not a) == b`.

A `Chain` is what the text does determine, operands with comparisons between them.  `Chain.text_inj`
says that chains are read in one way only, by an induction over the chain that keeps track of what
stands behind it; `lowerExpr_readable` carries this over to expressions.  Where no comparison stands
directly under a sign or under another comparison, the chain determines the tree.
-/
import MysToCpp.Cpp.Expr
import MysToCpp.Proofs.Token.Spelling
import MysToCpp.Proofs.Tree.Bare
import MysToCpp.Text.Unicode

namespace MysToCpp.Cpp

open Lexer (Apart IsIdentifier apart_cons)
open Text (isIdentifierStart isIdentifierChar)

/-! ## Chains -/

/-- The operators that are written in parentheses with their operands. -/
inductive GroupOp where
  | number (op : BinaryOp)
  | truth (op : BoolOp)
  deriving DecidableEq

mutual

/-- What holds together in a text: a name, an operator in front of an operand, or an operation in
parentheses. -/
inductive Operand where
  | name (id : String)
  | signed (op : UnaryOp) (operand : Operand)
  | group (left : Chain) (op : GroupOp) (right : Chain)

/-- Operands with comparisons between them. -/
inductive Chain where
  | one (operand : Operand)
  | compare (operand : Operand) (op : CompareOp) (more : Chain)

end

/-- The operators of numbers that have a C++ mark of their own. -/
def numberOps : List BinaryOp :=
  [.add, .sub, .mult, .div, .mod, .shiftLeft, .shiftRight, .bitOr, .bitXor, .bitAnd]

/-- The comparisons that have a C++ mark of their own. -/
def orderOps : List CompareOp := [.eq, .notEq, .less, .lessEq, .greater, .greaterEq]

/-- All operators that are written in parentheses. -/
def groupOps : List GroupOp := numberOps.map .number ++ [.truth .and, .truth .or]

def GroupOp.mark : GroupOp → List Char
  | number op => ((binaryToken? op).getD "").toList
  | truth op => (boolToken op).toList

def compareMark (op : CompareOp) : List Char := ((compareToken? op).getD "").toList

def signMark (op : UnaryOp) : List Char := ((unaryToken? op).getD "").toList

/-- A mark between two operands. -/
def spaced (mark : List Char) : List Char := ' ' :: (mark ++ [' '])

mutual

def Operand.text : Operand → List Char
  | .name id => id.toList
  | .signed op operand => signMark op ++ operand.text
  | .group left op right => '(' :: (left.text ++ (spaced op.mark ++ (right.text ++ [')'])))

def Chain.text : Chain → List Char
  | .one operand => operand.text
  | .compare operand op more => operand.text ++ (spaced (compareMark op) ++ more.text)

end

mutual

/-- The names of an operand are identifiers, and its operators have marks of their own. -/
def Operand.Valid [Text.IdentifierTable] : Operand → Prop
  | .name id => IsIdentifier id
  | .signed op operand => op ∈ [.not, .minus] ∧ operand.Valid
  | .group left op right => left.Valid ∧ op ∈ groupOps ∧ right.Valid

def Chain.Valid [Text.IdentifierTable] : Chain → Prop
  | .one operand => operand.Valid
  | .compare operand op more => operand.Valid ∧ op ∈ orderOps ∧ more.Valid

end

/-! ## Chains are read in one way -/

/-- Two runs of characters that end where the others begin are the same. -/
theorem append_inj_of_run {p : Char → Bool} {a b r s : List Char} (ha : ∀ x ∈ a, p x = true)
    (hb : ∀ x ∈ b, p x = true) (hr : ∀ x ∈ r.head?, p x = false) (hs : ∀ x ∈ s.head?, p x = false)
    (h : a ++ r = b ++ s) : a = b ∧ r = s := by
  have hab : a = b := by rw [← (run_of_append ha hr).1, h, (run_of_append hb hs).1]
  subst hab
  exact ⟨rfl, List.append_cancel_left h⟩

theorem spaced_inj {a b r s : List Char} (ha : ' ' ∉ a) (hb : ' ' ∉ b)
    (h : spaced a ++ r = spaced b ++ s) : a = b ∧ r = s := by
  have hne {cs : List Char} (hcs : ' ' ∉ cs) : ∀ x ∈ cs, (x != ' ') = true := by
    intro x hx
    have hne : x ≠ ' ' := fun heq => hcs (heq ▸ hx)
    simpa using hne
  have hblank (cs : List Char) : ∀ x ∈ (' ' :: cs).head?, (x != ' ') = false := by
    rintro x ⟨⟩
    rfl
  simp only [spaced, List.cons_append, List.append_assoc, List.cons.injEq, true_and,
    List.nil_append] at h
  obtain ⟨hab, hrs⟩ := append_inj_of_run (hne ha) (hne hb) (hblank r) (hblank s) h
  exact ⟨hab, (List.cons.inj hrs).2⟩

theorem groupMark_inj : ∀ a ∈ groupOps, ∀ b ∈ groupOps, a.mark = b.mark → a = b := by decide

theorem compareMark_inj : ∀ a ∈ orderOps, ∀ b ∈ orderOps, compareMark a = compareMark b → a = b := by
  decide

theorem blank_not_mem_mark :
    (∀ op ∈ groupOps, ' ' ∉ op.mark) ∧ ∀ op ∈ orderOps, ' ' ∉ compareMark op := by decide

theorem groupMark_ne_compareMark : ∀ a ∈ groupOps, ∀ b ∈ orderOps, a.mark ≠ compareMark b := by
  decide

/-- Nothing that goes on with a chain stands in front. -/
def Closed (rest : List Char) : Prop :=
  rest = [] ∨ (∃ more, rest = ')' :: more) ∨ ∃ op ∈ groupOps, ∃ more, rest = spaced op.mark ++ more

theorem Closed.apart [Text.IdentifierTable] {rest : List Char} (h : Closed rest) : Apart rest := by
  rcases h with rfl | ⟨more, rfl⟩ | ⟨op, _, more, rfl⟩
  · exact nofun
  · exact apart_cons more (by decide)
  · exact apart_cons _ (by decide)

theorem Closed.ne_compare {op : CompareOp} (hop : op ∈ orderOps) (more : List Char) :
    ¬ Closed (spaced (compareMark op) ++ more) := by
  rintro (h | ⟨more', h⟩ | ⟨op', hop', more', h⟩)
  · cases h
  · cases h
  · obtain ⟨hmark, -⟩ := spaced_inj (blank_not_mem_mark.2 op hop) (blank_not_mem_mark.1 op' hop') h
    exact groupMark_ne_compareMark op' hop' op hop hmark.symm

section

variable [Text.IdentifierTable]

/-- The characters that an operand of this shape can start with. -/
def Operand.Starts : Operand → Char → Prop
  | .name _, x => isIdentifierStart x = true
  | .signed op _, x => (op = .not ∧ x = '!') ∨ (op = .minus ∧ x = '-')
  | .group .., x => x = '('

theorem Operand.Valid.starts {a : Operand} (h : a.Valid) :
    ∃ x more, a.text = x :: more ∧ a.Starts x := by
  cases a with
  | name id =>
      obtain ⟨first, more, hid, hfirst, -⟩ := h
      exact ⟨first, more, hid, hfirst⟩
  | signed op operand =>
      obtain ⟨hop, -⟩ := h
      simp only [List.mem_cons, List.not_mem_nil, or_false] at hop
      rcases hop with rfl | rfl
      · exact ⟨'!', operand.text, rfl, .inl ⟨rfl, rfl⟩⟩
      · exact ⟨'-', operand.text, rfl, .inr ⟨rfl, rfl⟩⟩
  | group left op right => exact ⟨'(', _, rfl, rfl⟩

/-- Operands of the same shape, with the same operator in front. -/
inductive Operand.Alike : Operand → Operand → Prop
  | name (id id' : String) : Alike (.name id) (.name id')
  | signed (op : UnaryOp) (a b : Operand) : Alike (.signed op a) (.signed op b)
  | group (left left' op op' right right') : Alike (.group left op right) (.group left' op' right')

/-- What an operand starts with tells its shape. -/
theorem Operand.alike {a b : Operand} {r s : List Char} (ha : a.Valid) (hb : b.Valid)
    (h : a.text ++ r = b.text ++ s) : a.Alike b := by
  obtain ⟨x, more, hax, hxa⟩ := ha.starts
  obtain ⟨y, more', hby, hxb⟩ := hb.starts
  rw [hax, hby] at h
  obtain rfl : x = y := (List.cons.inj h).1
  have hmarks : isIdentifierStart '!' = false ∧ isIdentifierStart '-' = false ∧
      isIdentifierStart '(' = false := ⟨rfl, rfl, rfl⟩
  cases a with
  | name id => cases b with
    | name id' => exact .name id id'
    | _ => simp only [Starts] at hxa hxb; grind
  | signed op a => cases b with
    | signed op' b =>
        obtain rfl : op = op' := by simp only [Starts] at hxa hxb; grind
        exact .signed op a b
    | _ => simp only [Starts] at hxa hxb; grind
  | group left op right => cases b with
    | group left' op' right' => exact .group ..
    | _ => simp only [Starts] at hxa hxb; grind

mutual

/-- An operand is read in one way, up to what cannot go on with it. -/
theorem Operand.text_inj (a : Operand) {b : Operand} {r s : List Char} (ha : a.Valid) (hb : b.Valid)
    (hr : Apart r) (hs : Apart s) (h : a.text ++ r = b.text ++ s) : a = b ∧ r = s := by
  cases a.alike ha hb h with
  | name id id' =>
      obtain ⟨hid, hrest⟩ := append_inj_of_run (IsIdentifier.chars ha) (IsIdentifier.chars hb)
        (fun x hx => (hr x hx).1) (fun x hx => (hs x hx).1) h
      exact ⟨by rw [String.toList_inj.mp hid], hrest⟩
  | signed op a b =>
      rw [Operand.text, Operand.text, List.append_assoc, List.append_assoc] at h
      obtain ⟨hab, hrest⟩ := a.text_inj ha.2 hb.2 hr hs (List.append_cancel_left h)
      exact ⟨by rw [hab], hrest⟩
  | group left left' op op' right right' =>
      obtain ⟨hl, hop, hr⟩ := ha
      obtain ⟨hl', hop', hr'⟩ := hb
      simp only [Operand.text, List.cons_append, List.append_assoc, List.cons.injEq, true_and,
        List.nil_append] at h
      obtain ⟨hleft, h⟩ := left.text_inj hl hl' (.inr (.inr ⟨op, hop, _, rfl⟩))
        (.inr (.inr ⟨op', hop', _, rfl⟩)) h
      obtain ⟨hmark, h⟩ := spaced_inj (blank_not_mem_mark.1 op hop) (blank_not_mem_mark.1 op' hop') h
      obtain ⟨hright, h⟩ := right.text_inj hr hr' (.inr (.inl ⟨_, rfl⟩)) (.inr (.inl ⟨_, rfl⟩)) h
      rw [hleft, groupMark_inj op hop op' hop' hmark, hright]
      exact ⟨rfl, (List.cons.inj h).2⟩

theorem Chain.text_inj (a : Chain) {b : Chain} {r s : List Char} (ha : a.Valid) (hb : b.Valid)
    (hr : Closed r) (hs : Closed s) (h : a.text ++ r = b.text ++ s) : a = b ∧ r = s := by
  have hapart (op : CompareOp) (more : List Char) : Apart (spaced (compareMark op) ++ more) :=
    apart_cons _ (by decide)
  cases a with
  | one a => cases b with
    | one b =>
        obtain ⟨hab, hrest⟩ := a.text_inj ha hb hr.apart hs.apart h
        exact ⟨by rw [hab], hrest⟩
    | compare b op more =>
        rw [Chain.text, Chain.text, List.append_assoc, List.append_assoc] at h
        obtain ⟨-, hrest⟩ := a.text_inj ha hb.1 hr.apart (hapart op _) h
        exact absurd (hrest ▸ hr) (Closed.ne_compare hb.2.1 _)
  | compare a op more => cases b with
    | one b =>
        rw [Chain.text, Chain.text, List.append_assoc, List.append_assoc] at h
        obtain ⟨-, hrest⟩ := a.text_inj ha.1 hb (hapart op _) hs.apart h
        exact absurd (hrest ▸ hs) (Closed.ne_compare ha.2.1 _)
    | compare b op' more' =>
        obtain ⟨ha, hop, hmore⟩ := ha
        obtain ⟨hb, hop', hmore'⟩ := hb
        simp only [Chain.text, List.append_assoc] at h
        obtain ⟨hab, h⟩ := a.text_inj ha hb (hapart op _) (hapart op' _) h
        obtain ⟨hmark, h⟩ := spaced_inj (blank_not_mem_mark.2 op hop) (blank_not_mem_mark.2 op' hop') h
        obtain ⟨hrest, h⟩ := more.text_inj hmore hmore' hr hs h
        rw [hab, compareMark_inj op hop op' hop' hmark, hrest]
        exact ⟨rfl, h⟩

end

/-! ## Expressions and their chains -/

/-- Expressions made of names with operators that have C++ marks of their own, where `and` and `or` have
two operands and comparisons are not chained. -/
inductive Operators : Expr → Prop
  | name (span) {id} : IsIdentifier id → Operators (.name span id)
  | unary (span) {op e} : op ∈ [.not, .minus] → Operators e → Operators (.unary span op e)
  | binary (span) {left op right} : op ∈ numberOps → Operators left → Operators right →
      Operators (.binary span left op right)
  | boolOp (span op) {left right} : Operators left → Operators right →
      Operators (.boolOp span op [left, right])
  | compare (span) {left op right} : op ∈ orderOps → Operators left → Operators right →
      Operators (.compare span left [op] [right])

end

/-- Puts an operator in front of the first operand. -/
def Chain.signed (op : UnaryOp) : Chain → Chain
  | .one operand => .one (.signed op operand)
  | .compare operand op' more => .compare (.signed op operand) op' more

/-- Puts a comparison between two chains. -/
def Chain.append : Chain → CompareOp → Chain → Chain
  | .one operand, op, right => .compare operand op right
  | .compare operand op' more, op, right => .compare operand op' (more.append op right)

/-- What the text of an expression tells about it. -/
def chain : Expr → Chain
  | .name _ id => .one (.name id)
  | .unary _ op e => (chain e).signed op
  | .binary _ left op right => .one (.group (chain left) (.number op) (chain right))
  | .boolOp _ op [left, right] => .one (.group (chain left) (.truth op) (chain right))
  | .compare _ left [op] [right] => (chain left).append op (chain right)
  | _ => .one (.name "")

theorem Chain.text_signed (op : UnaryOp) (a : Chain) : (a.signed op).text = signMark op ++ a.text := by
  cases a with
  | one operand => rfl
  | compare operand op' more => exact List.append_assoc ..

theorem Chain.text_append (a : Chain) (op : CompareOp) (right : Chain) :
    (a.append op right).text = a.text ++ (spaced (compareMark op) ++ right.text) := by
  match a with
  | .one operand => rfl
  | .compare operand op' more =>
      simp only [Chain.append, Chain.text, more.text_append op right, List.append_assoc]

section

variable [Text.IdentifierTable]

theorem Chain.Valid.signed {op : UnaryOp} (hop : op ∈ [.not, .minus]) {a : Chain} (h : a.Valid) :
    (a.signed op).Valid := by
  cases a with
  | one operand => exact ⟨hop, h⟩
  | compare operand op' more => exact ⟨⟨hop, h.1⟩, h.2⟩

theorem Chain.Valid.append {op : CompareOp} (hop : op ∈ orderOps) {right : Chain}
    (hr : right.Valid) {a : Chain} (h : a.Valid) : (a.append op right).Valid := by
  match a with
  | .one operand => exact ⟨h, hop, hr⟩
  | .compare operand op' more => exact ⟨h.1, h.2.1, Chain.Valid.append hop hr h.2.2⟩

theorem Operators.valid {e : Expr} (h : Operators e) : (chain e).Valid := by
  induction h with
  | name span hid => exact hid
  | unary span hop _ ih => exact ih.signed hop
  | binary span hop _ _ ihl ihr => exact ⟨ihl, List.mem_append_left _ (List.mem_map_of_mem hop), ihr⟩
  | boolOp span op _ _ ihl ihr => exact ⟨ihl, by cases op <;> decide, ihr⟩
  | compare span hop _ _ ihl ihr => exact .append hop ihr ihl

omit [Text.IdentifierTable] in
theorem operation_eq (left right : Chain) (op : GroupOp) :
    operation (.ofList left.text) (.ofList op.mark) (.ofList right.text) =
      .ofList (Operand.group left op right).text := by
  apply String.toList_inj.mp
  simp [operation, Operand.text, spaced]

theorem Operators.lowerExpr {e : Expr} (h : Operators e) :
    Cpp.lowerExpr e = .ok (.ofList (chain e).text) := by
  induction h with
  | name span hid => rw [Cpp.lowerExpr, chain, Chain.text, Operand.text, String.ofList_toList]
  | @unary span op e hop _ ih =>
      have hmark : unaryToken? op = some (.ofList (signMark op)) := by
        simp only [List.mem_cons, List.not_mem_nil, or_false] at hop
        rcases hop with rfl | rfl <;> rfl
      rw [Cpp.lowerExpr, hmark, ih, chain, Chain.text_signed, String.ofList_append]
      rfl
  | @binary span left op right hop _ _ ihl ihr =>
      have hmark : binaryText span op (.ofList (chain left).text) (.ofList (chain right).text) =
          .ok (operation (.ofList (chain left).text) (.ofList (GroupOp.number op).mark)
            (.ofList (chain right).text)) := by
        cases op <;> simp [numberOps] at hop <;> rfl
      rw [Cpp.lowerExpr, ihl, ihr]
      exact hmark.trans (congrArg Except.ok (operation_eq ..))
  | @boolOp span op left right _ _ ihl ihr =>
      rw [Cpp.lowerExpr, Cpp.lowerExprs, Cpp.lowerExprs, Cpp.lowerExprs, ihl, ihr]
      have hmark : boolToken op = .ofList (GroupOp.truth op).mark := (String.ofList_toList).symm
      show Except.ok (operation _ (boolToken op) _) = _
      rw [hmark, operation_eq]
      rfl
  | @compare span left op right hop _ _ ihl ihr =>
      have hmark : compareText span op (.ofList (chain left).text) (.ofList (chain right).text) =
          .ok (.ofList (chain left).text ++ " " ++ .ofList (compareMark op) ++ " " ++
            .ofList (chain right).text) := by
        cases op <;> simp [orderOps] at hop <;> rfl
      rw [Cpp.lowerExpr, ihl, ihr, chain, Chain.text_append]
      refine hmark.trans (congrArg Except.ok (String.toList_inj.mp ?_))
      simp [spaced]

/-! ## Where the chain determines the tree -/

def isCompare : Expr → Bool
  | .compare .. => true
  | _ => false

/-- No comparison stands directly under a sign, a negation or another comparison. -/
def grouped : Expr → Bool
  | .unary _ _ e => !isCompare e && grouped e
  | .binary _ left _ right => grouped left && grouped right
  | .boolOp _ _ [left, right] => grouped left && grouped right
  | .compare _ left _ [right] =>
      !isCompare left && !isCompare right && grouped left && grouped right
  | _ => true

mutual

/-- The expression that an operand stands for. -/
def Operand.tree : Operand → Expr
  | .name id => .name .nowhere id
  | .signed op operand => .unary .nowhere op operand.tree
  | .group left (.number op) right => .binary .nowhere left.tree op right.tree
  | .group left (.truth op) right => .boolOp .nowhere op [left.tree, right.tree]

/-- The expression that a chain stands for; comparisons are grouped to the right. -/
def Chain.tree : Chain → Expr
  | .one operand => operand.tree
  | .compare operand op more => .compare .nowhere operand.tree [op] [more.tree]

end

/-- The tree of a grouped expression is that of its chain, which is one operand unless the expression is
a comparison. -/
theorem Operators.tree_chain {e : Expr} (h : Operators e) (hg : grouped e = true) :
    (chain e).tree = e.bare ∧ (isCompare e = false → ∃ a, chain e = .one a) := by
  induction h with
  | name span hid => exact ⟨rfl, fun _ => ⟨_, rfl⟩⟩
  | unary span hop _ ih =>
      simp only [grouped, Bool.and_eq_true, Bool.not_eq_true'] at hg
      obtain ⟨htree, hone⟩ := ih hg.2
      obtain ⟨a, ha⟩ := hone hg.1
      rw [ha] at htree
      rw [chain, ha, Expr.bare, ← htree]
      exact ⟨rfl, fun _ => ⟨_, rfl⟩⟩
  | binary span hop _ _ ihl ihr =>
      simp only [grouped, Bool.and_eq_true] at hg
      rw [chain, Expr.bare, ← (ihl hg.1).1, ← (ihr hg.2).1]
      exact ⟨rfl, fun _ => ⟨_, rfl⟩⟩
  | boolOp span op _ _ ihl ihr =>
      simp only [grouped, Bool.and_eq_true] at hg
      rw [chain, Expr.bare, Expr.bareAll, Expr.bareAll, Expr.bareAll, ← (ihl hg.1).1, ← (ihr hg.2).1]
      exact ⟨rfl, fun _ => ⟨_, rfl⟩⟩
  | compare span hop _ _ ihl ihr =>
      simp only [grouped, Bool.and_eq_true, Bool.not_eq_true'] at hg
      obtain ⟨⟨⟨hl, hr⟩, hgl⟩, hgr⟩ := hg
      obtain ⟨htree, hone⟩ := ihl hgl
      obtain ⟨a, ha⟩ := hone hl
      rw [ha] at htree
      rw [chain, ha, Expr.bare, Expr.bareAll, Expr.bareAll, ← htree, ← (ihr hgr).1]
      exact ⟨rfl, fun h => absurd h.symm Bool.false_ne_true⟩

/-- Expressions with the same C++ text have the same operands with the same comparisons between them.  If
no comparison stands directly under a sign, a negation or another comparison, they are the same up to
spans. -/
theorem lowerExpr_readable {e₁ e₂ : Expr} (h₁ : Operators e₁) (h₂ : Operators e₂) {text : String}
    (ht₁ : lowerExpr e₁ = .ok text) (ht₂ : lowerExpr e₂ = .ok text) :
    chain e₁ = chain e₂ ∧ (grouped e₁ = true → grouped e₂ = true → e₁.bare = e₂.bare) := by
  have htext : (chain e₁).text = (chain e₂).text := by
    have hsame := (h₁.lowerExpr.symm.trans ht₁).trans (ht₂.symm.trans h₂.lowerExpr)
    exact String.ofList_inj.mp (Except.ok.inj hsame)
  have hchain : chain e₁ = chain e₂ := by
    have hend : Closed [] := .inl rfl
    exact (Chain.text_inj _ h₁.valid h₂.valid hend hend (congrArg (· ++ []) htext)).1
  refine ⟨hchain, fun hg₁ hg₂ => ?_⟩
  rw [← (h₁.tree_chain hg₁).1, hchain, (h₂.tree_chain hg₂).1]

end

/-- `b + c` with all its parts at `span`. -/
def plainSum (span : Span) : Expr := .binary span (.name span "b") .add (.name span "c")

/-- `(-a) < (b + c)` -/
def signedOrder (span : Span) : Expr :=
  .compare span (.unary span .minus (.name span "a")) [.less] [plainSum span]

/-- `-(a < (b + c))` -/
def negatedOrder (span : Span) : Expr :=
  .unary span .minus (.compare span (.name span "a") [.less] [plainSum span])

/-- The same text in two places is the same expression; where the sign reaches over the comparison, only
the chain is the same. -/
theorem lowerExpr_readable_signedOrder :
    Operators (signedOrder .nowhere) ∧ Operators (signedOrder (.empty .origin)) ∧
      Operators (negatedOrder .nowhere) ∧
      lowerExpr (signedOrder .nowhere) = .ok "-a < (b + c)" ∧
      lowerExpr (signedOrder (.empty .origin)) = .ok "-a < (b + c)" ∧
      lowerExpr (negatedOrder .nowhere) = .ok "-a < (b + c)" ∧
      chain (signedOrder .nowhere) = chain (signedOrder (.empty .origin)) ∧
      (signedOrder .nowhere).bare = (signedOrder (.empty .origin)).bare ∧
      chain (signedOrder .nowhere) = chain (negatedOrder .nowhere) ∧
      (signedOrder .nowhere).bare ≠ (negatedOrder .nowhere).bare := by
  have hname (span : Span) (id : String) (first : Char) (hid : id.toList = [first])
      (hfirst : isIdentifierStart first = true) : Operators (.name span id) :=
    .name span ⟨first, [], hid, hfirst, nofun⟩
  have ha (span : Span) : Operators (.name span "a") := hname span _ 'a' rfl (by decide)
  have hsum (span : Span) : Operators (plainSum span) :=
    .binary _ (by decide) (hname span _ 'b' rfl (by decide)) (hname span _ 'c' rfl (by decide))
  have hsigned (span : Span) : Operators (signedOrder span) :=
    .compare _ (by decide) (.unary _ (by decide) (ha span)) (hsum span)
  have hnegated : Operators (negatedOrder .nowhere) :=
    .unary _ (by decide) (.compare _ (by decide) (ha _) (hsum _))
  have hplaces := lowerExpr_readable (hsigned .nowhere) (hsigned (.empty .origin)) rfl rfl
  have hgroups := lowerExpr_readable (hsigned .nowhere) hnegated rfl rfl
  exact ⟨hsigned _, hsigned _, hnegated, rfl, rfl, rfl, hplaces.1, hplaces.2 rfl rfl, hgroups.1, nofun⟩

/-- `not (a == b)` -/
def negatedEquality : Expr :=
  .unary .nowhere .not (.compare .nowhere (.name .nowhere "a") [.eq] [.name .nowhere "b"])

/-- `(not a) == b` -/
def equatedNegation : Expr :=
  .compare .nowhere (.unary .nowhere .not (.name .nowhere "a")) [.eq] [.name .nowhere "b"]

/-- The text does not say whether a negation reaches over a comparison. -/
theorem lowerExpr_forgets_grouping :
    Operators negatedEquality ∧ Operators equatedNegation ∧
      lowerExpr negatedEquality = .ok "!a == b" ∧ lowerExpr equatedNegation = .ok "!a == b" ∧
      negatedEquality.bare ≠ equatedNegation.bare := by
  have ha : Operators (.name .nowhere "a") := .name _ ⟨'a', [], rfl, by decide, nofun⟩
  have hb : Operators (.name .nowhere "b") := .name _ ⟨'b', [], rfl, by decide, nofun⟩
  refine ⟨.unary _ (by decide) (.compare _ (by decide) ha hb), ?_, rfl, rfl, nofun⟩
  exact .compare _ (by decide) (.unary _ (by decide) ha) hb

end MysToCpp.Cpp
