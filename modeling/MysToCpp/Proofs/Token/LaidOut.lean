/-
# How the tokens of a text are laid out

Blocks and brackets are nested, and brackets within lines: a run of the lexer keeps count of the open
blocks, of the open brackets and of the line, and all of them are closed where the text ends.
-/
import MysToCpp.Proofs.Token.Run
import MysToCpp.Text.Unicode

namespace MysToCpp

/-! ## Nested brackets -/

/-- The opening brackets, each with the bracket that closes it. -/
def bracketPairs : List (Punct × Punct) :=
  [(.parenOpen, .parenClose), (.squareOpen, .squareClose), (.braceOpen, .braceClose)]

/-- Properly nested brackets. -/
inductive Nested : List Punct → Prop
  | nil : Nested []
  | pair {left right : Punct} {inner rest : List Punct} : (left, right) ∈ bracketPairs →
      Nested inner → Nested rest → Nested (left :: (inner ++ right :: rest))

theorem Nested.append {a b : List Punct} (ha : Nested a) (hb : Nested b) : Nested (a ++ b) := by
  induction ha with
  | nil => exact hb
  | pair hpair hinner _ _ ih =>
      rw [List.cons_append, List.append_assoc, List.cons_append]
      exact .pair hpair hinner ih

/-- The brackets of `stack` are still open behind `word`, with nested ones between them. -/
inductive LeavesOpen : List Char → List Punct → Prop
  | nothing {word : List Punct} : Nested word → LeavesOpen [] word
  | bracket {stack : List Char} {word inner : List Punct} {x : Char} {p : Punct} :
      LeavesOpen stack word → Lexer.openBracket? x = some p → Nested inner →
      LeavesOpen (x :: stack) (word ++ p :: inner)

theorem LeavesOpen.append {stack : List Char} {word more : List Punct} (h : LeavesOpen stack word)
    (hm : Nested more) : LeavesOpen stack (word ++ more) := by
  cases h with
  | nothing hword => exact .nothing (hword.append hm)
  | bracket hword hp hinner =>
      rw [List.append_assoc, List.cons_append]
      exact .bracket hword hp (hinner.append hm)

theorem LeavesOpen.nested {word : List Punct} (h : LeavesOpen [] word) : Nested word := by
  cases h with
  | nothing hword => exact hword

theorem bracket?_openBracket {x : Char} {p : Punct} (h : Lexer.openBracket? x = some p) :
    (TokenKind.punct p).bracket? = some p := by
  unfold Lexer.openBracket? at h
  split at h <;> cases h <;> rfl

theorem bracket?_closeBracket {x : Char} {p : Punct} (h : Lexer.closeBracket? x = some p) :
    (TokenKind.punct p).bracket? = some p := by
  unfold Lexer.closeBracket? at h
  split at h <;> cases h <;> rfl

theorem mem_bracketPairs {x y : Char} {p q : Punct} (hp : Lexer.openBracket? x = some p)
    (hq : Lexer.closeBracket? y = some q) (hxy : Layout.opening? y = some x) :
    (p, q) ∈ bracketPairs := by
  unfold Lexer.closeBracket? at hq
  split at hq <;> cases hq <;> cases hxy <;> cases hp <;> decide

/-- A token opens a bracket, closes the innermost one, or leaves the brackets alone. -/
theorem LeavesOpen.step {kind : TokenKind} {stack stack' : List Char} {word : List Punct}
    (h : LeavesOpen stack word) (hstep : Lexer.BracketStep kind stack stack') :
    LeavesOpen stack' (word ++ kind.bracket?.toList) := by
  cases hstep with
  | other _ hkind =>
      rw [hkind, Option.toList_none, List.append_nil]
      exact h
  | opens _ hp =>
      rw [bracket?_openBracket hp]
      exact .bracket h hp .nil
  | closes _ hq hxy =>
      rw [bracket?_closeBracket hq]
      cases h with
      | @bracket _ word inner x p hword hp hinner =>
          rw [List.append_assoc]
          exact hword.append (.pair (mem_bracketPairs hp hq hxy) hinner .nil)

/-! ## Tokens that are laid out -/

def bracketsOf (ts : List Token) : List Punct := ts.filterMap (·.kind.bracket?)

/-- The last token is no layout. -/
def InLine (ts : List Token) : Prop := ∃ front u, ts = front ++ [u] ∧ u.kind.isLayout = false

/-- There is no token, or the last one ends a line or stands before one. -/
def BetweenLines (ts : List Token) : Prop :=
  ts = [] ∨ ∃ front u, ts = front ++ [u] ∧ u.kind ∈ [.newline, .indent, .dedent]

/-- Tokens whose blocks, brackets and lines are all closed. -/
structure LaidOut (ts : List Token) : Prop where
  /-- A block is closed only after it was opened. -/
  blocks : ∀ before after, ts = before ++ after →
    before.countP (·.kind = .dedent) ≤ before.countP (·.kind = .indent)
  blocksClosed : ts.countP (·.kind = .dedent) = ts.countP (·.kind = .indent)
  brackets : Nested (bracketsOf ts)
  /-- Layout tokens stand outside of brackets. -/
  outside : ∀ before t after, ts = before ++ t :: after → t.kind ∈ [.newline, .indent, .dedent] →
    Nested (bracketsOf before)
  newlines : ∀ before t after, ts = before ++ t :: after → t.kind = .newline → InLine before
  starts : ∀ before t after, ts = before ++ t :: after → t.kind ∈ [.indent, .dedent, .endOfFile] →
    BetweenLines before
  /-- A line ends only with a `newline`. -/
  lines : ∀ before t u after, ts = before ++ t :: u :: after → t.kind.isLayout = false →
    u.kind.isLayout = true → u.kind = .newline

/-! ## What a token keeps -/

namespace Lexer

variable {lx lx' : Lexer} {kind : TokenKind}

theorem LayoutStep.blocks (h : LayoutStep lx lx' kind) :
    lx'.openBlocks + (if kind = .dedent then 1 else 0) =
      lx.openBlocks + if kind = .indent then 1 else 0 := by
  cases h with
  | written hkind _ hblocks _ =>
      have hindent : kind ≠ .indent := by rintro rfl; cases hkind
      have hdedent : kind ≠ .dedent := by rintro rfl; cases hkind
      rw [if_neg hindent, if_neg hdedent, hblocks]
  | newline _ _ _ _ hblocks => exact hblocks
  | indent _ _ _ _ hblocks => exact hblocks
  | dedent _ _ _ _ hblocks => exact hblocks.symm

theorem LayoutStep.brackets (h : LayoutStep lx lx' kind) :
    BracketStep kind lx.layout.brackets lx'.layout.brackets := by
  cases h with
  | written _ _ _ hbrackets => exact hbrackets
  | newline _ _ hb hb' _ | indent _ _ hb hb' _ | dedent _ _ hb hb' _ =>
      rw [hb, hb']
      exact .other [] rfl

/-- A layout token is given only while no bracket is open. -/
theorem LayoutStep.outside (h : LayoutStep lx lx' kind)
    (hkind : kind ∈ [.newline, .indent, .dedent]) : lx.layout.brackets = [] := by
  cases h with
  | written hwritten _ _ _ =>
      simp only [List.mem_cons, List.not_mem_nil, or_false] at hkind
      rcases hkind with rfl | rfl | rfl <;> cases hwritten
  | newline _ _ hb _ _ | indent _ _ hb _ _ | dedent _ _ hb _ _ => exact hb

theorem LayoutStep.lineOpen (h : LayoutStep lx lx' .newline) : lx.lineHasTokens = true := by
  cases h with
  | written hwritten => cases hwritten
  | newline hline => exact hline

theorem LayoutStep.lineClosed (h : LayoutStep lx lx' kind)
    (hkind : kind ∈ [.indent, .dedent, .endOfFile]) : lx.lineHasTokens = false := by
  cases h with
  | written hwritten _ _ _ =>
      simp only [List.mem_cons, List.not_mem_nil, or_false] at hkind
      rcases hkind with rfl | rfl | rfl <;> cases hwritten
  | newline => simp at hkind
  | indent hline | dedent hline => exact hline

/-- The lexer knows whether a line is open behind `ts`. -/
def LineKept (ts : List Token) (lx : Lexer) : Prop :=
  (lx.lineHasTokens = true → InLine ts) ∧ (lx.lineHasTokens = false → BetweenLines ts)

theorem LayoutStep.line {t : Token} (h : LayoutStep lx lx' t.kind) (ts : List Token) :
    LineKept (ts ++ [t]) lx' := by
  have hbetween (hline : lx'.lineHasTokens = false)
      (hkind : t.kind ∈ [.newline, .indent, .dedent]) : LineKept (ts ++ [t]) lx' :=
    ⟨fun h => absurd (hline.symm.trans h) Bool.false_ne_true, fun _ => .inr ⟨ts, t, rfl, hkind⟩⟩
  generalize hk : t.kind = kind at h
  cases h with
  | written hkind hline _ _ =>
      refine ⟨fun _ => ⟨ts, t, rfl, by rw [hk, hkind]⟩, fun h => ?_⟩
      exact absurd (h.symm.trans hline) Bool.false_ne_true
  | newline _ hline | indent _ hline | dedent _ hline => exact hbetween hline (by simp [hk])

/-! ## What a run keeps -/

variable {source : String} {ts : List Token}

theorem Trace.blocks (h : Trace (.ofText source) ts lx) :
    ts.countP (·.kind = .indent) = ts.countP (·.kind = .dedent) + lx.openBlocks := by
  induction h with
  | nil => rfl
  | snoc _ hemits ih =>
      have hstep := hemits.layout.blocks
      simp only [List.countP_append, List.countP_singleton, decide_eq_true_eq]
      omega

theorem Trace.brackets (h : Trace (.ofText source) ts lx) :
    LeavesOpen lx.layout.brackets (bracketsOf ts) := by
  induction h with
  | nil => exact .nothing .nil
  | @snoc ts lx lx' t _ hemits ih =>
      have hlast : bracketsOf (ts ++ [t]) = bracketsOf ts ++ t.kind.bracket?.toList := by
        rw [bracketsOf, List.filterMap_append]
        cases h : t.kind.bracket? <;> simp [bracketsOf, h]
      rw [hlast]
      exact ih.step hemits.layout.brackets

theorem Trace.line (h : Trace (.ofText source) ts lx) : LineKept ts lx := by
  cases h with
  | nil => exact ⟨nofun, fun _ => .inl rfl⟩
  | snoc _ hemits => exact hemits.layout.line _

end Lexer

/-! ## Whole texts -/

section

variable [Text.IdentifierTable] {source : String} {ts before after : List Token} {t : Token}

theorem tokenize_blocks (h : tokenize source = .ok ts) :
    ts.countP (·.kind = .dedent) = ts.countP (·.kind = .indent) := by
  obtain ⟨init, lx, lx', rfl, htrace, hends⟩ := tokenize_trace h
  have hblocks := htrace.blocks
  rw [hends.blocks, Nat.add_zero] at hblocks
  rw [List.countP_append, List.countP_append, hblocks]
  rfl

theorem tokenize_brackets (h : tokenize source = .ok ts) : Nested (bracketsOf ts) := by
  obtain ⟨init, lx, lx', rfl, htrace, hends⟩ := tokenize_trace h
  have hbrackets := htrace.brackets
  rw [hends.brackets] at hbrackets
  rw [bracketsOf, List.filterMap_append]
  exact (hbrackets.append .nil).nested

theorem tokenize_starts (h : tokenize source = .ok ts) (hts : ts = before ++ t :: after)
    (hkind : t.kind ∈ [.indent, .dedent, .endOfFile]) : BetweenLines before := by
  obtain ⟨lx, lx', htrace, hemits | ⟨hends, -, -⟩⟩ := tokenize_before h hts
  · exact htrace.line.2 (hemits.layout.lineClosed hkind)
  · exact htrace.line.2 hends.line

end

/-- Where a text has tokens, its blocks, brackets and lines are all closed. -/
theorem tokenize_laidOut [Text.IdentifierTable] (source : String) (ts : List Token)
    (h : tokenize source = .ok ts) :
    LaidOut ts where
  blocks := by
    intro before after hts
    cases after with
    | nil =>
        rw [← List.append_nil before, ← hts]
        exact Nat.le_of_eq (tokenize_blocks h)
    | cons t after =>
        obtain ⟨lx, -, htrace, -⟩ := tokenize_before h hts
        rw [htrace.blocks]
        exact Nat.le_add_right _ _
  blocksClosed := tokenize_blocks h
  brackets := tokenize_brackets h
  outside := by
    intro before t after hts hkind
    obtain ⟨lx, lx', htrace, hemits | ⟨hends, -, -⟩⟩ := tokenize_before h hts
    · exact LeavesOpen.nested (hemits.layout.outside hkind ▸ htrace.brackets)
    · exact LeavesOpen.nested (hends.brackets ▸ htrace.brackets)
  newlines := by
    intro before t after hts hkind
    obtain ⟨lx, lx', htrace, hemits | ⟨-, rfl, -⟩⟩ := tokenize_before h hts
    · have hstep := hemits.layout
      rw [hkind] at hstep
      exact htrace.line.1 hstep.lineOpen
    · cases hkind
  starts _ _ _ := tokenize_starts h
  lines := by
    intro before t u after hts ht hu
    have hsplit : ts = (before ++ [t]) ++ u :: after := by simpa using hts
    by_cases hkind : u.kind ∈ [.indent, .dedent, .endOfFile]
    · -- the token before `u` would be layout too
      rcases tokenize_starts h hsplit hkind with hnil | ⟨front, v, hfront, hv⟩
      · exact absurd hnil (List.append_ne_nil_of_right_ne_nil _ (List.cons_ne_nil _ _))
      · obtain ⟨-, htv⟩ := List.append_inj' hfront rfl
        cases htv
        simp only [List.mem_cons, List.not_mem_nil, or_false] at hv
        rcases hv with hv | hv | hv <;> rw [hv] at ht <;> cases ht
    · generalize u.kind = kind at hu hkind
      cases kind <;> simp_all [TokenKind.isLayout]

/-- A block with brackets over two lines, closed by the end of the text. -/
theorem tokenize_laidOut_sample :
    ∃ ts, tokenize "while x:\n\n\tf([1,\n2])" = .ok ts ∧
      ts.map (·.kind) = [.keyword .whileKw, .name "x", .punct .colon, .newline, .indent, .name "f",
        .punct .parenOpen, .punct .squareOpen, .int 1, .punct .comma, .int 2, .punct .squareClose,
        .punct .parenClose, .newline, .dedent, .endOfFile] ∧ LaidOut ts :=
  ⟨_, rfl, rfl, tokenize_laidOut "while x:\n\n\tf([1,\n2])" _ rfl⟩

end MysToCpp
