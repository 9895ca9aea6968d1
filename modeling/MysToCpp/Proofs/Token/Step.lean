/-
# One step of the lexer

`Lexer.next` gives one token.  Here is said once what a lexer may be like between two tokens
(`Lexer.Valid`) and what has happened when a token was given (`Lexer.Emits`): what was passed before it
and how it is written, and what it changes in the blocks, the brackets and the line.  The start of a
line and the end of the text are shown to be so in this file.

Every token makes the lexer lighter (`Lexer.weight`): it costs a character, which is worth two, or it
ends a line or a block.  So there are never more tokens than twice the characters.
-/
import MysToCpp.Proofs.Token.Gap
import MysToCpp.Proofs.Token.Scan

namespace MysToCpp.Lexer

open Cursor (passes_blank reads_skip reads_takeWhile rest_eq_nil_of_peek)

/-- The blocks that are open, with those whose `dedent` tokens are only waiting. -/
def openBlocks (lx : Lexer) : Nat := lx.layout.widths.length - 1 + lx.pending.length

/-- What a lexer is like between two tokens. -/
structure Valid (lx : Lexer) : Prop where
  noError : lx.error = none
  /-- Brackets are open only inside of a line. -/
  brackets : lx.lineHasTokens = false → lx.layout.brackets = []
  lineStart : lx.lineHasTokens = true → lx.atLineStart = false
  /-- The outermost block has width zero, so that it is never closed. -/
  outermost : lx.layout.widths.getLast? = some 0
  pending : ∀ t ∈ lx.pending, t = ⟨.dedent, .empty lx.position⟩
  pendingLine : lx.pending ≠ [] → lx.lineHasTokens = false
  finished : lx.finished = true →
    lx.cursor.rest = [] ∧ lx.lineHasTokens = false ∧ lx.layout.widths.length = 1

/-- What a token does to the open brackets. -/
inductive BracketStep : TokenKind → List Char → List Char → Prop
  | other {kind : TokenKind} (stack : List Char) : kind.bracket? = none → BracketStep kind stack stack
  | opens {x : Char} {p : Punct} (stack : List Char) : openBracket? x = some p →
      BracketStep (.punct p) stack (x :: stack)
  | closes {x y : Char} {p : Punct} (stack : List Char) : closeBracket? y = some p →
      Layout.opening? y = some x → BracketStep (.punct p) (x :: stack) stack

/-- What a token does to the layout. -/
inductive LayoutStep (lx lx' : Lexer) : TokenKind → Prop
  | written {kind : TokenKind} : kind.isLayout = false → lx'.lineHasTokens = true →
      lx'.openBlocks = lx.openBlocks →
      BracketStep kind lx.layout.brackets lx'.layout.brackets → LayoutStep lx lx' kind
  | newline : lx.lineHasTokens = true → lx'.lineHasTokens = false → lx.layout.brackets = [] →
      lx'.layout.brackets = [] → lx'.openBlocks = lx.openBlocks → LayoutStep lx lx' .newline
  | indent : lx.lineHasTokens = false → lx'.lineHasTokens = false → lx.layout.brackets = [] →
      lx'.layout.brackets = [] → lx'.openBlocks = lx.openBlocks + 1 → LayoutStep lx lx' .indent
  | dedent : lx.lineHasTokens = false → lx'.lineHasTokens = false → lx.layout.brackets = [] →
      lx'.layout.brackets = [] → lx.openBlocks = lx'.openBlocks + 1 → LayoutStep lx lx' .dedent

theorem LayoutStep.lineEnded {lx lx' : Lexer} {kind : TokenKind} (h : LayoutStep lx lx' kind)
    (hlayout : kind.isLayout = true) : lx'.lineHasTokens = false := by
  cases h with
  | written hwritten => exact absurd (hwritten.symm.trans hlayout) Bool.false_ne_true
  | newline _ hline => exact hline
  | indent _ hline => exact hline
  | dedent _ hline => exact hline

/-- What bounds the number of tokens still to come. -/
def weight (lx : Lexer) : Nat :=
  2 * lx.cursor.rest.length + lx.openBlocks + if lx.lineHasTokens then 1 else 0

/-- The lexer has given a token. -/
structure Emits (lx : Lexer) (t : Token) (lx' : Lexer) : Prop where
  /-- A gap and the token were read, and the token is spelled by what was read. -/
  written : ∃ c text, lx.cursor.Passes c ∧ c.Reads text lx'.cursor ∧
    t.span = ⟨c.position, lx'.position⟩ ∧ t.kind.Spells (lx'.cursor.rest = []) text
  layout : LayoutStep lx lx' t.kind
  lighter : lx'.weight < lx.weight

/-- The lexer has come to the end of the text with nothing open. -/
structure Ends (lx lx' : Lexer) : Prop where
  passes : lx.cursor.Passes lx'.cursor
  atEnd : lx'.cursor.rest = []
  line : lx.lineHasTokens = false
  brackets : lx.layout.brackets = []
  blocks : lx.openBlocks = 0

/-- Only a gap was passed. -/
structure Skips (lx lx' : Lexer) : Prop where
  passes : lx.cursor.Passes lx'.cursor
  layout : lx'.layout = lx.layout
  line : lx'.lineHasTokens = lx.lineHasTokens
  pending : lx'.pending = lx.pending
  finished : lx'.finished = lx.finished

/-- What an answer of the lexer means. -/
def Outcome (lx : Lexer) : Option Token × Lexer → Prop
  | (some t, lx') => lx'.Valid ∧ lx.Emits t lx'
  | (none, lx') => lx'.error ≠ none ∨ lx.Ends lx'

theorem openBlocks_of_pending {lx : Lexer} (h : lx.pending = []) :
    lx.openBlocks = lx.layout.widths.length - 1 := by
  rw [openBlocks, h]
  rfl

/-- A token that is not written stands where the lexer has come to. -/
theorem Emits.unwritten {lx lx' : Lexer} {kind : TokenKind} {p : Position}
    (hpass : lx.cursor.Passes lx'.cursor) (hp : p = lx'.position)
    (hspell : kind.Spells (lx'.cursor.rest = []) []) (hstep : LayoutStep lx lx' kind)
    (hless : lx'.weight < lx.weight) : lx.Emits ⟨kind, .empty p⟩ lx' where
  written := ⟨lx'.cursor, [], hpass, .refl _, by rw [hp]; rfl, hspell⟩
  layout := hstep
  lighter := hless

section Skips

variable {lx lx₁ lx₂ : Lexer}

theorem Skips.refl (lx : Lexer) : lx.Skips lx := ⟨.refl _, rfl, rfl, rfl, rfl⟩

theorem Skips.trans (h₁ : lx.Skips lx₁) (h₂ : lx₁.Skips lx₂) : lx.Skips lx₂ where
  passes := h₁.passes.trans h₂.passes
  layout := h₂.layout.trans h₁.layout
  line := h₂.line.trans h₁.line
  pending := h₂.pending.trans h₁.pending
  finished := h₂.finished.trans h₁.finished

theorem Skips.openBlocks (h : lx.Skips lx₁) : lx₁.openBlocks = lx.openBlocks := by
  unfold Lexer.openBlocks
  rw [h.layout, h.pending]

theorem Skips.weight_le (h : lx.Skips lx₁) : lx₁.weight ≤ lx.weight := by
  have hlen := h.passes.length_le
  unfold weight
  rw [h.openBlocks, h.line]
  omega

theorem Skips.emits {t : Token} (h : lx.Skips lx₁) (he : lx₁.Emits t lx₂) : lx.Emits t lx₂ where
  written := by
    obtain ⟨c, text, hpass, hreads, hspan, hspell⟩ := he.written
    exact ⟨c, text, h.passes.trans hpass, hreads, hspan, hspell⟩
  layout := by
    have hstep := he.layout
    generalize t.kind = kind at hstep
    cases hstep with
    | written hkind hline hblocks hbrackets =>
        exact .written hkind hline (hblocks.trans h.openBlocks) (h.layout ▸ hbrackets)
    | newline hline hline' hb hb' hblocks =>
        exact .newline (h.line ▸ hline) hline' (h.layout ▸ hb) hb' (hblocks.trans h.openBlocks)
    | indent hline hline' hb hb' hblocks =>
        exact .indent (h.line ▸ hline) hline' (h.layout ▸ hb) hb' (h.openBlocks ▸ hblocks)
    | dedent hline hline' hb hb' hblocks =>
        exact .dedent (h.line ▸ hline) hline' (h.layout ▸ hb) hb' (h.openBlocks ▸ hblocks)
  lighter := Nat.lt_of_lt_of_le he.lighter h.weight_le

theorem Skips.outcome {answer : Option Token × Lexer} (h : lx.Skips lx₁)
    (ho : lx₁.Outcome answer) : lx.Outcome answer := by
  match answer, ho with
  | (some t, lx₂), ho => exact ⟨ho.1, h.emits ho.2⟩
  | (none, lx₂), .inl herror => exact .inl herror
  | (none, lx₂), .inr hends =>
      refine .inr ⟨h.passes.trans hends.passes, hends.atEnd, ?_, ?_, ?_⟩
      · exact h.line ▸ hends.line
      · exact h.layout ▸ hends.brackets
      · exact h.openBlocks ▸ hends.blocks

end Skips

/-! ## Blocks -/

theorem getLast?_dropWhile {α : Type} {p : α → Bool} {a : α} {l : List α}
    (h : l.getLast? = some a) (ha : p a = false) : (l.dropWhile p).getLast? = some a := by
  induction l with
  | nil => cases h
  | cons x l ih =>
      cases hx : p x with
      | false => rwa [List.dropWhile_cons_of_neg (by simp [hx])]
      | true =>
          rw [List.dropWhile_cons_of_pos hx]
          cases l with
          | nil =>
              have hxa : x = a := by simpa using h
              rw [hxa, ha] at hx
              cases hx
          | cons y l =>
              rw [List.getLast?_cons_cons] at h
              exact ih h

/-- A new line goes on with the innermost block, opens one, closes at least one, or is wrong. -/
theorem changeIndent_cases (w : Nat) {layout : Layout} (houter : layout.widths.getLast? = some 0) :
    layout.changeIndent w = (.same, layout) ∨
    (0 < w ∧ layout.changeIndent w = (.indent, { layout with widths := w :: layout.widths })) ∨
    (∃ count layout', layout.changeIndent w = (.dedent (count + 1), layout') ∧
      layout'.brackets = layout.brackets ∧ layout'.widths.getLast? = some 0 ∧
      layout.widths.length = layout'.widths.length + (count + 1)) ∨
    ∃ layout', layout.changeIndent w = (.inconsistent, layout') := by
  unfold Layout.changeIndent
  split
  · exact .inl rfl
  · next hne =>
    split
    · next hlt => exact .inr (.inl ⟨Nat.zero_lt_of_lt hlt, rfl⟩)
    · next hge =>
      dsimp only
      split
      · -- the innermost block is wider than the line, so at least that one is closed
        obtain ⟨x, widths, hwidths⟩ : ∃ x widths, layout.widths = x :: widths := by
          cases h : layout.widths with
          | nil => rw [h] at houter; cases houter
          | cons x widths => exact ⟨x, widths, rfl⟩
        have hx : w < x := by
          have hwidth : layout.width = x := by rw [Layout.width, hwidths]; rfl
          omega
        have hless : (layout.widths.dropWhile (w < ·)).length < layout.widths.length := by
          rw [hwidths, List.dropWhile_cons_of_pos (by simpa using hx), List.length_cons]
          exact Nat.lt_succ_of_le (List.dropWhile_sublist _).length_le
        refine .inr (.inr (.inl ⟨layout.widths.length -
          (layout.widths.dropWhile (w < ·)).length - 1,
          { layout with widths := layout.widths.dropWhile (w < ·) }, ?_, rfl, ?_, ?_⟩))
        · rw [Nat.sub_add_cancel (by omega)]
        · exact getLast?_dropWhile houter (by simp)
        · show _ = (layout.widths.dropWhile (w < ·)).length + _
          omega
      · exact .inr (.inr (.inr ⟨_, rfl⟩))

/-! ## The end of the text -/

/-- The lexer behind the last character, with everything closed but `count` blocks waiting for their
tokens. -/
def closed (lx : Lexer) (count : Nat) : Lexer :=
  { lx with
    start := lx.position
    finished := true
    layout := lx.layout.closeAll.2
    lineHasTokens := false
    pending := List.replicate count ⟨.dedent, .empty lx.position⟩ }

theorem length_widths_pos {lx : Lexer} (hv : lx.Valid) : 0 < lx.layout.widths.length := by
  refine List.length_pos_iff.mpr fun h => ?_
  have hlast := hv.outermost
  rw [h] at hlast
  cases hlast

theorem length_closeAll {lx : Lexer} (hv : lx.Valid) :
    lx.layout.closeAll.2.widths.length = 1 := by
  have hpos := length_widths_pos hv
  show (lx.layout.widths.drop (lx.layout.widths.length - 1)).length = 1
  rw [List.length_drop]
  omega

theorem valid_closed {lx : Lexer} (hv : lx.Valid) (hb : lx.layout.brackets = [])
    (hend : lx.cursor.rest = []) (count : Nat) : (lx.closed count).Valid where
  noError := hv.noError
  brackets _ := hb
  lineStart h := absurd h Bool.false_ne_true
  outermost := by
    have hpos := length_widths_pos hv
    show (lx.layout.widths.drop (lx.layout.widths.length - 1)).getLast? = some 0
    rw [List.getLast?_drop, if_neg (by omega)]
    exact hv.outermost
  pending t ht := List.eq_of_mem_replicate ht
  pendingLine _ := rfl
  finished _ := ⟨hend, rfl, length_closeAll hv⟩

theorem openBlocks_closed {lx : Lexer} (hv : lx.Valid) (count : Nat) :
    (lx.closed count).openBlocks = count := by
  show lx.layout.closeAll.2.widths.length - 1 + (List.replicate count _).length = count
  rw [length_closeAll hv, List.length_replicate]
  omega

theorem finish_line {lx : Lexer} (hb : lx.layout.brackets = []) (hline : lx.lineHasTokens = true) :
    lx.finish = (some ⟨.newline, .empty lx.position⟩, lx.closed (lx.layout.widths.length - 1)) := by
  simp [finish, markStart, Layout.innermost?, hb, hline, Layout.closeAll, closed, token, span,
    Span.empty, position]

/-- The newline token behind the last line stands at the end of the text, and so do the `dedent` tokens
behind it. -/
theorem finish_outcome {lx : Lexer} (hv : lx.Valid) (hpending : lx.pending = [])
    (hend : lx.cursor.rest = []) : lx.Outcome lx.finish := by
  have hblocks := openBlocks_of_pending hpending
  cases hb : lx.layout.brackets with
  | cons x stack =>
      simp only [finish, markStart, Layout.innermost?, hb, List.head?_cons]
      exact .inl nofun
  | nil =>
      cases hline : lx.lineHasTokens with
      | true =>
          rw [finish_line hb hline]
          have hopen := openBlocks_closed hv (lx.layout.widths.length - 1)
          refine ⟨valid_closed hv hb hend _, .unwritten (.refl _) rfl (.inr ⟨hend, rfl⟩) ?_ ?_⟩
          · exact .newline hline rfl hb hb (hopen.trans hblocks.symm)
          · unfold weight
            rw [hopen, hblocks, hline]
            show 2 * lx.cursor.rest.length + _ + 0 < 2 * lx.cursor.rest.length + _ + 1
            omega
      | false =>
          cases hcount : lx.layout.widths.length - 1 with
          | zero =>
              have hfinish : lx.finish = (none, lx.closed 0) := by
                simp [finish, markStart, Layout.innermost?, hb, hline, Layout.closeAll, closed, hcount,
                  hpending]
              rw [hfinish]
              exact .inr ⟨.refl _, hend, hline, hb, hblocks.trans hcount⟩
          | succ count =>
              have hfinish : lx.finish = (some ⟨.dedent, .empty lx.position⟩, lx.closed count) := by
                simp [finish, markStart, Layout.innermost?, hb, hline, Layout.closeAll, closed, hcount,
                  List.replicate_succ, token, span, Span.empty, position]
              rw [hfinish]
              have hopen := openBlocks_closed hv count
              refine ⟨valid_closed hv hb hend _, .unwritten (.refl _) rfl rfl ?_ ?_⟩
              · exact .dedent hline rfl hb hb (by rw [hopen, hblocks, hcount])
              · unfold weight
                rw [hopen, hblocks, hline, hcount]
                show 2 * lx.cursor.rest.length + _ + 0 < 2 * lx.cursor.rest.length + _ + 0
                omega

/-! ## The start of a line -/

/-- While nothing is pending and the end is not reached, there is less to ask of a lexer. -/
theorem valid_of_reading {lx : Lexer} (hpending : lx.pending = []) (hfinished : lx.finished = false)
    (herror : lx.error = none) (hb : lx.lineHasTokens = false → lx.layout.brackets = [])
    (hstart : lx.lineHasTokens = true → lx.atLineStart = false)
    (hlast : lx.layout.widths.getLast? = some 0) : lx.Valid where
  noError := herror
  brackets := hb
  lineStart := hstart
  outermost := hlast
  pending t ht := by rw [hpending] at ht; cases ht
  pendingLine h := absurd hpending h
  finished h := by rw [hfinished] at h; cases h

theorem Valid.moved {lx : Lexer} (hv : lx.Valid) (hpending : lx.pending = [])
    (hfinished : lx.finished = false) (c : Cursor) : (lx.moveTo c).Valid :=
  valid_of_reading hpending hfinished hv.noError hv.brackets hv.lineStart hv.outermost

/-- What the start of a line turned out to be. -/
def LineOutcome (lx : Lexer) : LineStart → Prop
  | .blank lx₁ => lx₁.Valid ∧ lx.Skips lx₁ ∧ lx₁.cursor.rest.length < lx.cursor.rest.length
  | .atEnd lx₁ => lx₁.Valid ∧ lx.Skips lx₁ ∧ lx₁.cursor.rest = []
  | .code (some t) lx₁ => lx₁.Valid ∧ lx.Emits t lx₁
  | .code none lx₁ => lx₁.error ≠ none ∨ lx₁.Valid ∧ lx.Skips lx₁ ∧ lx₁.atLineStart = false

/-- The lexer at the first character of a line, with other blocks open and `count` of them waiting for
their tokens. -/
def begun (lx : Lexer) (c : Cursor) (layout : Layout) (count : Nat) : Lexer :=
  { lx with
    cursor := c
    start := c.position
    atLineStart := false
    layout
    pending := List.replicate count ⟨.dedent, .empty c.position⟩ }

theorem valid_begun {lx : Lexer} (hv : lx.Valid) (hfinished : lx.finished = false)
    (hline : lx.lineHasTokens = false) (c : Cursor) (layout : Layout) (count : Nat)
    (hb : layout.brackets = lx.layout.brackets) (hlast : layout.widths.getLast? = some 0) :
    (lx.begun c layout count).Valid where
  noError := hv.noError
  brackets _ := hb.trans (hv.brackets hline)
  lineStart _ := rfl
  outermost := hlast
  pending t ht := List.eq_of_mem_replicate ht
  pendingLine _ := hline
  finished h := by
    rw [show lx.finished = true from h] at hfinished
    cases hfinished

theorem changeBlocks_outcome {lx : Lexer} {c : Cursor} {w : Nat} (hv : lx.Valid)
    (hpending : lx.pending = []) (hfinished : lx.finished = false)
    (hline : lx.lineHasTokens = false) (hpass : lx.cursor.Passes c)
    (hindent : 0 < w → c.rest.length < lx.cursor.rest.length) :
    lx.LineOutcome (changeBlocks w (lx.moveTo c)) := by
  have hbrackets := hv.brackets hline
  have hlen := hpass.length_le
  have hpos := length_widths_pos hv
  have hblocks := openBlocks_of_pending hpending
  have hweight : lx.weight = 2 * lx.cursor.rest.length + (lx.layout.widths.length - 1) + 0 := by
    rw [weight, hblocks, hline]
    rfl
  have hweight' (layout : Layout) (count : Nat) : (lx.begun c layout count).weight =
      2 * c.rest.length + (layout.widths.length - 1 + count) + 0 := by
    simp [weight, openBlocks, begun, hline]
  rcases changeIndent_cases w hv.outermost with h | ⟨hw, h⟩ | ⟨count, layout, h, hb, hlast, hcount⟩ |
    ⟨layout, h⟩
  · have hcode : changeBlocks w (lx.moveTo c) = .code none (lx.begun c lx.layout 0) := by
      simp [changeBlocks, markStart, moveTo, position, h, begun, hpending]
    rw [hcode]
    refine .inr ⟨valid_begun hv hfinished hline c _ 0 rfl hv.outermost, ?_, rfl⟩
    exact ⟨hpass, rfl, rfl, hpending.symm, rfl⟩
  · have hcode : changeBlocks w (lx.moveTo c) = .code (some ⟨.indent, .empty c.position⟩)
        (lx.begun c { lx.layout with widths := w :: lx.layout.widths } 0) := by
      simp [changeBlocks, markStart, moveTo, position, h, begun, hpending, token, span, Span.empty]
    rw [hcode]
    have hlast : (w :: lx.layout.widths).getLast? = some 0 := by
      rw [List.getLast?_cons, hv.outermost]
      rfl
    refine ⟨valid_begun hv hfinished hline c _ 0 rfl hlast, .unwritten hpass rfl rfl ?_ ?_⟩
    · refine .indent hline hline hbrackets hbrackets ?_
      rw [hblocks]
      show lx.layout.widths.length + 1 - 1 + 0 = lx.layout.widths.length - 1 + 1
      omega
    · have hless := hindent hw
      rw [hweight, hweight', List.length_cons]
      omega
  · have hcode : changeBlocks w (lx.moveTo c) = .code (some ⟨.dedent, .empty c.position⟩)
        (lx.begun c layout count) := by
      simp [changeBlocks, markStart, moveTo, position, h, begun, token, span, Span.empty]
    rw [hcode]
    have hpos' : 0 < layout.widths.length := by
      refine List.length_pos_iff.mpr fun hnil => ?_
      rw [hnil] at hlast
      cases hlast
    refine ⟨valid_begun hv hfinished hline c _ count hb hlast, .unwritten hpass rfl rfl ?_ ?_⟩
    · refine .dedent hline hline hbrackets (hb.trans hbrackets) ?_
      rw [hblocks]
      show _ = layout.widths.length - 1 + (List.replicate count _).length + 1
      rw [List.length_replicate]
      omega
    · rw [hweight, hweight']
      omega
  · have hcode : ∃ lx', lx'.error ≠ none ∧ changeBlocks w (lx.moveTo c) = .code none lx' := by
      simp only [changeBlocks, markStart, moveTo, h]
      refine ⟨_, ?_, rfl⟩
      exact nofun
    obtain ⟨lx', herror, hcode⟩ := hcode
    rw [hcode]
    exact .inl herror

theorem beginLine_outcome {lx : Lexer} (hv : lx.Valid) (hpending : lx.pending = [])
    (hfinished : lx.finished = false) (hline : lx.lineHasTokens = false) :
    lx.LineOutcome lx.beginLine := by
  have hpass := passes_indentation lx.cursor
  have hlen := (reads_takeWhile isIndentation lx.cursor).length
  have hmoved := hv.moved hpending hfinished
  unfold beginLine
  dsimp only
  split
  · next hend => exact ⟨hmoved _, ⟨hpass, rfl, rfl, rfl, rfl⟩, rest_eq_nil_of_peek hend⟩
  · next x hx =>
    split
    · next hhash =>
      subst hhash
      obtain ⟨hcomment, hless⟩ := passes_commentLine hx
      exact ⟨hmoved _, ⟨hpass.trans hcomment, rfl, rfl, rfl, rfl⟩,
        Nat.lt_of_lt_of_le hless hpass.length_le⟩
    · split
      · next hreturn =>
        have hblank : x ∈ [' ', '\t', '\x0c', '\r', '\n'] := by
          simp only [Bool.or_eq_true, decide_eq_true_eq] at hreturn
          rcases hreturn with rfl | rfl <;> decide
        have hless := (reads_skip hx).length
        refine ⟨hmoved _, ⟨hpass.trans (passes_blank hx hblank), rfl, rfl, rfl, rfl⟩, ?_⟩
        rw [List.length_singleton] at hless
        show (lx.cursor.takeWhile isIndentation).2.skip.rest.length < _
        omega
      · refine changeBlocks_outcome hv hpending hfinished hline hpass fun hw => ?_
        -- a line of some width has some blank in front
        have hblanks : (lx.cursor.takeWhile isIndentation).1 ≠ [] := fun h => by
          rw [h] at hw
          exact absurd hw (Nat.lt_irrefl 0)
        have := List.length_pos_iff.mpr hblanks
        omega

end MysToCpp.Lexer
