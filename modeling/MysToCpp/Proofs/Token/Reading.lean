/-
# Reading a line of known text

The lemmas about runs of the lexer go from the tokens to the text.  This file goes the other way, for
texts of one line: it says which tokens a known text has.  `Lexer.Within lx rest stack` is a lexer
inside of the line, with `rest` to be read and the brackets `stack` open; `Lexes` says that from every
such lexer some tokens are given up to another place of the line.  What is known about single tokens
(`ScansTo`) is put together by `Lexes.trans`, and `tokenize_lexed` closes the line.

Where tokens stand never matters here, so that everything is stated on their kinds.
-/
import MysToCpp.Proofs.Token.Run

namespace MysToCpp

namespace Cursor

theorem rest_skip {c : Cursor} {x : Char} {more : List Char} (h : c.rest = x :: more) :
    c.skip.rest = more := by
  simp [skip, next?, h]

theorem peek?_of_rest {c : Cursor} {x : Char} {more : List Char} (h : c.rest = x :: more) :
    c.peek? = some x := by
  simp [peek?, h]

end Cursor

namespace Lexer

open Cursor (rest_skip peek?_of_rest)

section

variable [Text.IdentifierTable]

/-- The lexer gives `ts`, one call after the other. -/
inductive Gives : Lexer → List Token → Lexer → Prop
  | nil (lx : Lexer) : Gives lx [] lx
  | cons {lx lx₁ lx₂ : Lexer} {t : Token} {ts : List Token} : lx.next = (some t, lx₁) →
      Gives lx₁ ts lx₂ → Gives lx (t :: ts) lx₂

theorem Gives.append {lx lx₁ lx₂ : Lexer} {ts us : List Token} (h₁ : lx.Gives ts lx₁)
    (h₂ : lx₁.Gives us lx₂) : lx.Gives (ts ++ us) lx₂ := by
  induction h₁ with
  | nil => exact h₂
  | cons hnext _ ih => exact .cons hnext (ih h₂)

/-- Every token makes the lexer lighter, so that the fuel is enough for what it gives. -/
theorem Gives.readAll {lx lx₁ lx₂ : Lexer} {ts : List Token} (h : lx.Gives ts lx₁)
    (hstop : lx₁.next = (none, lx₂)) :
    ∀ fuel, lx.Valid → lx.weight < fuel → readAll fuel lx = (ts, lx₂) := by
  induction h with
  | nil lx =>
      intro fuel _ hfuel
      obtain ⟨fuel, rfl⟩ : ∃ k, fuel = k + 1 := ⟨fuel - 1, by omega⟩
      simp [Lexer.readAll, hstop]
  | @cons lx lx₁ lx₂ t ts hnext _ ih =>
      intro fuel hv hfuel
      obtain ⟨fuel, rfl⟩ : ∃ k, fuel = k + 1 := ⟨fuel - 1, by omega⟩
      obtain ⟨hv₁, he⟩ := next_emits hv hnext
      have hless := he.lighter
      simp [Lexer.readAll, hnext, ih hstop fuel hv₁ (by omega)]

/-- The lexer is inside of the only line of a text, with `rest` to be read and `stack` open. -/
structure Within (lx : Lexer) (rest stack : List Char) : Prop where
  valid : lx.Valid
  rest : lx.cursor.rest = rest
  brackets : lx.layout.brackets = stack
  widths : lx.layout.widths = [0]
  pending : lx.pending = []
  unfinished : lx.finished = false
  inside : lx.atLineStart = false

theorem Within.next_eq {lx : Lexer} {rest stack : List Char} (h : lx.Within rest stack)
    {token : Option Token} {lx' : Lexer} (hread : lx.readOn = .answer token lx') :
    lx.next = (token, lx') := by
  simp [next, h.pending, h.unfinished, h.valid.noError, search, h.inside, hread]

end

/-! ## Gaps -/

/-- A character that starts something to be scanned. -/
def startsToken (x : Char) : Bool := !isGap x && x ≠ '#' && x ≠ '\n' && x ≠ '\\'

theorem ne_of_class {p : Char → Bool} {x y : Char} (hx : p x = true) (hy : p y = false) : x ≠ y := by
  rintro rfl
  exact Bool.false_ne_true (hy.symm.trans hx)

/-- The characters of a class start tokens if it has no blanks, and none that starts a comment, ends a line
or continues one. -/
theorem startsToken_of_class {p : Char → Bool} {x : Char} (hx : p x = true)
    (hp : [' ', '\t', '\x0c', '\r', '#', '\n', '\\'].any p = false) : startsToken x = true := by
  have hne : ∀ y ∈ [' ', '\t', '\x0c', '\r', '#', '\n', '\\'], x ≠ y := fun y hy =>
    ne_of_class hx (eq_false_of_ne_true (List.any_eq_false.mp hp y hy))
  simp only [List.mem_cons, List.not_mem_nil, or_false, forall_eq_or_imp, forall_eq] at hne
  simp [startsToken, isGap, hne]

theorem rest_skipGaps (inBrackets : Bool) {gap more : List Char} {x : Char}
    (hgap : ∀ y ∈ gap, isGap y = true) (hx : startsToken x = true) :
    ∀ (fuel : Nat) (c : Cursor), c.rest = gap ++ x :: more → gap.length ≤ fuel →
      (skipGaps inBrackets fuel c).rest = x :: more := by
  simp only [startsToken, Bool.and_eq_true, Bool.not_eq_true', decide_eq_true_eq] at hx
  induction gap with
  | nil =>
      intro fuel c hrest _
      cases fuel with
      | zero => exact hrest
      | succ fuel => simp [skipGaps, peek?_of_rest hrest, hx, hrest]
  | cons y gap ih =>
      intro fuel c hrest hfuel
      obtain ⟨fuel, rfl⟩ : ∃ k, fuel = k + 1 := ⟨fuel - 1, by simp at hfuel; omega⟩
      have hy := hgap y List.mem_cons_self
      have hpeek : c.peek? = some y := peek?_of_rest hrest
      have hskip : c.skip.rest = gap ++ x :: more := rest_skip hrest
      simp only [skipGaps, hpeek, hy, Bool.true_or, if_true]
      exact ih (fun z hz => hgap z (.tail _ hz)) fuel c.skip hskip (by simpa using hfuel)

section

variable [Text.IdentifierTable]

/-! ## Tokens -/

/-- Behind `x` and in front of `more`, with `stack` open, a token of this kind is scanned up to `rest`,
and then `stack'` is open. -/
def ScansTo (x : Char) (more stack : List Char) (kind : TokenKind) (rest stack' : List Char) : Prop :=
  ∀ lx : Lexer, lx.cursor.rest = more → lx.layout.brackets = stack → ∃ c : Cursor, c.rest = rest ∧
    lx.scanToken x = (some ⟨kind, ⟨lx.start, c.position⟩⟩,
      { lx with cursor := c, layout := { lx.layout with brackets := stack' } })

/-- In front of `cs`, with `stack` open, tokens of the kinds `ks` are given up to `cs'`, and then `stack'`
is open. -/
def Lexes (cs stack : List Char) (ks : List TokenKind) (cs' stack' : List Char) : Prop :=
  ∀ lx : Lexer, lx.Within cs stack → ∃ ts lx', lx.Gives ts lx' ∧ ts.map (·.kind) = ks ∧
    lx'.Within cs' stack' ∧ (lx.lineHasTokens = true ∨ ks ≠ [] → lx'.lineHasTokens = true)

theorem Lexes.refl (cs stack : List Char) : Lexes cs stack [] cs stack := by
  intro lx hlx
  refine ⟨[], lx, .nil lx, rfl, hlx, ?_⟩
  rintro (hline | hne)
  · exact hline
  · exact absurd rfl hne

theorem Lexes.trans {cs cs₁ cs₂ stack stack₁ stack₂ : List Char} {ks ks₁ : List TokenKind}
    (h₁ : Lexes cs stack ks cs₁ stack₁) (h₂ : Lexes cs₁ stack₁ ks₁ cs₂ stack₂) :
    Lexes cs stack (ks ++ ks₁) cs₂ stack₂ := by
  intro lx hlx
  obtain ⟨ts, lx₁, hgives, hts, hwithin, hline⟩ := h₁ lx hlx
  obtain ⟨us, lx₂, hgives₂, hus, hwithin₂, hline₂⟩ := h₂ lx₁ hwithin
  refine ⟨ts ++ us, lx₂, hgives.append hgives₂, by rw [List.map_append, hts, hus], hwithin₂, ?_⟩
  intro hopen
  by_cases hks : ks₁ = []
  · refine hline₂ (.inl (hline (hopen.imp_right fun hne => ?_)))
    rwa [hks, List.append_nil] at hne
  · exact hline₂ (.inr hks)

theorem ScansTo.lexes_behind {x : Char} {gap more stack rest stack' : List Char} {kind : TokenKind}
    (h : ScansTo x more stack kind rest stack') (hgap : ∀ y ∈ gap, isGap y = true)
    (hx : startsToken x = true) : Lexes (gap ++ x :: more) stack [kind] rest stack' := by
  intro lx hlx
  have hfuel : gap.length ≤ lx.cursor.rest.length := by
    rw [hlx.rest, List.length_append]
    exact Nat.le_add_right _ _
  have hskip := rest_skipGaps lx.layout.inBrackets hgap hx _ lx.cursor hlx.rest hfuel
  generalize hc : skipGaps lx.layout.inBrackets lx.cursor.rest.length lx.cursor = c at hskip
  obtain ⟨c', hrest, hscan⟩ := h ((lx.moveTo c).markStart.moveTo ⟨more, c.position.after x⟩) rfl
    hlx.brackets
  have hread : lx.readOn = .answer (some ⟨kind, ⟨c.position, c'.position⟩⟩)
      { lx with
        start := c.position
        cursor := c'
        layout := { lx.layout with brackets := stack' }
        lineHasTokens := true } := by
    simp only [startsToken, Bool.and_eq_true, decide_eq_true_eq] at hx
    have hnext : c.next? = some (x, ⟨more, c.position.after x⟩) := by simp [Cursor.next?, hskip]
    simp only [readOn, hc, hnext, hx, if_false, hscan]
    rfl
  have hnext := hlx.next_eq hread
  refine ⟨[_], _, .cons hnext (.nil _), rfl, ?_, fun _ => rfl⟩
  exact ⟨(next_emits hlx.valid hnext).1, hrest, rfl, hlx.widths, hlx.pending, hlx.unfinished, hlx.inside⟩

theorem ScansTo.lexes {x : Char} {more stack rest stack' : List Char} {kind : TokenKind}
    (h : ScansTo x more stack kind rest stack') (hx : startsToken x = true) :
    Lexes (x :: more) stack [kind] rest stack' := by
  have hnone : ∀ y ∈ ([] : List Char), isGap y = true := nofun
  exact h.lexes_behind hnone hx

/-! ## The whole line -/

/-- Behind the last token the line is ended, and then the lexer gives nothing more. -/
theorem Within.finish {lx : Lexer} (h : lx.Within [] []) (hline : lx.lineHasTokens = true) :
    ∃ t lx₁, lx.next = (some t, lx₁) ∧ t.kind = .newline ∧ lx₁.next = (none, lx₁) ∧
      lx₁.error = none := by
  have hgaps : skipGaps lx.layout.inBrackets lx.cursor.rest.length lx.cursor = lx.cursor := by
    rw [h.rest]
    rfl
  have hend : lx.cursor.next? = none := by simp [Cursor.next?, h.rest]
  have hread : lx.readOn = .answer (some ⟨.newline, .empty lx.position⟩)
      ((lx.moveTo lx.cursor).markStart.closed 0) := by
    simp [readOn, hgaps, hend, Lexer.finish, markStart, moveTo, Layout.innermost?, h.brackets, hline,
      Layout.closeAll, closed, token, span, Span.empty, position, h.widths]
  refine ⟨_, _, h.next_eq hread, rfl, ?_, h.valid.noError⟩
  simp [next, closed]

end

theorem startsToken_code {x : Char} (hx : startsToken x = true) :
    isIndentation x = false ∧ x ∉ ['#', '\n', '\r'] := by
  simp only [startsToken, isGap, Bool.and_eq_true, Bool.not_eq_true', Bool.or_eq_false_iff,
    decide_eq_true_eq, decide_eq_false_iff_not] at hx
  refine ⟨by simp [isIndentation, hx], by simp [hx]⟩

theorem beginLine_ofText {text : String} {x : Char} {more : List Char} (htext : text.toList = x :: more)
    (hx : isIndentation x = false) (hcode : x ∉ ['#', '\n', '\r']) :
    (ofText text).beginLine = .code none { ofText text with atLineStart := false } := by
  have hblanks : (ofText text).cursor.takeWhile isIndentation = ([], ⟨x :: more, .origin⟩) := by
    simp [Cursor.takeWhile, ofText, htext, hx]
  simp only [List.mem_cons, List.not_mem_nil, or_false, not_or] at hcode
  unfold beginLine
  rw [hblanks]
  simp [Cursor.peek?, moveTo, hcode, changeBlocks, markStart, position, ofText, Layout.changeIndent,
    Layout.width, htext]

variable [Text.IdentifierTable]

theorem next_ofText {text : String} {x : Char} {more : List Char} (htext : text.toList = x :: more)
    (hx : isIndentation x = false) (hcode : x ∉ ['#', '\n', '\r']) :
    (ofText text).next = ({ ofText text with atLineStart := false } : Lexer).next := by
  have hstart : ((ofText text).atLineStart && !(ofText text).layout.inBrackets) = true := rfl
  simp only [next, search, hstart, if_true, beginLine_ofText htext hx hcode]
  rfl

end Lexer

open Lexer (Lexes startsToken isIndentation)

variable [Text.IdentifierTable]

/-- A line whose tokens are known has them, with the end of the line and of the text behind. -/
theorem tokenize_lexed {text : String} {ks : List TokenKind} {x : Char} {more : List Char}
    (htext : text.toList = x :: more) (hx : isIndentation x = false) (hcode : x ∉ ['#', '\n', '\r'])
    (h : Lexes text.toList [] ks [] []) (hks : ks ≠ []) :
    ∃ ts, tokenize text = .ok ts ∧ ts.map (·.kind) = ks ++ [.newline, .endOfFile] := by
  have hvalid := Lexer.valid_ofText text
  have hwithin : ({ Lexer.ofText text with atLineStart := false } : Lexer).Within text.toList [] :=
    ⟨Lexer.valid_of_reading rfl rfl rfl (fun _ => rfl) nofun rfl, rfl, rfl, rfl, rfl, rfl, rfl⟩
  obtain ⟨ts, lx, hgives, hts, hlast, hline⟩ := h _ hwithin
  obtain ⟨newline, lx₁, hnewline, hkind, hstop, herror⟩ := hlast.finish (hline (.inr hks))
  have hfirst : (Lexer.ofText text).Gives ts lx := by
    cases hgives with
    | nil => exact absurd hts.symm hks
    | cons hnext hmore => exact .cons ((Lexer.next_ofText htext hx hcode).trans hnext) hmore
  have hall := hfirst.append (.cons hnewline (.nil lx₁))
  have hrun : Lexer.run text = (ts ++ [newline], lx₁) := by
    refine hall.readAll hstop _ hvalid ?_
    rw [Lexer.weight_ofText]
    exact Nat.lt_succ_self _
  refine ⟨ts ++ [newline] ++ [⟨.endOfFile, .empty lx₁.position⟩], by simp [tokenize, hrun, herror], ?_⟩
  simp [hts, hkind]

end MysToCpp
