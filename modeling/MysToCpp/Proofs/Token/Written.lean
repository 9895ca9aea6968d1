/-
# Where tokens are written

The search for a token passes blank lines, continued lines and gaps, until it comes to a character that a
token starts with (`Lexer.ComesTo`).  Either the token is scanned there, or there is an error and the text has
no tokens (`tokenize_refused`).  So every token of a text that is not layout was scanned at its place in
the text (`tokenize_written`): by the scanner that its first character asks for, or it is a mark
(`Lexer.scanToken_cases`).
-/
import MysToCpp.Proofs.Token.Finds
import MysToCpp.Proofs.Token.Literal

namespace MysToCpp

namespace Lexer

open Cursor (reads_next)
open Text (isDigit isIdentifierStart isIdentifierChar)
open Token (IsQuote scanLeadingDot scanNumber scanString)

variable [Text.IdentifierTable] {lx lx' lx₁ lx₂ : Lexer} {x : Char} {t : Token} {source : List Char}

/-- The search comes to a token: `x` is its first character, and `lx'` has read it. -/
inductive ComesTo : Lexer → Char → Lexer → Prop
  | here {lx : Lexer} {x : Char} {c : Cursor} : lx.beginsLine = false →
      lx.gapEnd.next? = some (x, c) → x ≠ '\n' → x ≠ '\\' → ComesTo lx x (lx.atToken c)
  /-- Behind a line without a token. -/
  | blank {lx lx₁ lx₂ : Lexer} {x : Char} : lx.beginsLine = true → lx.beginLine = .blank lx₁ →
      ComesTo lx₁ x lx₂ → ComesTo lx x lx₂
  /-- Behind the indentation of a line that goes on with the same block. -/
  | code {lx lx₁ lx₂ : Lexer} {x : Char} : lx.beginsLine = true → lx.beginLine = .code none lx₁ →
      lx₁.error = none → ComesTo lx₁ x lx₂ → ComesTo lx x lx₂
  /-- Behind a line end that is no token. -/
  | skipped {lx lx₁ lx₂ : Lexer} {x : Char} : lx.beginsLine = false → lx.readOn = .skipped lx₁ →
      ComesTo lx₁ x lx₂ → ComesTo lx x lx₂

theorem ComesTo.passes (h : lx.ComesTo x lx') : lx.Searching →
    ∃ c, lx.cursor.Passes c ∧ c.Reads [x] lx'.cursor ∧ lx'.start = c.position := by
  induction h with
  | here _ hx =>
      intro _
      exact ⟨_, passes_gapEnd _, reads_next hx, rfl⟩
  | blank hbegins hblank _ ih =>
      intro hs
      obtain ⟨hs₁, hskips, -⟩ := hs.blank hbegins hblank
      obtain ⟨c, hpass, hrest⟩ := ih hs₁
      exact ⟨c, hskips.passes.trans hpass, hrest⟩
  | code hbegins hcode herror _ ih =>
      intro hs
      obtain ⟨hs₁, hskips, -⟩ := hs.code hbegins hcode herror
      obtain ⟨c, hpass, hrest⟩ := ih hs₁
      exact ⟨c, hskips.passes.trans hpass, hrest⟩
  | skipped hbegins hskipped _ ih =>
      intro hs
      obtain ⟨hs₁, hskips, -⟩ := hs.skipped hbegins hskipped
      obtain ⟨c, hpass, hrest⟩ := ih hs₁
      exact ⟨c, hskips.passes.trans hpass, hrest⟩

theorem ComesTo.finds {token : Option Token} (h : lx.ComesTo x lx₁)
    (hscan : lx₁.scanToken x = (token, lx₂)) :
    lx.Finds (token, { lx₂ with lineHasTokens := token.isSome || lx₂.lineHasTokens }) := by
  induction h with
  | here hbegins hx hfeed hbackslash =>
      refine .answer hbegins ?_
      rw [readOn_token hx hfeed hbackslash, hscan]
      cases token <;> rfl
  | blank hbegins hblank _ ih => exact .blank hbegins hblank (ih hscan)
  | code hbegins hcode herror _ ih => exact .code hbegins hcode herror (ih hscan)
  | skipped hbegins hskipped _ ih => exact .skipped hbegins hskipped (ih hscan)

omit [Text.IdentifierTable] in
theorem gapEnd_of_startsToken {more : List Char} (hrest : lx.cursor.rest = x :: more)
    (hx : startsToken x = true) : lx.gapEnd = lx.cursor := by
  simp only [startsToken, Bool.and_eq_true, Bool.not_eq_true', decide_eq_true_eq] at hx
  rw [gapEnd, hrest, List.length_cons]
  simp [skipGaps, Cursor.peek?_of_rest hrest, hx]

theorem comesTo_ofText {text : String} {more : List Char} (htext : text.toList = x :: more)
    (hx : startsToken x = true) :
    ∃ lx, (ofText text).ComesTo x lx ∧ lx.cursor = ⟨more, Position.origin.after x⟩ ∧
      lx.start = .origin ∧ lx.layout = {} := by
  obtain ⟨hindentation, hcode⟩ := startsToken_code hx
  have hbegin := beginLine_ofText htext hindentation hcode
  have hrest : ({ ofText text with atLineStart := false } : Lexer).cursor.rest = x :: more := htext
  have hgap := gapEnd_of_startsToken hrest hx
  have hnext : ({ ofText text with atLineStart := false } : Lexer).gapEnd.next? =
      some (x, ⟨more, Position.origin.after x⟩) := by
    rw [hgap]
    simp [Cursor.next?, ofText, htext]
  simp only [startsToken, Bool.and_eq_true, decide_eq_true_eq] at hx
  refine ⟨_, .code rfl hbegin rfl (.here rfl hnext hx.1.2 hx.2), rfl, ?_, rfl⟩
  show Cursor.position (gapEnd _) = _
  rw [hgap]
  rfl

/-! ## Tokens that are no layout -/

omit [Text.IdentifierTable] in
theorem layout_of_beginLine (h : lx.beginLine = .code (some t) lx₁) : t.kind.isLayout = true := by
  unfold beginLine at h
  dsimp only at h
  split at h
  · cases h
  · split at h
    · cases h
    · split at h
      · cases h
      · unfold changeBlocks at h
        dsimp only at h
        split at h <;> cases h <;> rfl

/-- A token inside of a line that is no layout was scanned behind a gap. -/
theorem scanToken_of_readOn (h : lx.readOn = .answer (some t) lx₁)
    (hlayout : t.kind.isLayout = false) : ∃ x c lx₂, lx.gapEnd.next? = some (x, c) ∧ x ≠ '\n' ∧
      x ≠ '\\' ∧ (lx.atToken c).scanToken x = (some t, lx₂) ∧
      lx₁ = { lx₂ with lineHasTokens := true } := by
  cases hx : lx.gapEnd.next? with
  | none =>
      rw [readOn_end hx] at h
      injection h with htoken hlexer
      have hended := (finish_some (Prod.ext htoken hlexer)).1
      exact absurd (hlayout.symm.trans hended) Bool.false_ne_true
  | some next =>
      obtain ⟨x, c⟩ := next
      by_cases hfeed : x = '\n'
      · subst hfeed
        rw [readOn_newline hx] at h
        unfold endLine at h
        dsimp only at h
        split at h <;> cases h
        cases hlayout
      by_cases hbackslash : x = '\\'
      · subst hbackslash
        rw [readOn_backslash hx] at h
        exact absurd (continueLine_answer h).1 nofun
      · rw [readOn_token hx hfeed hbackslash] at h
        cases hanswer : (lx.atToken c).scanToken x with
        | mk token lx₂ =>
            rw [hanswer] at h
            cases token with
            | none => cases h
            | some u =>
                cases h
                exact ⟨x, c, lx₂, rfl, hfeed, hbackslash, hanswer, rfl⟩

theorem Finds.comesTo (h : lx.Finds (some t, lx')) (hlayout : t.kind.isLayout = false) :
    ∃ x lx₁ lx₂, lx.ComesTo x lx₁ ∧ lx₁.scanToken x = (some t, lx₂) ∧
      lx' = { lx₂ with lineHasTokens := true } := by
  generalize hanswer : (some t, lx') = answer at h
  induction h with
  | blank hbegins hblank _ ih =>
      obtain ⟨x, lx₁, lx₂, hcomes, hscan⟩ := ih hanswer
      exact ⟨x, lx₁, lx₂, .blank hbegins hblank hcomes, hscan⟩
  | atEnd =>
      have hended := (finish_some hanswer.symm).1
      exact absurd (hlayout.symm.trans hended) Bool.false_ne_true
  | layout _ hbegin =>
      cases hanswer
      exact absurd (hlayout.symm.trans (layout_of_beginLine hbegin)) Bool.false_ne_true
  | code hbegins hcode herror _ ih =>
      obtain ⟨x, lx₁, lx₂, hcomes, hscan⟩ := ih hanswer
      exact ⟨x, lx₁, lx₂, .code hbegins hcode herror hcomes, hscan⟩
  | skipped hbegins hskipped _ ih =>
      obtain ⟨x, lx₁, lx₂, hcomes, hscan⟩ := ih hanswer
      exact ⟨x, lx₁, lx₂, .skipped hbegins hskipped hcomes, hscan⟩
  | answer hbegins hread =>
      cases hanswer
      obtain ⟨x, c, lx₂, hx, hfeed, hbackslash, hscan⟩ := scanToken_of_readOn hread hlayout
      exact ⟨x, _, lx₂, .here hbegins hx hfeed hbackslash, hscan⟩

/-- A token that is no layout is given while the lexer searches. -/
theorem Valid.searching_of_next (hv : lx.Valid) (h : lx.next = (some t, lx'))
    (hlayout : t.kind.isLayout = false) : lx.Searching := by
  have hpending : lx.pending = [] := by
    cases hpending : lx.pending with
    | nil => rfl
    | cons u waiting =>
        have hu : u = ⟨.dedent, .empty lx.position⟩ :=
          hv.pending u (by rw [hpending]; exact List.mem_cons_self)
        simp only [next, hpending] at h
        cases h
        rw [hu] at hlayout
        cases hlayout
  refine ⟨hv, hpending, ?_⟩
  cases hfinished : lx.finished with
  | false => rfl
  | true =>
      simp only [next, hpending, hfinished, Bool.true_or, if_true] at h
      cases h

/-! ## The scanners -/

theorem scanDot_cases {c c' : Cursor} {kind : TokenKind} (h : scanDot c = (.ok kind, c')) :
    scanLeadingDot c = (.ok kind, c') ∨ ∃ p, kind = .punct p := by
  unfold scanDot at h
  split at h
  · exact .inl h
  · split at h <;>
      · cases h
        exact .inr ⟨_, rfl⟩

/-- A token comes from one of four scanners, by its first character, or it is a mark. -/
theorem scanToken_cases (h : lx.scanToken x = (some t, lx')) :
    (isIdentifierStart x = true ∧ scanWord x lx.cursor = (.ok t.kind, lx'.cursor)) ∨
    (isDigit x = true ∧ scanNumber x lx.cursor = (.ok t.kind, lx'.cursor)) ∨
    (IsQuote x ∧ scanString {} x lx.cursor = (.ok t.kind, lx'.cursor)) ∨
    (x = '.' ∧ scanLeadingDot lx.cursor = (.ok t.kind, lx'.cursor)) ∨ ∃ p, t.kind = .punct p := by
  have hscanned {scanned : Token.Scanned} (h : lx.accept scanned = (some t, lx')) :
      scanned = (.ok t.kind, lx'.cursor) := by
    obtain ⟨kind, c, hscan, rfl, rfl⟩ := accept_eq_some h
    exact hscan
  have hmark {lx : Lexer} {p : Punct} {c : Cursor} (h : lx.accept (.ok (.punct p), c) = (some t, lx')) :
      ∃ p, t.kind = .punct p := by
    cases h
    exact ⟨p, rfl⟩
  unfold scanToken at h
  split at h
  · next hstart => exact .inl ⟨hstart, hscanned h⟩
  · split at h
    · next hdigit => exact .inr (.inl ⟨hdigit, hscanned h⟩)
    · split at h
      · next hquote => exact .inr (.inr (.inl ⟨by simpa [IsQuote] using hquote, hscanned h⟩))
      · split at h
        · next hdot => exact .inr (.inr (.inr ((scanDot_cases (hscanned h)).imp_left fun h => ⟨hdot, h⟩)))
        · refine .inr (.inr (.inr (.inr ?_)))
          split at h
          · exact hmark h
          · split at h
            · split at h
              · exact hmark h
              · cases h
            · split at h
              · exact hmark h
              · cases h

theorem scanWord_cases {first : Char} {c c' : Cursor} {kind : TokenKind}
    (h : scanWord first c = (.ok kind, c')) :
    kind = .ofWord (String.ofList (first :: (c.takeWhile isIdentifierChar).1)) ∨
      ∃ quote form, IsQuote quote ∧ (c.takeWhile isIdentifierChar).2.peek? = some quote ∧
        Token.StringForm.ofMarkers? (first :: (c.takeWhile isIdentifierChar).1) = some form ∧
          scanString form quote (c.takeWhile isIdentifierChar).2.skip = (.ok kind, c') := by
  have hplain {word : String} {c₁ : Cursor}
      (h : (Except.ok (TokenKind.ofWord word), c₁) = ((.ok kind, c') : Token.Scanned)) :
      kind = .ofWord word := (Except.ok.inj (Prod.mk.inj h).1).symm
  unfold scanWord at h
  dsimp only at h
  split at h
  · next quote hpeek =>
    split at h
    · next hquote =>
      split at h
      · next form hform => exact .inr ⟨quote, form, by simpa [IsQuote] using hquote, hpeek, hform, h⟩
      · exact .inl (hplain h)
    · exact .inl (hplain h)
  · exact .inl (hplain h)

theorem scanToken_number (h : lx.scanToken x = (some t, lx')) (hnumber : t.kind.isNumber = true) :
    (isDigit x = true ∧ scanNumber x lx.cursor = (.ok t.kind, lx'.cursor)) ∨
      (x = '.' ∧ scanLeadingDot lx.cursor = (.ok t.kind, lx'.cursor)) := by
  have hstring {form : Token.StringForm} {quote : Char} {c : Cursor}
      (h : scanString form quote c = (.ok t.kind, lx'.cursor)) : False := by
    have htext := Token.isText_scanString (congrArg Prod.fst h)
    cases hkind : t.kind <;> rw [hkind] at htext hnumber <;> cases htext <;> cases hnumber
  rcases scanToken_cases h with ⟨-, hword⟩ | hdigit | ⟨-, hscan⟩ | hdot | ⟨p, hp⟩
  · rcases scanWord_cases hword with hplain | ⟨_, _, -, -, -, hscan⟩
    · rw [hplain, TokenKind.ofWord] at hnumber
      split at hnumber <;> cases hnumber
    · exact (hstring hscan).elim
  · exact .inl hdigit
  · exact (hstring hscan).elim
  · exact .inr hdot
  · rw [hp] at hnumber
    cases hnumber

end Lexer

/-! ## Whole texts -/

open Lexer (Searching ComesTo)

variable [Text.IdentifierTable]

/-- A token that is no layout was scanned in the text: `text` stands under it, in front of `text` the
scanner was given its first character, and it stopped at the end of the token. -/
theorem tokenize_scanned {source : String} {ts : List Token} {t : Token}
    (h : tokenize source = .ok ts) (ht : t ∈ ts) (hlayout : t.kind.isLayout = false) :
    ∃ (x : Char) (text : List Char) (lx lx' : Lexer), lx.scanToken x = (some t, lx') ∧
      lx.cursor.Reads text lx'.cursor ∧ t.textIn source = some (x :: text) ∧
        lx'.cursor.Stands source.toList ∧ t.span.stop = lx'.position := by
  obtain ⟨init, last, hruns, rfl⟩ := tokenize_eq_ok.mp h
  have hmem : t ∈ init := by
    rcases List.mem_append.mp ht with hmem | hend
    · exact hmem
    · rw [List.mem_singleton.mp hend] at hlayout
      cases hlayout
  obtain ⟨before, after, rfl⟩ := List.append_of_mem hmem
  obtain ⟨lx, lx', hgives, hnext, -⟩ := hruns.split
  have hstart : (Lexer.ofText source).cursor.Stands source.toList := ⟨[], rfl, rfl⟩
  obtain ⟨hv, hstands⟩ := hgives.stands (Lexer.valid_ofText source) hstart
  have hs := hv.searching_of_next hnext hlayout
  have hnoError := (Lexer.next_emits hv hnext).1.noError
  obtain ⟨x, lx₁, lx₂, hcomes, hscan, rfl⟩ := (hs.finds hnext hnoError).comesTo hlayout
  obtain ⟨c, ⟨gap, -, hgap⟩, hx, hat⟩ := hcomes.passes hs
  have hout := Lexer.scanToken_outcome x lx₁
  rw [hscan] at hout
  obtain ⟨text, c', stack, rfl, hreads, hspan, -⟩ := hout
  obtain ⟨hstop, -, hslice⟩ := (hstands.reads hgap).1.reads (hx.trans hreads)
  refine ⟨x, text, lx₁, _, hscan, hreads, ?_, hstop, by rw [hspan]; rfl⟩
  rw [Token.textIn, hspan, hat]
  exact hslice

theorem tokenize_written {source : String} {ts : List Token} {t : Token}
    (h : tokenize source = .ok ts) (ht : t ∈ ts) (hlayout : t.kind.isLayout = false) :
    ∃ (x : Char) (text : List Char) (lx lx' : Lexer), lx.scanToken x = (some t, lx') ∧
      lx.cursor.Reads text lx'.cursor ∧ t.textIn source = some (x :: text) := by
  obtain ⟨x, text, lx, lx', hscan, hreads, htext, -⟩ := tokenize_scanned h ht hlayout
  exact ⟨x, text, lx, lx', hscan, hreads, htext⟩

theorem tokenize_refused {source : String} {before : List Token} {lx lx₁ lx₂ : Lexer} {x : Char}
    {e : LexError} (hgives : (Lexer.ofText source).Gives before lx) (hs : lx.Searching)
    (hcomes : lx.ComesTo x lx₁) (hscan : lx₁.scanToken x = (none, lx₂)) (herror : lx₂.error = some e) :
    tokenize source = .error e := by
  have hstop : lx.next = (none, lx₂) := (hcomes.finds hscan).next hs
  have hfuel : (Lexer.ofText source).weight < 2 * source.length + 1 := by
    rw [Lexer.weight_ofText]
    exact Nat.lt_succ_self _
  have hrun : Lexer.run source = (before, lx₂) :=
    hgives.readAll hstop _ (Lexer.valid_ofText source) hfuel
  unfold tokenize
  dsimp only
  rw [hrun, herror]

end MysToCpp
