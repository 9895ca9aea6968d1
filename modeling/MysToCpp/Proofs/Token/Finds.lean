/-
# How the lexer finds a token

`Lexer.search` counts the lines that it passes.  `Lexer.Finds lx answer` is the same search without the
count: it goes over lines without a token and over continued lines until there is an answer.  `Lexer.Runs`
is a whole run, one answer after the other up to the end of the text.  Two runs are compared by induction
on them.
-/
import MysToCpp.Proofs.Token.Lossless
import MysToCpp.Proofs.Token.Reading

namespace MysToCpp

namespace Lexer

open Cursor (reads_skip rest_skip peek?_of_rest)

/-- Whether the indentation of a line is looked at next. -/
def beginsLine (lx : Lexer) : Bool := lx.atLineStart && !lx.layout.inBrackets

/-- The search for the next token comes to an answer. -/
inductive Finds [Text.IdentifierTable] : Lexer → Option Token × Lexer → Prop
  /-- Behind a line without a token. -/
  | blank {lx lx₁ : Lexer} {answer : Option Token × Lexer} : lx.beginsLine = true →
      lx.beginLine = .blank lx₁ → Finds lx₁ answer → Finds lx answer
  | atEnd {lx lx₁ : Lexer} : lx.beginsLine = true → lx.beginLine = .atEnd lx₁ → Finds lx lx₁.finish
  /-- A block is opened or closed. -/
  | layout {lx lx₁ : Lexer} {t : Token} : lx.beginsLine = true →
      lx.beginLine = .code (some t) lx₁ → Finds lx (some t, lx₁)
  /-- The line goes on with the same block. -/
  | code {lx lx₁ : Lexer} {answer : Option Token × Lexer} : lx.beginsLine = true →
      lx.beginLine = .code none lx₁ → lx₁.error = none → Finds lx₁ answer → Finds lx answer
  /-- Behind a line end that is no token. -/
  | skipped {lx lx₁ : Lexer} {answer : Option Token × Lexer} : lx.beginsLine = false →
      lx.readOn = .skipped lx₁ → Finds lx₁ answer → Finds lx answer
  | answer {lx lx₁ : Lexer} {token : Option Token} : lx.beginsLine = false →
      lx.readOn = .answer token lx₁ → Finds lx (token, lx₁)

/-- What a lexer is like while it searches. -/
structure Searching (lx : Lexer) : Prop where
  valid : lx.Valid
  pending : lx.pending = []
  unfinished : lx.finished = false

section Searching

variable {lx lx₁ : Lexer}

theorem Searching.skips (h : lx.Searching) (hv : lx₁.Valid) (hskips : lx.Skips lx₁) :
    lx₁.Searching :=
  ⟨hv, hskips.pending.trans h.pending, hskips.finished.trans h.unfinished⟩

theorem Searching.moved (h : lx.Searching) (c : Cursor) : (lx.moveTo c).Searching :=
  ⟨h.valid.moved h.pending h.unfinished c, h.pending, h.unfinished⟩

theorem Searching.beginsLine (h : lx.Searching) (hbegins : lx.beginsLine = true) :
    lx.atLineStart = true ∧ lx.lineHasTokens = false := by
  have hstart : lx.atLineStart = true := (Bool.and_eq_true_iff.mp hbegins).1
  refine ⟨hstart, ?_⟩
  cases hline : lx.lineHasTokens with
  | false => rfl
  | true =>
      rw [h.valid.lineStart hline] at hstart
      cases hstart

/-- Inside of a line the lexer is not at its start: brackets are open only there. -/
theorem Searching.atLineStart (h : lx.Searching) (hbegins : lx.beginsLine = false) :
    lx.atLineStart = false := by
  cases hstart : lx.atLineStart with
  | false => rfl
  | true =>
      have hline : lx.lineHasTokens = false := by
        cases hline : lx.lineHasTokens with
        | false => rfl
        | true =>
            rw [h.valid.lineStart hline] at hstart
            cases hstart
      simp [Lexer.beginsLine, hstart, Layout.inBrackets, h.valid.brackets hline] at hbegins

theorem Searching.insideLine (h : lx.Searching) (hopen : lx.lineHasTokens = true) :
    lx.beginsLine = false := by
  rw [Lexer.beginsLine, h.valid.lineStart hopen, Bool.false_and]

/-- Where a line is open nothing waits and the text has not ended. -/
theorem Valid.searching (hv : lx.Valid) (hopen : lx.lineHasTokens = true) : lx.Searching := by
  refine ⟨hv, ?_, ?_⟩
  · cases hpending : lx.pending with
    | nil => rfl
    | cons t waiting =>
        have hended := hv.pendingLine (by rw [hpending]; exact List.cons_ne_nil _ _)
        rw [hopen] at hended
        cases hended
  · cases hfinished : lx.finished with
    | false => rfl
    | true =>
        have hended := (hv.finished hfinished).2.1
        rw [hopen] at hended
        cases hended

theorem Searching.lineOutcome (h : lx.Searching) (hbegins : lx.beginsLine = true) :
    lx.LineOutcome lx.beginLine :=
  beginLine_outcome h.valid h.pending h.unfinished (h.beginsLine hbegins).2

theorem Searching.stepOutcome [Text.IdentifierTable] (h : lx.Searching)
    (hbegins : lx.beginsLine = false) :
    lx.StepOutcome lx.readOn :=
  readOn_outcome h.valid h.pending h.unfinished (h.atLineStart hbegins)

/-- Behind a line without a token there is less to be read. -/
theorem Searching.blank (h : lx.Searching) (hbegins : lx.beginsLine = true)
    (hblank : lx.beginLine = .blank lx₁) :
    lx₁.Searching ∧ lx.Skips lx₁ ∧ lx₁.cursor.rest.length < lx.cursor.rest.length := by
  have hout := h.lineOutcome hbegins
  rw [hblank] at hout
  exact ⟨h.skips hout.1 hout.2.1, hout.2⟩

theorem Searching.atEnd (h : lx.Searching) (hbegins : lx.beginsLine = true)
    (hend : lx.beginLine = .atEnd lx₁) : lx₁.Searching ∧ lx₁.cursor.rest = [] := by
  have hout := h.lineOutcome hbegins
  rw [hend] at hout
  exact ⟨h.skips hout.1 hout.2.1, hout.2.2⟩

theorem Searching.code (h : lx.Searching) (hbegins : lx.beginsLine = true)
    (hcode : lx.beginLine = .code none lx₁) (herror : lx₁.error = none) :
    lx₁.Searching ∧ lx.Skips lx₁ ∧ lx₁.beginsLine = false := by
  have hout := h.lineOutcome hbegins
  rw [hcode] at hout
  rcases hout with hne | ⟨hv, hskips, hstart⟩
  · exact absurd herror hne
  · exact ⟨h.skips hv hskips, hskips, by rw [Lexer.beginsLine, hstart, Bool.false_and]⟩

variable [Text.IdentifierTable]

theorem Searching.skipped (h : lx.Searching) (hbegins : lx.beginsLine = false)
    (hskipped : lx.readOn = .skipped lx₁) :
    lx₁.Searching ∧ lx.Skips lx₁ ∧ lx₁.cursor.rest.length < lx.cursor.rest.length := by
  have hout := h.stepOutcome hbegins
  rw [hskipped] at hout
  exact ⟨h.skips hout.1 hout.2.1, hout.2⟩

end Searching

section

variable [Text.IdentifierTable]

theorem search_succ (fuel : Nat) (lx : Lexer) :
    search (fuel + 1) lx =
      match if lx.beginsLine then lx.beginLine else .code none lx with
      | .blank lx => search fuel lx
      | .atEnd lx => lx.finish
      | .code (some token) lx => (some token, lx)
      | .code none lx =>
        if lx.error.isSome then (none, lx)
        else match lx.readOn with
          | .skipped lx => search fuel lx
          | .answer token lx => (token, lx) :=
  rfl

/-- What a search finds, it finds with every count of lines that is large enough. -/
theorem Finds.search {lx : Lexer} {answer : Option Token × Lexer} (h : lx.Finds answer) :
    lx.Searching → ∀ fuel, lx.cursor.rest.length < fuel → Lexer.search fuel lx = answer := by
  induction h with
  | blank hbegins hblank _ ih =>
      intro hs fuel hfuel
      obtain ⟨fuel, rfl⟩ : ∃ k, fuel = k + 1 := ⟨fuel - 1, by omega⟩
      obtain ⟨hs₁, -, hless⟩ := hs.blank hbegins hblank
      simp only [search_succ, hbegins, if_true, hblank]
      exact ih hs₁ fuel (by omega)
  | atEnd hbegins hend =>
      intro hs fuel hfuel
      obtain ⟨fuel, rfl⟩ : ∃ k, fuel = k + 1 := ⟨fuel - 1, by omega⟩
      simp only [search_succ, hbegins, if_true, hend]
  | layout hbegins hcode =>
      intro hs fuel hfuel
      obtain ⟨fuel, rfl⟩ : ∃ k, fuel = k + 1 := ⟨fuel - 1, by omega⟩
      simp only [search_succ, hbegins, if_true, hcode]
  | code hbegins hcode herror hfinds ih =>
      intro hs fuel hfuel
      obtain ⟨hs₁, hskips, hinside⟩ := hs.code hbegins hcode herror
      have hle := hskips.passes.length_le
      -- the same number of lines is counted from inside of the line
      have hon := ih hs₁ fuel (by omega)
      obtain ⟨fuel, rfl⟩ : ∃ k, fuel = k + 1 := ⟨fuel - 1, by omega⟩
      simp only [search_succ, hinside, Bool.false_eq_true, if_false] at hon
      simp only [search_succ, hbegins, if_true, hcode]
      exact hon
  | skipped hbegins hskipped _ ih =>
      intro hs fuel hfuel
      obtain ⟨fuel, rfl⟩ : ∃ k, fuel = k + 1 := ⟨fuel - 1, by omega⟩
      obtain ⟨hs₁, -, hless⟩ := hs.skipped hbegins hskipped
      simp only [search_succ, hbegins, Bool.false_eq_true, if_false, hs.valid.noError,
        Option.isSome_none, hskipped]
      exact ih hs₁ fuel (by omega)
  | answer hbegins hanswer =>
      intro hs fuel hfuel
      obtain ⟨fuel, rfl⟩ : ∃ k, fuel = k + 1 := ⟨fuel - 1, by omega⟩
      simp only [search_succ, hbegins, Bool.false_eq_true, if_false, hs.valid.noError,
        Option.isSome_none, hanswer]

theorem Searching.next_eq {lx : Lexer} (h : lx.Searching) :
    lx.next = search (lx.cursor.rest.length + 1) lx := by
  simp [next, h.pending, h.unfinished, h.valid.noError]

theorem Finds.next {lx : Lexer} {answer : Option Token × Lexer} (h : lx.Finds answer)
    (hs : lx.Searching) : lx.next = answer := by
  rw [hs.next_eq]
  exact h.search hs _ (Nat.lt_succ_self _)

theorem finds_of_search (fuel : Nat) : ∀ {lx : Lexer} {answer : Option Token × Lexer}, lx.Searching →
    lx.cursor.rest.length < fuel → search fuel lx = answer → answer.2.error = none →
      lx.Finds answer := by
  induction fuel with
  | zero => exact fun _ hfuel => absurd hfuel (Nat.not_lt_zero _)
  | succ fuel ih =>
      intro lx answer hs hfuel hsearch herror
      have hread {lx₁ : Lexer} (hs₁ : lx₁.Searching) (hbegins₁ : lx₁.beginsLine = false)
          (hle : lx₁.cursor.rest.length ≤ lx.cursor.rest.length)
          (hstep : (match lx₁.readOn with
            | .skipped lx => search fuel lx
            | .answer token lx => (token, lx)) = answer) : lx₁.Finds answer := by
        split at hstep
        · next lx₂ hskipped =>
          obtain ⟨hs₂, -, hless⟩ := hs₁.skipped hbegins₁ hskipped
          exact .skipped hbegins₁ hskipped (ih hs₂ (by omega) hstep herror)
        · next token lx₂ hanswer =>
          subst hstep
          exact .answer hbegins₁ hanswer
      rw [search_succ] at hsearch
      cases hbegins : lx.beginsLine with
      | false =>
          simp only [hbegins, Bool.false_eq_true, if_false, hs.valid.noError,
            Option.isSome_none] at hsearch
          exact hread hs hbegins (Nat.le_refl _) hsearch
      | true =>
          simp only [hbegins, if_true] at hsearch
          split at hsearch
          · next lx₁ hblank =>
            obtain ⟨hs₁, -, hless⟩ := hs.blank hbegins hblank
            exact .blank hbegins hblank (ih hs₁ (by omega) hsearch herror)
          · next lx₁ hend =>
            subst hsearch
            exact .atEnd hbegins hend
          · next t lx₁ hcode =>
            subst hsearch
            exact .layout hbegins hcode
          · next lx₁ hcode =>
            split at hsearch
            · next hsome =>
              subst hsearch
              rw [herror] at hsome
              cases hsome
            · next hnone =>
              have hnone : lx₁.error = none := by simpa using hnone
              obtain ⟨hs₁, hskips, hinside⟩ := hs.code hbegins hcode hnone
              exact .code hbegins hcode hnone (hread hs₁ hinside hskips.passes.length_le hsearch)

theorem Searching.finds {lx : Lexer} {answer : Option Token × Lexer} (hs : lx.Searching)
    (h : lx.next = answer) (herror : answer.2.error = none) : lx.Finds answer := by
  rw [hs.next_eq] at h
  exact finds_of_search _ hs (Nat.lt_succ_self _) h herror

end

theorem Emits.length_le {lx lx₁ : Lexer} {t : Token} (h : lx.Emits t lx₁) :
    lx₁.cursor.rest.length ≤ lx.cursor.rest.length := by
  obtain ⟨c, text, hpass, hreads, -⟩ := h.written
  have hle := hpass.length_le
  have hlen := hreads.length
  omega

theorem Emits.shorter {lx lx₁ : Lexer} {t : Token} (h : lx.Emits t lx₁)
    (hlayout : t.kind.isLayout = false) : lx₁.cursor.rest.length < lx.cursor.rest.length := by
  have hless := h.lighter
  have hstep := h.layout
  generalize t.kind = kind at hlayout hstep
  cases hstep with
  | written _ hline hblocks =>
      simp only [weight, hline, hblocks, if_true] at hless
      split at hless <;> omega
  | _ => cases hlayout

/-! ## Behind an indentation -/

/-- Where the indentation of a line ends. -/
def indentEnd (lx : Lexer) : Cursor := (lx.cursor.takeWhile isIndentation).2

section

variable {lx : Lexer} {x : Char}

theorem beginLine_end (h : lx.indentEnd.peek? = none) : lx.beginLine = .atEnd (lx.moveTo lx.indentEnd) := by
  unfold indentEnd at h
  simp only [beginLine, h]
  rfl

theorem beginLine_comment (h : lx.indentEnd.peek? = some '#') :
    lx.beginLine = .blank (lx.moveTo (skipComment lx.indentEnd).skip) := by
  unfold indentEnd at h
  simp only [beginLine, h, if_true]
  rfl

theorem beginLine_blank (h : lx.indentEnd.peek? = some x) (hx : x = '\n' ∨ x = '\r') :
    lx.beginLine = .blank (lx.moveTo lx.indentEnd.skip) := by
  unfold indentEnd at h
  rcases hx with rfl | rfl
  · simp only [beginLine, h]
    rfl
  · simp only [beginLine, h]
    rfl

theorem beginLine_code (h : lx.indentEnd.peek? = some x) (hx : x ∉ ['#', '\n', '\r']) :
    lx.beginLine = changeBlocks ((lx.cursor.takeWhile isIndentation).1.foldl Layout.widthAfter 0)
      (lx.moveTo lx.indentEnd) := by
  unfold indentEnd at h
  simp only [List.mem_cons, List.not_mem_nil, or_false, not_or] at hx
  simp only [beginLine, h, hx, if_false, decide_false, Bool.or_self, Bool.false_eq_true]
  rfl

theorem indentEnd_eq {rest : List Char} (h : lx.cursor.rest = x :: rest) (hx : isIndentation x = false) :
    lx.indentEnd.rest = x :: rest := by
  show lx.cursor.rest.dropWhile isIndentation = _
  rw [h, List.dropWhile_cons_of_neg (by simp [hx])]

end

/-! ## Behind a gap -/

/-- Where the gap in front of the next token ends. -/
def gapEnd (lx : Lexer) : Cursor := skipGaps lx.layout.inBrackets lx.cursor.rest.length lx.cursor

/-- The lexer at the end of the gap, with the cursor behind the first character of the token. -/
def atToken (lx : Lexer) (c : Cursor) : Lexer := (lx.moveTo lx.gapEnd).markStart.moveTo c

section

variable {lx : Lexer} {c : Cursor} {x : Char}

theorem passes_gapEnd (lx : Lexer) : lx.cursor.Passes lx.gapEnd := (passes_skipGaps _ _ _).1

section

variable [Text.IdentifierTable]

theorem readOn_end (h : lx.gapEnd.next? = none) :
    lx.readOn = .answer (lx.moveTo lx.gapEnd).finish.1 (lx.moveTo lx.gapEnd).finish.2 := by
  unfold gapEnd at h
  simp only [readOn, h]
  rfl

theorem readOn_newline (h : lx.gapEnd.next? = some ('\n', c)) : lx.readOn = (lx.atToken c).endLine := by
  unfold gapEnd at h
  simp only [readOn, h, if_true]
  rfl

theorem readOn_backslash (h : lx.gapEnd.next? = some ('\\', c)) :
    lx.readOn = (lx.atToken c).continueLine := by
  unfold gapEnd at h
  simp only [readOn, h, if_true]
  rfl

theorem readOn_token (h : lx.gapEnd.next? = some (x, c)) (hfeed : x ≠ '\n') (hbackslash : x ≠ '\\') :
    lx.readOn = match (lx.atToken c).scanToken x with
      | (some token, lx) => .answer (some token) { lx with lineHasTokens := true }
      | (none, lx) => .answer none lx := by
  unfold gapEnd at h
  simp only [readOn, h, hfeed, hbackslash, if_false]
  rfl

end

/-- A continued line ends behind the backslash, with a return or without. -/
theorem continueLine_skipped {lx₁ : Lexer} (h : lx.continueLine = .skipped lx₁) :
    ∃ c, lx₁ = lx.moveTo c ∧
      (lx.cursor.rest = '\n' :: c.rest ∨ lx.cursor.rest = '\r' :: '\n' :: c.rest) := by
  unfold continueLine at h
  dsimp only at h
  split at h
  · next hreturn =>
    split at h
    · next hnewline =>
      cases h
      exact ⟨_, rfl, .inr (by
        rw [(reads_skip hreturn).1, (reads_skip hnewline).1]
        rfl)⟩
    · cases h
  · split at h
    · next hnewline =>
      cases h
      exact ⟨_, rfl, .inl (reads_skip hnewline).1⟩
    · cases h

theorem continueLine_answer {token : Option Token} {lx₁ : Lexer}
    (h : lx.continueLine = .answer token lx₁) : token = none ∧ lx₁.error ≠ none := by
  unfold continueLine at h
  dsimp only at h
  split at h <;> split at h <;> cases h <;> exact ⟨rfl, nofun⟩

theorem continueLine_eq {rest : List Char}
    (h : lx.cursor.rest = '\n' :: rest ∨ lx.cursor.rest = '\r' :: '\n' :: rest) :
    ∃ c, lx.continueLine = .skipped (lx.moveTo c) ∧ c.rest = rest := by
  rcases h with h | h
  · refine ⟨lx.cursor.skip, ?_, rest_skip h⟩
    simp [continueLine, peek?_of_rest h]
  · have hskip := rest_skip h
    refine ⟨lx.cursor.skip.skip, ?_, rest_skip hskip⟩
    simp [continueLine, peek?_of_rest h, peek?_of_rest hskip]

end

/-! ## The end of the text -/

section

variable {lx lx₁ : Lexer} {t : Token}

/-- Behind the last line only blocks are ended. -/
theorem finish_blocks [Text.IdentifierTable] (hb : lx.layout.brackets = [])
    (hline : lx.lineHasTokens = false)
    (hpending : lx.pending = []) : lx.finish = (lx.closed (lx.layout.widths.length - 1)).next := by
  cases hcount : lx.layout.widths.length - 1 with
  | zero =>
      simp [finish, next, markStart, Layout.innermost?, hb, hline, Layout.closeAll, closed, hcount,
        hpending]
  | succ count =>
      simp [finish, next, markStart, Layout.innermost?, hb, hline, Layout.closeAll, closed, hcount,
        List.replicate_succ, token, span, Span.empty, position]

theorem indentEnd_nil (h : lx.cursor.rest = []) : lx.indentEnd.rest = [] := by
  show lx.cursor.rest.dropWhile isIndentation = []
  rw [h]
  rfl

theorem Searching.next_atEnd [Text.IdentifierTable] (hs : lx.Searching) (hbegins : lx.beginsLine = true)
    (hend : lx.cursor.rest = []) :
    lx.next = ((lx.moveTo lx.indentEnd).closed (lx.layout.widths.length - 1)).next := by
  have hended := (hs.beginsLine hbegins).2
  have hpeek : lx.indentEnd.peek? = none := by
    rw [Cursor.peek?, indentEnd_nil hend]
    rfl
  rw [(Finds.atEnd hbegins (beginLine_end hpeek)).next hs]
  exact finish_blocks (hs.valid.brackets hended) hended hs.pending

theorem finish_brackets (h : lx.finish.2.error = none) : lx.layout.brackets = [] := by
  cases hb : lx.layout.brackets with
  | nil => rfl
  | cons x stack => simp [finish, markStart, Layout.innermost?, hb, fail] at h

theorem finish_some (h : lx.finish = (some t, lx₁)) :
    t.kind.isLayout = true ∧ t.span.start = t.span.stop ∧ lx₁.cursor = lx.cursor := by
  unfold finish at h
  dsimp only at h
  split at h
  · cases h
  · split at h
    · cases h
    · next rest hclosing =>
      cases h
      have hmem : t ∈ (if lx.lineHasTokens then [lx.markStart.token .newline] else []) ++
          List.replicate lx.layout.closeAll.1 (lx.markStart.token .dedent) := by
        have hfirst : t ∈ t :: rest := List.mem_cons_self
        rw [← hclosing] at hfirst
        exact hfirst
      rcases List.mem_append.mp hmem with hnewline | hdedent
      · split at hnewline
        · rw [List.mem_singleton.mp hnewline]
          exact ⟨rfl, rfl, rfl⟩
        · cases hnewline
      · rw [List.eq_of_mem_replicate hdedent]
        exact ⟨rfl, rfl, rfl⟩

end

variable [Text.IdentifierTable]

/-! ## Whole runs -/

/-- From `lx` on the text is read to its end: these are the tokens, and `last` is the lexer behind them. -/
inductive Runs : Lexer → List Token → Lexer → Prop
  | stop {lx last : Lexer} : lx.next = (none, last) → last.error = none → Runs lx [] last
  | step {lx lx₁ last : Lexer} {t : Token} {ts : List Token} : lx.next = (some t, lx₁) →
      Runs lx₁ ts last → Runs lx (t :: ts) last

section Runs

variable {lx lx' last : Lexer} {ts : List Token}

/-- Only the next answer matters. -/
theorem Runs.of_next_eq (h : lx.Runs ts last) (hnext : lx'.next = lx.next) : lx'.Runs ts last := by
  cases h with
  | stop hstop herror => exact .stop (hnext.trans hstop) herror
  | step hstep hon => exact .step (hnext.trans hstep) hon

theorem Runs.of_finds (h : lx.Runs ts last) (hs : lx.Searching) (hs' : lx'.Searching)
    (hfinds : ∀ answer, lx.Finds answer → lx'.Finds answer) : lx'.Runs ts last := by
  cases h with
  | stop hstop herror => exact .stop ((hfinds _ (hs.finds hstop herror)).next hs') herror
  | step hstep hon =>
      obtain ⟨hv₁, -⟩ := next_emits hs.valid hstep
      exact .step ((hfinds _ (hs.finds hstep hv₁.noError)).next hs') hon

theorem Gives.keeps {P : Lexer → Prop}
    (hstep : ∀ {lx lx₁ : Lexer} {t : Token}, P lx → lx.Emits t lx₁ → P lx₁)
    (h : lx.Gives ts lx') : lx.Valid → P lx → lx'.Valid ∧ P lx' := by
  induction h with
  | nil => exact fun hv hp => ⟨hv, hp⟩
  | cons hnext _ ih =>
      intro hv hp
      obtain ⟨hv₁, he⟩ := next_emits hv hnext
      exact ih hv₁ (hstep hp he)

theorem Gives.valid (h : lx.Gives ts lx') (hv : lx.Valid) : lx'.Valid :=
  (h.keeps (P := fun _ => True) (fun _ _ => trivial) hv trivial).1

theorem Gives.stands {source : List Char} (h : lx.Gives ts lx') (hv : lx.Valid)
    (hs : lx.cursor.Stands source) : lx'.Valid ∧ lx'.cursor.Stands source :=
  h.keeps (fun hs he => he.stands hs) hv hs

theorem Gives.length_le (h : lx.Gives ts lx') (hv : lx.Valid) :
    lx'.cursor.rest.length ≤ lx.cursor.rest.length :=
  (h.keeps (P := fun lx' => lx'.cursor.rest.length ≤ lx.cursor.rest.length)
    (fun hle he => Nat.le_trans he.length_le hle) hv (Nat.le_refl _)).2

/-- Behind a line that has ended a line is open only where something was read. -/
theorem Gives.shorter (h : lx.Gives ts lx') (hv : lx.Valid) (hended : lx.lineHasTokens = false)
    (hopen : lx'.lineHasTokens = true) : lx'.cursor.rest.length < lx.cursor.rest.length := by
  refine (h.keeps (P := fun lx' => lx'.cursor.rest.length ≤ lx.cursor.rest.length ∧
    (lx'.lineHasTokens = true → lx'.cursor.rest.length < lx.cursor.rest.length)) ?_ hv
    ⟨Nat.le_refl _, fun hline => absurd (hended.symm.trans hline) Bool.false_ne_true⟩).2.2 hopen
  intro lx₁ lx₂ t hle he
  refine ⟨Nat.le_trans he.length_le hle.1, fun hline => ?_⟩
  cases hlayout : t.kind.isLayout with
  | false => exact Nat.lt_of_lt_of_le (he.shorter hlayout) hle.1
  | true => exact absurd ((he.layout.lineEnded hlayout).symm.trans hline) Bool.false_ne_true

theorem Runs.split {before after : List Token} {t : Token} :
    ∀ {lx : Lexer}, lx.Runs (before ++ t :: after) last →
      ∃ lx₁ lx₂, lx.Gives before lx₁ ∧ lx₁.next = (some t, lx₂) ∧ lx₂.Runs after last := by
  induction before with
  | nil =>
      intro lx h
      cases h with
      | step hstep hon => exact ⟨lx, _, .nil lx, hstep, hon⟩
  | cons u before ih =>
      intro lx h
      cases h with
      | step hstep hon =>
          obtain ⟨lx₁, lx₂, hgives, hnext, hafter⟩ := ih hon
          exact ⟨lx₁, lx₂, .cons hstep hgives, hnext, hafter⟩

theorem Gives.runs {before : List Token} (h : lx.Gives before lx') (hon : lx'.Runs ts last) :
    lx.Runs (before ++ ts) last := by
  induction h with
  | nil => exact hon
  | cons hnext _ ih => exact .step hnext (ih hon)

theorem Runs.gives (h : lx.Runs ts last) :
    ∃ lx₁, lx.Gives ts lx₁ ∧ lx₁.next = (none, last) ∧ last.error = none := by
  induction h with
  | @stop lx _ hstop herror => exact ⟨lx, .nil lx, hstop, herror⟩
  | step hstep _ ih =>
      obtain ⟨lx₁, hgives, hstop⟩ := ih
      exact ⟨lx₁, .cons hstep hgives, hstop⟩

theorem runs_of_readAll (fuel : Nat) : ∀ {lx last : Lexer} {ts : List Token}, lx.Valid →
    lx.weight < fuel → readAll fuel lx = (ts, last) → last.error = none → lx.Runs ts last := by
  induction fuel with
  | zero => exact fun _ hfuel => absurd hfuel (Nat.not_lt_zero _)
  | succ fuel ih =>
      intro lx last ts hv hfuel hall herror
      unfold Lexer.readAll at hall
      split at hall
      · next lx₁ hstop =>
        cases hall
        exact .stop hstop herror
      · next t lx₁ hstep =>
        obtain ⟨hv₁, he⟩ := next_emits hv hstep
        have hless := he.lighter
        cases hall
        exact .step hstep (ih hv₁ (by omega) rfl herror)

end Runs

end Lexer

variable [Text.IdentifierTable]

theorem tokenize_eq_ok {source : String} {ts : List Token} :
    tokenize source = .ok ts ↔
      ∃ init last, (Lexer.ofText source).Runs init last ∧
        ts = init ++ [⟨.endOfFile, .empty last.position⟩] := by
  have hv := Lexer.valid_ofText source
  have hfuel : (Lexer.ofText source).weight < 2 * source.length + 1 := by
    rw [Lexer.weight_ofText]
    exact Nat.lt_succ_self _
  constructor
  · intro h
    unfold tokenize at h
    dsimp only at h
    split at h
    · cases h
    · next herror =>
      cases h
      exact ⟨_, _, Lexer.runs_of_readAll _ hv hfuel rfl herror, rfl⟩
  · rintro ⟨init, last, hruns, rfl⟩
    obtain ⟨lx₁, hgives, hstop, herror⟩ := hruns.gives
    have hrun : Lexer.run source = (init, last) := hgives.readAll hstop _ hv hfuel
    unfold tokenize
    dsimp only
    rw [hrun, herror]

end MysToCpp
