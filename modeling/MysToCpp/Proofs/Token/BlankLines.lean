/-
# Lines without tokens

A line of blanks, perhaps with a comment, may be put in wherever a line has ended: its indentation opens
and closes no block, and the tokens stay the same.  The lexer passes such a line in one step, and then
stands in the same state in front of the same text.

There is one line end that is no character: the last line of a text may be continued with a backslash and
nothing behind it, and then the line that is put in goes on with it and brings its end.
-/
import MysToCpp.Proofs.Token.Alike
import MysToCpp.Text.Unicode

namespace MysToCpp

/-- A line that holds blanks and perhaps a comment, with its end. -/
def BlankLine (line : List Char) : Prop :=
  ∃ blanks comment, line = blanks ++ (comment ++ ['\n']) ∧
    (∀ x ∈ blanks, x ∈ [' ', '\t', '\x0c']) ∧
    (comment = [] ∨ ∃ body, comment = '#' :: body ∧ '\n' ∉ body)

namespace Lexer

open Cursor (rest_skip peek?_of_rest)

variable {lx : Lexer} {c : Cursor} {line back : List Char}

theorem isIndentation_of_mem {x : Char} (h : x ∈ [' ', '\t', '\x0c']) : isIndentation x = true := by
  simp only [List.mem_cons, List.not_mem_nil, or_false] at h
  rcases h with rfl | rfl | rfl <;> decide

theorem rest_skipComment {body : List Char} (hrest : c.rest = '#' :: (body ++ '\n' :: back))
    (hbody : '\n' ∉ body) : (skipComment c).rest = '\n' :: back := by
  show c.rest.dropWhile (fun x => decide (x ≠ '\n')) = _
  have hall : ∀ x ∈ '#' :: body, decide (x ≠ '\n') = true := by
    intro x hx
    rw [decide_eq_true_eq]
    rintro rfl
    rcases List.mem_cons.mp hx with hhash | hmem
    · exact absurd hhash (by decide)
    · exact hbody hmem
  rw [hrest, ← List.cons_append, List.dropWhile_append_of_pos hall, List.dropWhile_cons_of_neg (by decide)]

theorem beginLine_blankLine (hline : BlankLine line) (hrest : lx.cursor.rest = line ++ back) :
    ∃ c, c.rest = back ∧ lx.beginLine = .blank (lx.moveTo c) := by
  obtain ⟨blanks, comment, rfl, hblanks, hcomment⟩ := hline
  have hindent (x : Char) (more : List Char) (hx : isIndentation x = false)
      (hmore : comment ++ ['\n'] ++ back = x :: more) : lx.indentEnd.rest = x :: more := by
    show lx.cursor.rest.dropWhile isIndentation = _
    rw [hrest, List.append_assoc, hmore,
      List.dropWhile_append_of_pos fun x hx => isIndentation_of_mem (hblanks x hx),
      List.dropWhile_cons_of_neg (by simp [hx])]
  rcases hcomment with rfl | ⟨body, rfl, hbody⟩
  · have hend := hindent '\n' back (by decide) rfl
    exact ⟨_, rest_skip hend, beginLine_blank (peek?_of_rest hend) (.inl rfl)⟩
  · have hend := hindent '#' (body ++ '\n' :: back) (by decide) (by simp)
    exact ⟨_, rest_skip (rest_skipComment hend hbody), beginLine_comment (peek?_of_rest hend)⟩

theorem skipGaps_blanks {blanks more : List Char} (hblanks : ∀ x ∈ blanks, isGap x = true)
    (inBrackets : Bool) : ∀ (fuel : Nat) (c : Cursor), c.rest = blanks ++ more →
      ∃ c', c'.rest = more ∧
        skipGaps inBrackets (blanks.length + fuel) c = skipGaps inBrackets fuel c' := by
  induction blanks with
  | nil =>
      intro fuel c hrest
      exact ⟨c, hrest, by rw [List.length_nil, Nat.zero_add]⟩
  | cons x blanks ih =>
      intro fuel c hrest
      obtain ⟨c', hrest', hskip⟩ := ih (fun y hy => hblanks y (.tail _ hy)) fuel c.skip (rest_skip hrest)
      refine ⟨c', hrest', ?_⟩
      rw [List.length_cons, Nat.add_right_comm,
        Variation.skipGaps_gap (peek?_of_rest hrest) (by rw [hblanks x List.mem_cons_self, Bool.true_or]),
        hskip]

/-- Inside of a line it is passed up to its end. -/
theorem gapEnd_blankLine (hline : BlankLine line) (hrest : lx.cursor.rest = line ++ back)
    (hb : lx.layout.inBrackets = false) : lx.gapEnd.rest = '\n' :: back := by
  obtain ⟨blanks, comment, rfl, hblanks, hcomment⟩ := hline
  have hgaps : ∀ x ∈ blanks, isGap x = true := by
    intro x hx
    have hmem := hblanks x hx
    simp only [List.mem_cons, List.not_mem_nil, or_false] at hmem
    rcases hmem with rfl | rfl | rfl <;> decide
  have hsplit : lx.cursor.rest = blanks ++ (comment ++ '\n' :: back) := by
    rw [hrest]
    simp
  have hlen : lx.cursor.rest.length = blanks.length + (comment ++ '\n' :: back).length := by
    rw [hsplit, List.length_append]
  obtain ⟨c, hc, hskip⟩ := skipGaps_blanks hgaps false (comment ++ '\n' :: back).length lx.cursor hsplit
  unfold gapEnd
  rw [hb, hlen, hskip]
  rcases hcomment with rfl | ⟨body, rfl, hbody⟩
  · rw [Variation.skipGaps_newline _ (peek?_of_rest hc)]
    exact hc
  · have hcomment := rest_skipComment hc hbody
    rw [List.cons_append, List.length_cons]
    simp only [skipGaps, peek?_of_rest hc]
    rw [if_neg (by decide), if_true, Variation.skipGaps_newline _ (peek?_of_rest hcomment)]
    exact hcomment

variable [Text.IdentifierTable]

/-! ## The line end in front of it -/

/-- The lexer behind the line feed of an open line. -/
def lineEnded (lx : Lexer) (c : Cursor) : Lexer :=
  { lx.atToken c with atLineStart := true, lineHasTokens := false }

theorem readOn_lineFeed (hx : lx.gapEnd.next? = some ('\n', c)) (hopen : lx.lineHasTokens = true) :
    lx.readOn = .answer (some ((lx.atToken c).token .newline)) (lx.lineEnded c) := by
  have htoken : (lx.atToken c).lineHasTokens = true := hopen
  rw [readOn_newline hx]
  unfold endLine
  dsimp only
  rw [htoken]
  rfl

theorem Searching.lineEnded (hs : lx.Searching) (hopen : lx.lineHasTokens = true)
    (hb : lx.layout.brackets = []) (hx : lx.gapEnd.next? = some ('\n', c)) :
    (lx.lineEnded c).Searching ∧ (lx.lineEnded c).beginsLine = true ∧
      lx.Finds (some ((lx.atToken c).token .newline), lx.lineEnded c) := by
  have hinside := hs.insideLine hopen
  have hread := readOn_lineFeed hx hopen
  have hout := hs.stepOutcome hinside
  rw [hread] at hout
  refine ⟨⟨hout.1, hs.pending, hs.unfinished⟩, ?_, .answer hinside hread⟩
  show (true && !lx.layout.inBrackets) = true
  simp [Layout.inBrackets, hb]

theorem readOn_lineEnd {lx₁ : Lexer} {t : Token} (h : lx.readOn = .answer (some t) lx₁)
    (hkind : t.kind = .newline) (hopen : lx.lineHasTokens = true) (hb : lx.layout.brackets = []) :
    (∃ c, lx.gapEnd.next? = some ('\n', c) ∧ lx₁ = lx.lineEnded c) ∨
    lx.gapEnd.next? = none ∧ lx₁ = (lx.moveTo lx.gapEnd).closed (lx.layout.widths.length - 1) := by
  cases hx : lx.gapEnd.next? with
  | none =>
      have hfinish : (lx.moveTo lx.gapEnd).finish = _ := finish_line hb hopen
      rw [readOn_end hx, hfinish] at h
      cases h
      exact .inr ⟨rfl, rfl⟩
  | some next =>
      obtain ⟨x, c⟩ := next
      by_cases hfeed : x = '\n'
      · subst hfeed
        rw [readOn_lineFeed hx hopen] at h
        cases h
        exact .inl ⟨c, rfl, rfl⟩
      by_cases hbackslash : x = '\\'
      · subst hbackslash
        rw [readOn_backslash hx] at h
        exact absurd (continueLine_answer h).1 nofun
      · -- what is scanned is no layout
        have hscan := scanToken_outcome x (lx.atToken c)
        rw [readOn_token hx hfeed hbackslash] at h
        cases hanswer : (lx.atToken c).scanToken x with
        | mk token lx₂ =>
            rw [hanswer] at h hscan
            cases token with
            | none => cases h
            | some u =>
                cases h
                obtain ⟨_, _, _, -, -, -, -, hwritten, -⟩ := hscan
                rw [hkind] at hwritten
                cases hwritten

end Lexer

namespace Variation

open Cursor (reads_next)
open Lexer (Searching)

variable {v : Variation} {lx lx' lx₁ lx₂ last : Lexer} {c : Cursor} {t : Token} {ts : List Token}
  {line back : List Char}

/-- Inside of a line the answer is found behind the lines that are continued, and alike lexers go on with
the same line. -/
theorem lastLine_alike [Text.IdentifierTable] {answer : Option Token × Lexer} (h : lx.Finds answer) :
    lx.Searching → lx.lineHasTokens = true →
      ∃ lx₁, lx₁.Searching ∧ lx.Skips lx₁ ∧ lx₁.readOn = .answer answer.1 answer.2 ∧
        ∀ {lx' : Lexer}, v.Alike lx lx' → lx'.Searching → v.Within lx₁.cursor.rest →
          ∃ lx₁', lx₁'.Searching ∧ v.Alike lx₁ lx₁' ∧
            ∀ answer', lx₁'.Finds answer' → lx'.Finds answer' := by
  induction h with
  | blank hbegins | atEnd hbegins | layout hbegins | code hbegins =>
      intro hs hopen
      rw [(hs.beginsLine hbegins).2] at hopen
      cases hopen
  | @skipped lx lx₁ answer hbegins hskipped _ ih =>
      intro hs hopen
      obtain ⟨hs₁, hskips, hless⟩ := hs.skipped hbegins hskipped
      obtain ⟨lx₂, hs₂, hskips₂, hanswer, halike₂⟩ := ih hs₁ (hskips.line.trans hopen)
      refine ⟨lx₂, hs₂, hskips.trans hskips₂, hanswer, ?_⟩
      intro lx' halike hs' hwithin
      have hwithin₁ : v.Within lx₁.cursor.rest := hwithin.mono hskips₂.passes.length_le
      have hmatches := halike.rest.matches (hwithin₁.before hless)
      have hstep := readOn_alike halike hmatches hs hs' (by rw [hskipped]; exact hwithin₁)
      rw [hskipped] at hstep
      cases hskipped' : lx'.readOn with
      | answer =>
          rw [hskipped'] at hstep
          exact hstep.elim
      | skipped lx₁' =>
          rw [hskipped'] at hstep
          have hbegins' := (halike.beginsLine hs).trans hbegins
          obtain ⟨lx₂', hs₂', halike₂', hfinds⟩ :=
            halike₂ hstep (hs'.skipped hbegins' hskipped').1 hwithin
          exact ⟨lx₂', hs₂', halike₂', fun answer' h => .skipped hbegins' hskipped' (hfinds answer' h)⟩
  | @answer lx lx₁ token hbegins hanswer =>
      intro hs _
      exact ⟨lx, hs, .refl lx, hanswer, fun halike hs' _ => ⟨_, hs', halike, fun _ h => h⟩⟩

/-! ## The line is put in -/

/-- A line is put in in front of `back`. -/
def putIn (line back : List Char) : Variation := { cut := some (back, line ++ back) }

theorem Follows.parted {rest : List Char} (h : (putIn line back).Follows back rest) :
    rest = line ++ back := by
  rcases h with h | hcut
  · exact absurd (h.before back _ rfl) (Nat.lt_irrefl _)
  · cases hcut
    rfl

variable [Text.IdentifierTable]

/-- At the start of a line the lexer passes it and goes on as before. -/
theorem runs_behind_blankLine (h : lx.Runs ts last) (halike : (putIn line back).Alike lx lx')
    (hs : lx.Searching) (hs' : lx'.Searching) (hbegins : lx.beginsLine = true)
    (hrest : lx.cursor.rest = back) (hline : BlankLine line) :
    ∃ ts' last', lx'.Runs ts' last' ∧ ts'.map (·.kind) = ts.map (·.kind) := by
  have hrest' : lx'.cursor.rest = line ++ back := Follows.parted (hrest ▸ halike.rest)
  have hbegins' := (halike.beginsLine hs).trans hbegins
  obtain ⟨c, hc, hblank⟩ := Lexer.beginLine_blankLine hline hrest'
  have hs₁' := (hs'.blank hbegins' hblank).1
  have hsame : Alike {} lx (lx'.moveTo c) := by
    refine ⟨.inl ?_, halike.layout, halike.waiting, halike.atLineStart, halike.lineHasTokens,
      halike.finished⟩
    show Matches {} lx.cursor.rest c.rest
    rw [hrest, hc]
    exact .refl rfl rfl back
  obtain ⟨ts', last', hruns, hkinds⟩ := runs_same h hsame hs.valid hs₁'.valid
  exact ⟨ts', last', hruns.of_finds hs₁' hs' fun _ hfinds => .blank hbegins' hblank hfinds, hkinds⟩

theorem runs_behind_lineFeed (halike : (putIn line back).Alike lx lx') (hs : lx.Searching)
    (hs' : lx'.Searching) (hopen : lx.lineHasTokens = true) (hb : lx.layout.brackets = [])
    (hx : lx.gapEnd.next? = some ('\n', c)) (hrest : c.rest = back) (h : (lx.lineEnded c).Runs ts last)
    (hline : BlankLine line) :
    ∃ lx₁' t' ts' last', lx'.Finds (some t', lx₁') ∧ t'.kind = .newline ∧ lx₁'.Runs ts' last' ∧
      ts'.map (·.kind) = ts.map (·.kind) := by
  have hmatches : (putIn line back).Matches lx.cursor.rest lx'.cursor.rest := by
    refine halike.rest.matches fun a b hcut => ?_
    cases hcut
    have hle := lx.passes_gapEnd.length_le
    have hlen := (reads_next hx).length
    rw [hrest, List.length_singleton] at hlen
    omega
  have hlevel := halike.gapEnd hmatches (by simp [Layout.inBrackets, hb])
  obtain ⟨c', hx', hfollows, -⟩ := hlevel.next hx
  obtain ⟨hs₁, hbegins, -⟩ := hs.lineEnded hopen hb hx
  obtain ⟨hs₁', -, hfinds'⟩ :=
    hs'.lineEnded (halike.lineHasTokens.trans hopen) (by rw [halike.layout, hb]) hx'
  have halike₁ : (putIn line back).Alike (lx.lineEnded c) (lx'.lineEnded c') :=
    ⟨hfollows, halike.layout, halike.waiting, fun _ => rfl, rfl, halike.finished⟩
  obtain ⟨ts', last', hruns, hkinds⟩ := runs_behind_blankLine h halike₁ hs₁ hs₁' hbegins hrest hline
  exact ⟨_, _, ts', last', hfinds', rfl, hruns, hkinds⟩

/-- Behind a backslash at the end of the text the line goes on with what is put in, and is ended by it. -/
theorem runs_behind_backslash (halike : (putIn line []).Alike lx lx') (hs : lx.Searching)
    (hs' : lx'.Searching) (hopen : lx.lineHasTokens = true) (hb : lx.layout.brackets = [])
    (hend : lx.gapEnd.next? = none)
    (h : ((lx.moveTo lx.gapEnd).closed (lx.layout.widths.length - 1)).Runs ts last)
    (hline : BlankLine line) :
    ∃ lx₁' t' ts' last', lx'.Finds (some t', lx₁') ∧ t'.kind = .newline ∧ lx₁'.Runs ts' last' ∧
      ts'.map (·.kind) = ts.map (·.kind) := by
  have hb' : lx'.layout.brackets = [] := by rw [halike.layout, hb]
  have hrest' : lx'.cursor.rest = line ++ [] := by
    rcases halike.rest with hmatches | hcut
    · have hlevel := halike.gapEnd hmatches (by simp [Layout.inBrackets, hb])
      exact absurd (hlevel.next_none hend).2 (Option.some_ne_none _)
    · exact (congrArg Prod.snd (Option.some.inj hcut)).symm
  have hgap := Lexer.gapEnd_blankLine hline hrest' (by simp [Layout.inBrackets, hb'])
  have hx' : lx'.gapEnd.next? = some ('\n', ⟨[], lx'.gapEnd.position.after '\n'⟩) := by
    rw [Cursor.next?, hgap]
  obtain ⟨hs₁', hbegins', hfinds'⟩ := hs'.lineEnded (halike.lineHasTokens.trans hopen) hb' hx'
  generalize hlx₁' : lx'.lineEnded _ = lx₁' at hs₁' hbegins' hfinds'
  have hlayout : lx₁'.layout = lx.layout := by
    rw [← hlx₁']
    exact halike.layout
  have hnil : lx₁'.cursor.rest = [] := by
    rw [← hlx₁']
    rfl
  -- behind the line that is put in there is the end of the text as it was before it
  have hnext := hs₁'.next_atEnd hbegins' hnil
  rw [hlayout] at hnext
  have hend : (lx.moveTo lx.gapEnd).cursor.rest = [] := Cursor.rest_eq_nil_of_next hend
  have hend' : (lx₁'.moveTo lx₁'.indentEnd).cursor.rest = [] := Lexer.indentEnd_nil hnil
  have hlayout' : (lx₁'.moveTo lx₁'.indentEnd).layout = (lx.moveTo lx.gapEnd).layout := hlayout
  have hfollows : Follows {} (lx.moveTo lx.gapEnd).cursor.rest (lx₁'.moveTo lx₁'.indentEnd).cursor.rest := by
    rw [hend, hend']
    exact .inl (.nil rfl)
  have hsame := alike_closed hfollows hlayout' (lx.layout.widths.length - 1)
  obtain ⟨ts', last', hruns, hkinds⟩ := runs_same h hsame
    (Lexer.valid_closed (hs.moved lx.gapEnd).valid hb hend _)
    (Lexer.valid_closed (hs₁'.moved lx₁'.indentEnd).valid (hlayout ▸ hb) hend' _)
  exact ⟨_, _, ts', last', hfinds', rfl, hruns.of_next_eq hnext, hkinds⟩

theorem gives_putIn (h : lx.Gives ts lx₁) (halike : (putIn line back).Alike lx lx') (hv : lx.Valid)
    (hv' : lx'.Valid) (hopen : lx₁.lineHasTokens = true) (hlen : back.length ≤ lx₁.cursor.rest.length) :
    ∃ ts' lx₁', lx'.Gives ts' lx₁' ∧ ts'.map (·.kind) = ts.map (·.kind) ∧
      (putIn line back).Alike lx₁ lx₁' ∧ lx₁'.Valid := by
  obtain ⟨ts', lx₁', hgives', hall, halike₁, -, hv₁'⟩ := gives_alike h halike hv hv'
    fun before t after lx₂ lx₃ _ _ he hv₃ hafter => by
      refine ⟨?_, ?_, fun _ _ _ _ _ _ hput => absurd hput nofun⟩
      · intro a b hcut
        cases hcut
        exact Nat.le_trans hlen (hafter.length_le hv₃)
      · intro hlayout _ a b hcut
        cases hcut
        -- the line that is open in front of the line end has not begun yet
        exact Nat.lt_of_le_of_lt hlen (hafter.shorter hv₃ (he.layout.lineEnded hlayout) hopen)
  exact ⟨ts', lx₁', hgives', hall.map_kind rfl, halike₁, hv₁'⟩

theorem runs_putIn {before after : List Token} (hgives : lx.Gives before lx₁)
    (hnext : lx₁.next = (some t, lx₂)) (hon : lx₂.Runs after last) (hkind : t.kind = .newline)
    (hrest : lx₂.cursor.rest = back) (halike : (putIn line back).Alike lx lx') (hv : lx.Valid)
    (hv' : lx'.Valid) (hline : BlankLine line) :
    ∃ ts' last', lx'.Runs ts' last' ∧ ts'.map (·.kind) = (before ++ t :: after).map (·.kind) := by
  have hv₁ := hgives.valid hv
  obtain ⟨hv₂, he⟩ := Lexer.next_emits hv₁ hnext
  have hlen : back.length ≤ lx₁.cursor.rest.length := hrest ▸ he.length_le
  obtain ⟨hopen, hb⟩ : lx₁.lineHasTokens = true ∧ lx₁.layout.brackets = [] := by
    have hstep := he.layout
    rw [hkind] at hstep
    cases hstep with
    | written hwritten => cases hwritten
    | newline hopen _ hb => exact ⟨hopen, hb⟩
  obtain ⟨ts', lx₁', hgives', hkinds, halike₁, hv₁'⟩ := gives_putIn hgives halike hv hv' hopen hlen
  have hs₁ := hv₁.searching hopen
  have hs₁' := hv₁'.searching (halike₁.lineHasTokens.trans hopen)
  obtain ⟨lx₀, hs₀, hskips, hanswer, halike₀⟩ :=
    lastLine_alike (hs₁.finds hnext hv₂.noError) hs₁ hopen
  have hle : lx₂.cursor.rest.length ≤ lx₀.cursor.rest.length := by
    have hstep := hs₀.stepOutcome (hs₀.insideLine (hskips.line.trans hopen))
    rw [hanswer] at hstep
    exact hstep.2.length_le
  obtain ⟨lx₀', hs₀', halike₀, hfinds⟩ := halike₀ halike₁ hs₁' fun a b hcut => by
    cases hcut
    exact hrest ▸ hle
  obtain ⟨lx₂', t', ts₂', last', hfinds', hkind', hruns', hkinds'⟩ :
      ∃ lx₂' t' ts' last', lx₀'.Finds (some t', lx₂') ∧ t'.kind = .newline ∧ lx₂'.Runs ts' last' ∧
        ts'.map (·.kind) = after.map (·.kind) := by
    have hopen₀ := hskips.line.trans hopen
    have hb₀ : lx₀.layout.brackets = [] := by rw [hskips.layout, hb]
    rcases Lexer.readOn_lineEnd hanswer hkind hopen₀ hb₀ with ⟨c, hx, rfl⟩ | ⟨hend, rfl⟩
    · exact runs_behind_lineFeed halike₀ hs₀ hs₀' hopen₀ hb₀ hx hrest hon hline
    · have hnil : back = [] := hrest.symm.trans (Cursor.rest_eq_nil_of_next hend)
      subst hnil
      exact runs_behind_backslash halike₀ hs₀ hs₀' hopen₀ hb₀ hend hon hline
  have hruns := hgives'.runs (.step ((hfinds _ hfinds').next hs₁') hruns')
  refine ⟨_, last', hruns, ?_⟩
  simp only [List.map_append, List.map_cons, hkinds, hkind', hkind, hkinds']

omit [Text.IdentifierTable] in
theorem matches_putIn (front line back : List Char) :
    (putIn line back).Matches (front ++ '\n' :: back) (front ++ '\n' :: (line ++ back)) := by
  induction front with
  | nil => exact .cut rfl
  | cons x front ih => exact .same x nofun ih

theorem runs_insert_first {line back : String} (h : (Lexer.ofText back).Runs ts last)
    (hline : BlankLine line.toList) :
    ∃ ts' last', (Lexer.ofText (line ++ back)).Runs ts' last' ∧ ts'.map (·.kind) = ts.map (·.kind) := by
  have halike : (putIn line.toList back.toList).Alike (.ofText back) (.ofText (line ++ back)) := by
    refine ⟨.inr ?_, rfl, rfl, fun _ => rfl, rfl, rfl⟩
    show some (back.toList, line.toList ++ back.toList) = some (back.toList, (line ++ back).toList)
    rw [String.toList_append]
  exact runs_behind_blankLine h halike ⟨Lexer.valid_ofText _, rfl, rfl⟩
    ⟨Lexer.valid_ofText _, rfl, rfl⟩ rfl rfl hline

theorem runs_insert_behind {front line back : String} (h : (Lexer.ofText (front ++ back)).Runs ts last)
    (hlast : front.toList.getLast? = some '\n') (hmem : t ∈ ts) (hkind : t.kind = .newline)
    (hstop : t.span.stop.offset = byteLength front.toList) (hline : BlankLine line.toList) :
    ∃ ts' last', (Lexer.ofText (front ++ line ++ back)).Runs ts' last' ∧
      ts'.map (·.kind) = ts.map (·.kind) := by
  have hv := Lexer.valid_ofText (front ++ back)
  obtain ⟨before, after, rfl⟩ := List.append_of_mem hmem
  obtain ⟨lx₁, lx₂, hgives, hnext, hon⟩ := h.split
  have hrest : lx₂.cursor.rest = back.toList := by
    have hstart : (Lexer.ofText (front ++ back)).cursor.Stands (front.toList ++ back.toList) :=
      ⟨[], String.toList_append.symm, rfl⟩
    obtain ⟨hv₁, hstands⟩ := hgives.stands hv hstart
    obtain ⟨-, he⟩ := Lexer.next_emits hv₁ hnext
    obtain ⟨_, _, -, -, hspan, -⟩ := he.written
    rw [hspan] at hstop
    exact (he.stands hstands).rest_eq hstop
  have halike : (putIn line.toList back.toList).Alike (.ofText (front ++ back))
      (.ofText (front ++ line ++ back)) := by
    obtain ⟨text, htext⟩ := List.getLast?_eq_some_iff.mp hlast
    apply alike_ofText
    simp only [String.toList_append, htext, List.append_assoc, List.singleton_append]
    exact matches_putIn text line.toList back.toList
  exact runs_putIn hgives hnext hon hkind hrest halike hv (Lexer.valid_ofText _) hline

end Variation

open Variation in
/-- Behind a line end and at the start of the text a line without tokens can be put in, and the kinds of
the tokens stay the same. -/
theorem tokenize_insert_blankLine [Text.IdentifierTable] (front line back : String) (ts : List Token)
    (h : tokenize (front ++ back) = .ok ts) (hline : BlankLine line.toList)
    (hfront : front = "" ∨ front.toList.getLast? = some '\n' ∧
      ∃ t ∈ ts, t.kind = .newline ∧ t.span.stop.offset = byteLength front.toList) :
    ∃ ts', tokenize (front ++ line ++ back) = .ok ts' ∧ ts'.map (·.kind) = ts.map (·.kind) := by
  obtain ⟨init, last, hruns, rfl⟩ := tokenize_eq_ok.mp h
  obtain ⟨init', last', hruns', hkinds⟩ :
      ∃ init' last', (Lexer.ofText (front ++ line ++ back)).Runs init' last' ∧
        init'.map (·.kind) = init.map (·.kind) := by
    rcases hfront with rfl | ⟨hlast, t, hmem, hkind, hstop⟩
    · rw [String.empty_append] at hruns ⊢
      exact runs_insert_first hruns hline
    · rcases List.mem_append.mp hmem with hmem | hmem
      · exact runs_insert_behind hruns hlast hmem hkind hstop hline
      · rw [List.mem_singleton.mp hmem] at hkind
        cases hkind
  refine ⟨_, tokenize_eq_ok.mpr ⟨init', last', hruns', rfl⟩, ?_⟩
  rw [List.map_append, List.map_append, hkinds]
  rfl

/-- A comment that is indented in front of a block that is opened, and blanks behind the last line, which
is continued with a backslash. -/
theorem tokenize_insert_blankLine_sample :
    (∃ ts, tokenize ("if x:\n" ++ "     # y\n" ++ "  z\n") = .ok ts ∧
      ts.map (·.kind) = [.keyword .ifKw, .name "x", .punct .colon, .newline, .indent, .name "z", .newline,
        .dedent, .endOfFile]) ∧
    ∃ ts, tokenize ("  x \\\n" ++ "\t\n" ++ "") = .ok ts ∧
      ts.map (·.kind) = [.indent, .name "x", .newline, .dedent, .endOfFile] := by
  have hcomment : BlankLine "     # y\n".toList :=
    ⟨[' ', ' ', ' ', ' ', ' '], ['#', ' ', 'y'], rfl, by simp, .inr ⟨[' ', 'y'], rfl, by simp⟩⟩
  have hblank : BlankLine "\t\n".toList := ⟨['\t'], [], rfl, by simp, .inl rfl⟩
  have hchecked (front back : String) (kinds : List TokenKind)
      (h : (tokenize (front ++ back)).toOption.any (fun ts => decide (ts.map (·.kind) = kinds ∧
        ∃ t ∈ ts, t.kind = .newline ∧ t.span.stop.offset = byteLength front.toList)) = true) :
      ∃ ts, tokenize (front ++ back) = .ok ts ∧ ts.map (·.kind) = kinds ∧
        ∃ t ∈ ts, t.kind = .newline ∧ t.span.stop.offset = byteLength front.toList := by
    obtain ⟨ts, hts, h⟩ := exists_tokens h
    exact ⟨ts, hts, of_decide_eq_true h⟩
  obtain ⟨ts, hts, hkinds, hbehind⟩ := hchecked "if x:\n" "  z\n"
    [.keyword .ifKw, .name "x", .punct .colon, .newline, .indent, .name "z", .newline, .dedent, .endOfFile]
    (by decide +kernel)
  obtain ⟨us, hus, hkinds₁, hbehind₁⟩ := hchecked "  x \\\n" ""
    [.indent, .name "x", .newline, .dedent, .endOfFile] (by decide +kernel)
  obtain ⟨ts', hts', hsame⟩ :=
    tokenize_insert_blankLine _ "     # y\n" _ ts hts hcomment (.inr ⟨by decide, hbehind⟩)
  obtain ⟨us', hus', hsame₁⟩ :=
    tokenize_insert_blankLine _ "\t\n" _ us hus hblank (.inr ⟨by decide, hbehind₁⟩)
  exact ⟨⟨ts', hts', hsame.trans hkinds⟩, us', hus', hsame₁.trans hkinds₁⟩

end MysToCpp
