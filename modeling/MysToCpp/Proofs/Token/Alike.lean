/-
# Lexers that read alike

Two lexers in texts that match are kept alike by every step: they pass the same gaps, give the same tokens
and open and close the same blocks and brackets.  One line end of the first text may take the second two
steps, since a return in front of the end of a line that has no token is a blank line of its own.

What is asked of a token (`Variation.Fits`) is that it stands in front of the place where the texts part,
and that where returns are put in it is no string that escapes a line end.
-/
import Mathlib.Data.List.Forall2
import MysToCpp.Proofs.Token.Finds
import MysToCpp.Proofs.Token.SameGaps
import MysToCpp.Proofs.Token.SameStrings
import MysToCpp.Proofs.Token.Spelling

namespace MysToCpp.Variation

open Cursor (reads_next reads_skip rest_skip peek?_of_rest)
open Lexer (isGap isIndentation)
open Token (Scanned)

variable {v : Variation} {c c' c₁ : Cursor} {x : Char} {lx lx' lx₁ : Lexer} {t : Token}

/-! ## Alike lexers -/

/-- The lexers have the same state, in texts that match.  Behind the end of the text it does not matter
where the last line started. -/
structure Alike (v : Variation) (lx lx' : Lexer) : Prop where
  rest : v.Follows lx.cursor.rest lx'.cursor.rest
  layout : lx'.layout = lx.layout
  waiting : lx'.pending.length = lx.pending.length
  atLineStart : lx.finished = false → lx'.atLineStart = lx.atLineStart
  lineHasTokens : lx'.lineHasTokens = lx.lineHasTokens
  finished : lx'.finished = lx.finished

/-- What is asked of a token that is read from `start` to `stop`. -/
structure Fits [Text.IdentifierTable] (v : Variation) (start : Cursor) (t : Token) (stop : Cursor) :
    Prop where
  within : v.Within stop.rest
  before : t.kind.isLayout = true → t.span.start = t.span.stop → v.Before stop.rest
  clean : ∀ gap text c, start.Reads gap c → c.Reads text stop → t.span.start = c.position → v.Clean text

/-- What is asked of an answer: of a token that it fits, and of the end that the texts do not part. -/
def AnswerFits [Text.IdentifierTable] (v : Variation) (start : Cursor) : Option Token × Lexer → Prop
  | (some t, lx₁) => v.Fits start t lx₁.cursor
  | (none, lx₁) => lx₁.error = none ∧ v.cut = none

/-- Two answers are the same. -/
def Answers (v : Variation) : Option Token × Lexer → Option Token × Lexer → Prop
  | (some t, lx₁), (some t', lx₁') => v.Tells t.kind t'.kind ∧ v.Alike lx₁ lx₁'
  | (none, _), (none, lx₁') => lx₁'.error = none
  | _, _ => False

theorem alike_ofText {source source' : String} (h : v.Matches source.toList source'.toList) :
    v.Alike (.ofText source) (.ofText source') :=
  ⟨.inl h, rfl, rfl, fun _ => rfl, rfl, rfl⟩

theorem Answers.of_some {answer' : Option Token × Lexer} (h : v.Answers (some t, lx₁) answer') :
    ∃ t' lx₁', answer' = (some t', lx₁') ∧ v.Tells t.kind t'.kind ∧ v.Alike lx₁ lx₁' := by
  obtain ⟨token', lx₁'⟩ := answer'
  cases token' with
  | none => exact h.elim
  | some t' => exact ⟨t', lx₁', rfl, h⟩

theorem Answers.of_none {answer' : Option Token × Lexer} (h : v.Answers (none, lx₁) answer') :
    ∃ lx₁', answer' = (none, lx₁') ∧ lx₁'.error = none := by
  obtain ⟨token', lx₁'⟩ := answer'
  cases token' with
  | none => exact ⟨lx₁', rfl, h⟩
  | some t' => exact h.elim

theorem Alike.moveTo (h : v.Alike lx lx') (hfollows : v.Follows c.rest c'.rest) :
    v.Alike (lx.moveTo c) (lx'.moveTo c') :=
  ⟨hfollows, h.layout, h.waiting, h.atLineStart, h.lineHasTokens, h.finished⟩

theorem Alike.beginsLine (h : v.Alike lx lx') (hs : lx.Searching) :
    lx'.beginsLine = lx.beginsLine := by
  rw [Lexer.beginsLine, Lexer.beginsLine, h.atLineStart hs.unfinished, h.layout]

section

variable [Text.IdentifierTable]

/-- A token that fits stands behind a place that does: only layout tokens may be empty. -/
theorem Fits.before_of_emits (h : v.Fits lx.cursor t lx₁.cursor) (he : lx.Emits t lx₁) :
    v.Before lx.cursor.rest := by
  obtain ⟨c, text, hpass, hreads, hspan, -⟩ := he.written
  have hle := hpass.length_le
  have hlen := hreads.length
  cases hlayout : t.kind.isLayout with
  | false =>
      have hless := he.shorter hlayout
      exact h.within.before hless
  | true =>
      rcases text with - | ⟨x, text⟩
      · have hempty : t.span.start = t.span.stop := by
          rw [hspan]
          exact hreads.2.symm
        exact (h.before hlayout hempty).mono (by simp at hlen; omega)
      · exact h.within.before (by rw [List.length_cons] at hlen; omega)

theorem Fits.behind {start start₁ stop : Cursor} {gap : List Char} (h : v.Fits start t stop)
    (hgap : start.Reads gap start₁) : v.Fits start₁ t stop where
  within := h.within
  before := h.before
  clean gap' text c hreads := h.clean (gap ++ gap') text c (hgap.trans hreads)

theorem AnswerFits.skips {answer : Option Token × Lexer} (h : v.AnswerFits lx.cursor answer)
    (hskips : lx.Skips lx₁) : v.AnswerFits lx₁.cursor answer := by
  obtain ⟨gap, -, hgap⟩ := hskips.passes
  match answer, h with
  | (some t, lx₂), h => exact Fits.behind h hgap
  | (none, lx₂), h => exact h

theorem AnswerFits.before {answer : Option Token × Lexer} (h : v.AnswerFits lx.cursor answer)
    (hv : lx.Valid) (hnext : lx.next = answer) : v.Before lx.cursor.rest := by
  match answer, h, hnext with
  | (some t, lx₁), h, hnext => exact Fits.before_of_emits h (Lexer.next_emits hv hnext).2
  | (none, lx₁), h, _ => exact fun a b hcut => nomatch h.2.symm.trans hcut

end

/-! ## Written tokens -/

/-- The answer of the second lexer is that of the first, and of the lexers only the place and the brackets
are other than before. -/
def ScansAlike (v : Variation) (lx lx' : Lexer) (answer answer' : Option Token × Lexer) : Prop :=
  ∃ t t' c c' layout, answer = (some t, { lx with cursor := c, layout }) ∧
    answer' = (some t', { lx' with cursor := c', layout }) ∧ v.Tells t.kind t'.kind ∧
    v.Matches c.rest c'.rest

theorem accept_alike (hlayout : lx'.layout = lx.layout) {scanned scanned' : Scanned}
    (hanswer : lx.accept scanned = (some t, lx₁))
    (hsame : ∀ kind, scanned = (.ok kind, lx₁.cursor) → ∃ kind' c', scanned' = (.ok kind', c') ∧
      v.Tells kind kind' ∧ v.Matches lx₁.cursor.rest c'.rest) :
    v.ScansAlike lx lx' (some t, lx₁) (lx'.accept scanned') := by
  obtain ⟨kind, c, hscanned, rfl, rfl⟩ := Lexer.accept_eq_some hanswer
  obtain ⟨kind', c', rfl, htells, hmatches⟩ := hsame kind hscanned
  refine ⟨_, ⟨kind', ⟨lx'.start, c'.position⟩⟩, c, c', lx.layout, rfl, ?_, htells, hmatches⟩
  rw [← hlayout]
  rfl

theorem accept_same (hlayout : lx'.layout = lx.layout) {scanned scanned' : Scanned}
    (hanswer : lx.accept scanned = (some t, lx₁)) (hsame : v.Same scanned scanned') :
    v.ScansAlike lx lx' (some t, lx₁) (lx'.accept scanned') := by
  refine accept_alike hlayout hanswer fun kind hscanned => ?_
  subst hscanned
  exact ⟨kind, scanned'.2, Prod.ext hsame.1 rfl, .refl v kind, hsame.2⟩

theorem scanToken_alike [Text.IdentifierTable] (h : v.Matches lx.cursor.rest lx'.cursor.rest)
    (hlayout : lx'.layout = lx.layout) (hscan : lx.scanToken x = (some t, lx₁))
    (hwithin : v.Within lx₁.cursor.rest)
    (hclean : ∀ text, lx.cursor.rest = text ++ lx₁.cursor.rest → v.Clean (x :: text)) :
    v.ScansAlike lx lx' (some t, lx₁) (lx'.scanToken x) := by
  unfold Lexer.scanToken at hscan ⊢
  split at hscan
  · next hstart =>
    rw [if_pos hstart]
    refine accept_alike hlayout hscan fun kind hscanned => ?_
    exact h.scanWord (Lexer.isIdentifierChar_of_start hstart) hscanned hwithin hclean
  rw [if_neg (by assumption)]
  split at hscan
  · rw [if_pos (by assumption)]
    exact accept_same hlayout hscan (same_scanNumber x h)
  rw [if_neg (by assumption)]
  split at hscan
  · next hquote =>
    rw [if_pos hquote]
    have hquote : Token.IsQuote x := by simpa [Token.IsQuote] using hquote
    refine accept_alike hlayout hscan fun kind hscanned => ?_
    exact h.scanString hquote hscanned hwithin fun hreturns hblock =>
      unescaped_of_clean [] (fun _ hx => absurd hx List.not_mem_nil) hquote rfl hclean hreturns hblock
  rw [if_neg (by assumption)]
  split at hscan
  · rw [if_pos (by assumption)]
    exact accept_same hlayout hscan (same_scanDot h)
  rw [if_neg (by assumption)]
  split at hscan
  · next p hp =>
    cases hscan
    refine ⟨_, lx'.token (.punct p), lx.cursor, lx'.cursor, lx.layout.openBracket x, rfl, ?_,
      .refl v (.punct p), h⟩
    rw [← hlayout]
    rfl
  · split at hscan
    · next p hclose =>
      rw [hlayout]
      split at hscan
      · next layout hlayout₁ =>
        cases hscan
        exact ⟨_, lx'.token (.punct p), lx.cursor, lx'.cursor, layout, rfl, rfl, .refl v (.punct p), h⟩
      · cases hscan
    · split at hscan
      · next p c hfound =>
        obtain ⟨found', hfound', hsame⟩ := h.operator? hfound
        rw [hfound']
        refine accept_same hlayout hscan ⟨?_, hsame.2⟩
        rw [hsame.1]
      · cases hscan

/-! ## The end of the text -/

theorem alike_closed (hrest : v.Follows lx.cursor.rest lx'.cursor.rest) (hlayout : lx'.layout = lx.layout)
    (count : Nat) : v.Alike (lx.closed count) (lx'.closed count) where
  rest := hrest
  layout := congrArg (·.closeAll.2) hlayout
  waiting := by simp [Lexer.closed]
  atLineStart := nofun
  lineHasTokens := rfl
  finished := rfl

section

variable [Text.IdentifierTable]

theorem waiting_alike (h : v.Alike lx lx') (hv : lx.Valid) (hv' : lx'.Valid)
    (hwait : lx.pending ≠ [] ∨ lx.finished = true) : v.Answers lx.next lx'.next := by
  have hwaiting := h.waiting
  cases hpending : lx.pending with
  | nil =>
      have hfinished : lx.finished = true := hwait.resolve_left (absurd hpending)
      have hpending' : lx'.pending = [] := List.eq_nil_of_length_eq_zero (by rw [hwaiting, hpending]; rfl)
      have hfinished' : lx'.finished = true := h.finished.trans hfinished
      simp only [Lexer.next, hpending, hpending', hfinished, hfinished', Bool.true_or, if_true]
      exact hv'.noError
  | cons t rest =>
      obtain ⟨t', rest', hpending'⟩ : ∃ t' rest', lx'.pending = t' :: rest' := by
        refine List.exists_cons_of_length_pos ?_
        rw [hwaiting, hpending, List.length_cons]
        exact Nat.succ_pos _
      have hdedent : t.kind = .dedent := by
        rw [hv.pending t (by rw [hpending]; exact List.mem_cons_self)]
      have hdedent' : t'.kind = .dedent := by
        rw [hv'.pending t' (by rw [hpending']; exact List.mem_cons_self)]
      simp only [Lexer.next, hpending, hpending']
      rw [hpending, hpending', List.length_cons, List.length_cons] at hwaiting
      refine ⟨?_, h.rest, h.layout, Nat.succ.inj hwaiting, h.atLineStart, h.lineHasTokens, h.finished⟩
      rw [hdedent, hdedent']
      exact .refl v _

theorem finish_alike (h : v.Alike lx lx') (hs : lx.Searching) (hs' : lx'.Searching)
    (hend : lx.cursor.rest = []) (hend' : lx'.cursor.rest = []) (herror : lx.finish.2.error = none) :
    v.Answers lx.finish lx'.finish := by
  have hb := Lexer.finish_brackets herror
  have hb' : lx'.layout.brackets = [] := by rw [h.layout, hb]
  cases hline : lx.lineHasTokens with
  | true =>
      rw [Lexer.finish_line hb hline, Lexer.finish_line hb' (h.lineHasTokens.trans hline), h.layout]
      exact ⟨.refl v _, alike_closed h.rest h.layout _⟩
  | false =>
      rw [Lexer.finish_blocks hb hline hs.pending,
        Lexer.finish_blocks hb' (h.lineHasTokens.trans hline) hs'.pending, h.layout]
      exact waiting_alike (alike_closed h.rest h.layout _) (Lexer.valid_closed hs.valid hb hend _)
        (Lexer.valid_closed hs'.valid hb' hend' _) (.inr rfl)

theorem AnswerFits.cut_none {start : Cursor} (h : v.AnswerFits start lx.finish)
    (hend : lx.cursor.rest = []) : v.cut = none := by
  cases hcut : v.cut with
  | none => rfl
  | some texts =>
      obtain ⟨a, b⟩ := texts
      generalize hfinish : lx.finish = answer at h
      match answer, h with
      | (none, lx₁), h => exact absurd (h.2.symm.trans hcut) nofun
      | (some t, lx₁), h =>
          obtain ⟨hlayout, hempty, hcursor⟩ := Lexer.finish_some hfinish
          have hlt := Fits.before h hlayout hempty a b hcut
          rw [hcursor, hend] at hlt
          exact absurd hlt (Nat.not_lt_zero _)

theorem AnswerFits.noError {start : Cursor} {answer : Option Token × Lexer}
    (h : v.AnswerFits start answer) (ho : lx.Outcome answer) :
    answer.2.error = none := by
  match answer, h, ho with
  | (some t, lx₁), _, ho => exact ho.1.noError
  | (none, lx₁), h, _ => exact h.1

/-! ## The rest of a line -/

/-- What is asked of a step inside of a line. -/
def StepFits (v : Variation) (start : Cursor) : LexStep → Prop
  | .skipped lx₁ => v.Within lx₁.cursor.rest
  | .answer token lx₁ => v.AnswerFits start (token, lx₁)

end

/-- Two steps inside of a line are the same. -/
def StepAlike (v : Variation) : LexStep → LexStep → Prop
  | .skipped lx₁, .skipped lx₁' => v.Alike lx₁ lx₁'
  | .answer token lx₁, .answer token' lx₁' => v.Answers (token, lx₁) (token', lx₁')
  | _, _ => False

theorem endLine_alike (h : v.Alike lx lx') : v.StepAlike lx.endLine lx'.endLine := by
  unfold Lexer.endLine
  dsimp only
  rw [h.lineHasTokens]
  split
  · exact ⟨.refl v _, h.rest, h.layout, h.waiting, fun _ => rfl, rfl, h.finished⟩
  · exact ⟨h.rest, h.layout, h.waiting, fun _ => rfl, rfl, h.finished⟩

/-- A line goes on in both texts, behind a return or without one. -/
theorem continueLine_alike (h : v.Alike lx lx') (hmatches : v.Matches lx.cursor.rest lx'.cursor.rest)
    (hcontinued : lx.continueLine = .skipped lx₁) :
    ∃ lx₁', lx'.continueLine = .skipped lx₁' ∧ v.Alike lx₁ lx₁' := by
  obtain ⟨c, rfl, hrest⟩ := Lexer.continueLine_skipped hcontinued
  have hright : ∃ b, v.Follows c.rest b ∧
      (lx'.cursor.rest = '\n' :: b ∨ lx'.cursor.rest = '\r' :: '\n' :: b) := by
    rcases hrest with hrest | hrest
    · rw [hrest] at hmatches
      obtain ⟨b, hfollows, hb⟩ := hmatches.newline
      exact ⟨b, hfollows, hb.imp_right And.right⟩
    · rw [hrest] at hmatches
      generalize lx'.cursor.rest = rest' at hmatches
      -- where returns are put in there is none before
      cases hmatches with
      | same _ hplain hmatches =>
          obtain ⟨b, hfollows, rfl | ⟨hreturns, -⟩⟩ := hmatches.newline
          · exact ⟨b, hfollows, .inr rfl⟩
          · exact absurd rfl (hplain hreturns)
  obtain ⟨b, hfollows, hrest'⟩ := hright
  obtain ⟨c', hcontinued', rfl⟩ := Lexer.continueLine_eq hrest'
  exact ⟨_, hcontinued', hfollows, h.layout, h.waiting, h.atLineStart, h.lineHasTokens, h.finished⟩

theorem Within.of_endLine [Text.IdentifierTable] {start : Cursor} (h : v.StepFits start lx.endLine) :
    v.Within lx.cursor.rest := by
  unfold Lexer.endLine at h
  dsimp only at h
  split at h
  · exact Fits.within h
  · exact h

/-- What was asked of a token holds of the text that was scanned. -/
theorem Fits.clean_of_scan [Text.IdentifierTable] {gap : List Char} (h : v.Fits c t lx₁.cursor)
    (hgap : c.Reads gap lx.gapEnd) (hx : lx.gapEnd.next? = some (x, c₁))
    (hscan : (lx.atToken c₁).ScanOutcome x (some t, lx₁)) :
    ∀ text, c₁.rest = text ++ lx₁.cursor.rest → v.Clean (x :: text) := by
  obtain ⟨text, c₂, stack, rfl, hreads, hspan, -⟩ := hscan
  intro text' htext'
  have hsame : text' = text := List.append_cancel_right (htext'.symm.trans hreads.1)
  subst hsame
  exact h.clean gap _ lx.gapEnd hgap ((reads_next hx).trans hreads) (by rw [hspan]; rfl)

theorem Alike.gapEnd (h : v.Alike lx lx') (hmatches : v.Matches lx.cursor.rest lx'.cursor.rest)
    (hbefore : lx.layout.inBrackets = true → v.Before lx.gapEnd.rest) :
    v.Level lx.gapEnd lx'.gapEnd := by
  unfold Lexer.gapEnd at hbefore ⊢
  rw [h.layout]
  exact hmatches.skipGaps _ _ (Nat.le_refl _) hbefore _ (Nat.le_refl _)

/-- The same character comes behind it, as long as the place where the texts part is not passed. -/
theorem Alike.next (h : v.Alike lx lx') (hmatches : v.Matches lx.cursor.rest lx'.cursor.rest)
    (hx : lx.gapEnd.next? = some (x, c₁)) (hwithin : v.Within c₁.rest) :
    ∃ c₁', lx'.gapEnd.next? = some (x, c₁') ∧ v.Alike (lx.atToken c₁) (lx'.atToken c₁') ∧
      (x ≠ '\n' → v.Matches c₁.rest c₁'.rest) := by
  have hlen := (reads_next hx).length
  rw [List.length_singleton] at hlen
  have hlevel := h.gapEnd hmatches fun _ => hwithin.before (by omega)
  obtain ⟨c₁', hx', hfollows, hplain⟩ := hlevel.next hx
  exact ⟨c₁', hx', ⟨hfollows, h.layout, h.waiting, h.atLineStart, h.lineHasTokens, h.finished⟩, hplain⟩

section

variable [Text.IdentifierTable]

theorem readOn_end_alike (h : v.Alike lx lx') (hmatches : v.Matches lx.cursor.rest lx'.cursor.rest)
    (hs : lx.Searching) (hs' : lx'.Searching) (hx : lx.gapEnd.next? = none)
    (hfits : v.StepFits lx.cursor lx.readOn) : v.StepAlike lx.readOn lx'.readOn := by
  rw [Lexer.readOn_end hx] at hfits ⊢
  have hfits : v.AnswerFits lx.cursor (lx.moveTo lx.gapEnd).finish := hfits
  have hend := Cursor.rest_eq_nil_of_next hx
  have hcut : v.cut = none := hfits.cut_none hend
  have hlevel := h.gapEnd hmatches fun _ a b hcut' => nomatch hcut.symm.trans hcut'
  have hend' : lx'.gapEnd.rest = [] := (hlevel.next_none hx).1
  have hx' : lx'.gapEnd.next? = none := by rw [Cursor.next?, hend']
  have hout := Lexer.finish_outcome (hs.moved lx.gapEnd).valid hs.pending hend
  rw [Lexer.readOn_end hx']
  exact finish_alike (h.moveTo (.inl hlevel.rest)) (hs.moved _) (hs'.moved _) hend hend'
    (hfits.noError hout)

theorem readOn_newline_alike (h : v.Alike lx lx') (hmatches : v.Matches lx.cursor.rest lx'.cursor.rest)
    (hx : lx.gapEnd.next? = some ('\n', c₁)) (hfits : v.StepFits lx.cursor lx.readOn) :
    v.StepAlike lx.readOn lx'.readOn := by
  rw [Lexer.readOn_newline hx] at hfits ⊢
  have hwithin : v.Within c₁.rest := Within.of_endLine hfits
  obtain ⟨c₁', hx', halike, -⟩ := h.next hmatches hx hwithin
  rw [Lexer.readOn_newline hx']
  exact endLine_alike halike

theorem readOn_backslash_alike (h : v.Alike lx lx')
    (hmatches : v.Matches lx.cursor.rest lx'.cursor.rest) (hx : lx.gapEnd.next? = some ('\\', c₁))
    (hfits : v.StepFits lx.cursor lx.readOn) : v.StepAlike lx.readOn lx'.readOn := by
  rw [Lexer.readOn_backslash hx] at hfits ⊢
  cases hstep : (lx.atToken c₁).continueLine with
  | skipped lx₁ =>
      rw [hstep] at hfits
      obtain ⟨d, rfl, hrest⟩ := Lexer.continueLine_skipped hstep
      have hwithin : v.Within d.rest := hfits
      have hless : d.rest.length ≤ c₁.rest.length := by
        rcases hrest with hrest | hrest
        · exact (congrArg List.length hrest).symm ▸ Nat.le_succ _
        · exact (congrArg List.length hrest).symm ▸ Nat.le_add_right _ 2
      obtain ⟨c₁', hx', halike, hplain⟩ := h.next hmatches hx (hwithin.mono hless)
      obtain ⟨lx₁', hstep', halike₁⟩ := continueLine_alike halike (hplain (by decide)) hstep
      rw [Lexer.readOn_backslash hx', hstep']
      exact halike₁
  | answer token lx₁ =>
      rw [hstep] at hfits
      obtain ⟨rfl, herror⟩ := Lexer.continueLine_answer hstep
      exact absurd hfits.1 herror

theorem readOn_token_alike (h : v.Alike lx lx') (hmatches : v.Matches lx.cursor.rest lx'.cursor.rest)
    (hx : lx.gapEnd.next? = some (x, c₁)) (hfeed : x ≠ '\n') (hbackslash : x ≠ '\\')
    (hfits : v.StepFits lx.cursor lx.readOn) : v.StepAlike lx.readOn lx'.readOn := by
  have hscan := Lexer.scanToken_outcome x (lx.atToken c₁)
  rw [Lexer.readOn_token hx hfeed hbackslash] at hfits ⊢
  cases hanswer : (lx.atToken c₁).scanToken x with
  | mk token lx₁ =>
      rw [hanswer] at hfits hscan
      cases token with
      | none => exact absurd hfits.1 hscan
      | some t =>
          have hfits : v.Fits lx.cursor t lx₁.cursor := hfits
          obtain ⟨gap, -, hreads⟩ := lx.passes_gapEnd
          have hclean := hfits.clean_of_scan hreads hx hscan
          have hless : lx₁.cursor.rest.length ≤ c₁.rest.length := by
            obtain ⟨text, c₂, stack, rfl, htext, -⟩ := hscan
            have hlen : c₁.rest.length = text.length + c₂.rest.length := htext.length
            show c₂.rest.length ≤ c₁.rest.length
            omega
          obtain ⟨c₁', hx', -, hplain⟩ := h.next hmatches hx (hfits.within.mono hless)
          have hmatches₁ : v.Matches (lx.atToken c₁).cursor.rest (lx'.atToken c₁').cursor.rest :=
            hplain hfeed
          obtain ⟨t₁, t', c₂, c₂', layout, hsame, hanswer', htells, hmatches₂⟩ :=
            scanToken_alike hmatches₁ h.layout hanswer hfits.within hclean
          cases hsame
          rw [Lexer.readOn_token hx' hfeed hbackslash, hanswer']
          exact ⟨htells, .inl hmatches₂, rfl, h.waiting, h.atLineStart, rfl, h.finished⟩

theorem readOn_alike (h : v.Alike lx lx') (hmatches : v.Matches lx.cursor.rest lx'.cursor.rest)
    (hs : lx.Searching) (hs' : lx'.Searching) (hfits : v.StepFits lx.cursor lx.readOn) :
    v.StepAlike lx.readOn lx'.readOn := by
  cases hx : lx.gapEnd.next? with
  | none => exact readOn_end_alike h hmatches hs hs' hx hfits
  | some next =>
      obtain ⟨x, c⟩ := next
      by_cases hfeed : x = '\n'
      · subst hfeed
        exact readOn_newline_alike h hmatches hx hfits
      by_cases hbackslash : x = '\\'
      · subst hbackslash
        exact readOn_backslash_alike h hmatches hx hfits
      · exact readOn_token_alike h hmatches hx hfeed hbackslash hfits

end

/-! ## The start of a line -/

/-- Two starts of lines are the same: the end of the text, or a line that goes on. -/
def StartAlike (v : Variation) : LineStart → LineStart → Prop
  | .atEnd lx₁, .atEnd lx₁' => v.Alike lx₁ lx₁'
  | .code (some t) lx₁, .code (some t') lx₁' => t'.kind = t.kind ∧ v.Alike lx₁ lx₁'
  | .code none lx₁, .code none lx₁' => lx₁.error = none → lx₁'.error = none ∧ v.Alike lx₁ lx₁'
  | _, _ => False

theorem StartAlike.of_atEnd {start : LineStart} (h : v.StartAlike (.atEnd lx₁) start) :
    ∃ lx₁', start = .atEnd lx₁' ∧ v.Alike lx₁ lx₁' := by
  cases start with
  | atEnd lx₁' => exact ⟨lx₁', rfl, h⟩
  | blank => exact h.elim
  | code token => cases token <;> exact h.elim

theorem StartAlike.of_layout {start : LineStart} (h : v.StartAlike (.code (some t) lx₁) start) :
    ∃ t' lx₁', start = .code (some t') lx₁' ∧ t'.kind = t.kind ∧ v.Alike lx₁ lx₁' := by
  cases start with
  | atEnd => exact h.elim
  | blank => exact h.elim
  | code token lx₁' =>
      cases token with
      | none => exact h.elim
      | some t' => exact ⟨t', lx₁', rfl, h⟩

theorem StartAlike.of_code {start : LineStart} (h : v.StartAlike (.code none lx₁) start)
    (herror : lx₁.error = none) :
    ∃ lx₁', start = .code none lx₁' ∧ lx₁'.error = none ∧ v.Alike lx₁ lx₁' := by
  cases start with
  | atEnd => exact h.elim
  | blank => exact h.elim
  | code token lx₁' =>
      cases token with
      | none => exact ⟨lx₁', rfl, h herror⟩
      | some t' => exact h.elim

theorem changeBlocks_alike (h : v.Alike lx lx') (herror : lx'.error = none) (width : Nat) :
    v.StartAlike (Lexer.changeBlocks width lx) (Lexer.changeBlocks width lx') := by
  unfold Lexer.changeBlocks
  dsimp only [Lexer.markStart]
  rw [h.layout]
  generalize lx.layout.changeIndent width = changed
  obtain ⟨change, layout⟩ := changed
  have hbegun {waiting waiting' : List Token} (hwaiting : waiting'.length = waiting.length) : v.Alike
      { lx with start := lx.position, atLineStart := false, layout, pending := waiting }
      { lx' with start := lx'.position, atLineStart := false, layout, pending := waiting' } :=
    ⟨h.rest, rfl, hwaiting, fun _ => rfl, h.lineHasTokens, h.finished⟩
  cases change with
  | same => exact fun _ => ⟨herror, hbegun h.waiting⟩
  | indent => exact ⟨rfl, hbegun h.waiting⟩
  | dedent count =>
      cases count with
      | zero => exact fun _ => ⟨herror, hbegun h.waiting⟩
      | succ count => exact ⟨rfl, hbegun (by rw [List.length_replicate, List.length_replicate])⟩
  | inconsistent => exact nofun

variable [Text.IdentifierTable]

/-- At the start of a line the same happens, though it may take the second lexer two blank lines. -/
theorem beginLine_alike (h : v.Alike lx lx') (hmatches : v.Matches lx.cursor.rest lx'.cursor.rest)
    (hs' : lx'.Searching) (hbegins : lx'.beginsLine = true) :
    (∃ lx₁, lx.beginLine = .blank lx₁ ∧ ∃ lx₁', lx₁'.Searching ∧ v.Alike lx₁ lx₁' ∧
      ∀ answer, lx₁'.Finds answer → lx'.Finds answer) ∨
    v.StartAlike lx.beginLine lx'.beginLine := by
  obtain ⟨hblanks, hindented⟩ :=
    hmatches.same_takeWhile (p := isIndentation) (by decide) (by decide)
  have hindented : v.Matches lx.indentEnd.rest lx'.indentEnd.rest := hindented
  cases hx : lx.indentEnd.peek? with
  | none =>
      have hend := Cursor.rest_eq_nil_of_peek hx
      rw [hend] at hindented
      obtain ⟨hend', hcut⟩ := hindented.eq_nil
      rw [Lexer.beginLine_end hx, Lexer.beginLine_end (by rw [Cursor.peek?, hend']; rfl)]
      exact .inr (h.moveTo (.inl (by rw [hend, hend']; exact .nil hcut)))
  | some x =>
      have hrest := (reads_skip hx).1
      rw [List.singleton_append] at hrest
      by_cases hhash : x = '#'
      · subst hhash
        have hx' := (hindented.peek_iff (x := '#') (by decide) (by decide)).mpr hx
        have hblank' := Lexer.beginLine_comment hx'
        exact .inl ⟨_, Lexer.beginLine_comment hx, _, (hs'.blank hbegins hblank').1,
          h.moveTo hindented.skipComment.skip, fun _ => .blank hbegins hblank'⟩
      by_cases hfeed : x = '\n'
      · subst hfeed
        rw [hrest] at hindented
        obtain ⟨b, hfollows, hright⟩ := hindented.newline
        refine .inl ⟨_, Lexer.beginLine_blank hx (.inl rfl), ?_⟩
        rcases hright with hrest' | ⟨-, hrest'⟩
        · have hblank' := Lexer.beginLine_blank (peek?_of_rest hrest') (.inl rfl)
          exact ⟨_, (hs'.blank hbegins hblank').1, h.moveTo (by rw [rest_skip hrest']; exact hfollows),
            fun _ => .blank hbegins hblank'⟩
        · -- the return is a blank line, and the line feed behind it another one
          have hblank' := Lexer.beginLine_blank (peek?_of_rest hrest') (.inr rfl)
          have hs₁' := (hs'.blank hbegins hblank').1
          have hrest₁' : (lx'.moveTo lx'.indentEnd.skip).indentEnd.rest = '\n' :: b :=
            Lexer.indentEnd_eq (rest_skip hrest') (by decide)
          have hblank₁' := Lexer.beginLine_blank (peek?_of_rest hrest₁') (.inl rfl)
          exact ⟨_, (hs₁'.blank hbegins hblank₁').1,
            h.moveTo (by rw [rest_skip hrest₁']; exact hfollows),
            fun _ hfinds => .blank hbegins hblank' (.blank hbegins hblank₁' hfinds)⟩
      · rw [hrest] at hindented
        obtain ⟨b, hrest', hmatches₁⟩ := hindented.cons hfeed
        have hx' := peek?_of_rest hrest'
        by_cases hreturn : x = '\r'
        · have hblank' := Lexer.beginLine_blank hx' (.inr hreturn)
          exact .inl ⟨_, Lexer.beginLine_blank hx (.inr hreturn), _, (hs'.blank hbegins hblank').1,
            h.moveTo (by rw [rest_skip hrest']; exact .inl hmatches₁), fun _ => .blank hbegins hblank'⟩
        · have hcode : x ∉ ['#', '\n', '\r'] := by simp [hhash, hfeed, hreturn]
          rw [Lexer.beginLine_code hx hcode, Lexer.beginLine_code hx' hcode, hblanks]
          have hfollows : v.Follows lx.indentEnd.rest lx'.indentEnd.rest := by
            rw [hrest, hrest']
            exact .inl (hrest' ▸ hindented)
          exact .inr (changeBlocks_alike (h.moveTo hfollows) (hs'.moved _).valid.noError _)

/-! ## The next answer -/

theorem finds_alike {answer : Option Token × Lexer} (h : lx.Finds answer) : ∀ {lx' : Lexer},
    v.Alike lx lx' → lx.Searching → lx'.Searching → v.AnswerFits lx.cursor answer →
      ∃ answer', lx'.Finds answer' ∧ v.Answers answer answer' := by
  -- what is read next matches, since the answer stands in front of the place where the texts part
  have hrest {lx lx' : Lexer} {answer : Option Token × Lexer} (hfinds : lx.Finds answer)
      (halike : v.Alike lx lx') (hs : lx.Searching) (hfits : v.AnswerFits lx.cursor answer) :
      v.Matches lx.cursor.rest lx'.cursor.rest :=
    halike.rest.matches (hfits.before hs.valid (hfinds.next hs))
  have hstart {lx lx' : Lexer} (hmatches : v.Matches lx.cursor.rest lx'.cursor.rest)
      (halike : v.Alike lx lx') (hs : lx.Searching) (hs' : lx'.Searching) (hbegins : lx.beginsLine = true)
      (hcode : ∀ lx₁, lx.beginLine ≠ .blank lx₁) : v.StartAlike lx.beginLine lx'.beginLine := by
    rcases beginLine_alike halike hmatches hs' ((halike.beginsLine hs).trans hbegins) with
      ⟨lx₁, hblank, -⟩ | hstart
    · exact absurd hblank (hcode lx₁)
    · exact hstart
  induction h with
  | @blank lx lx₁ answer hbegins hblank hfinds ih =>
      intro lx' halike hs hs' hfits
      have hmatches := hrest (.blank hbegins hblank hfinds) halike hs hfits
      obtain ⟨hs₁, hskips, -⟩ := hs.blank hbegins hblank
      rcases beginLine_alike halike hmatches hs' ((halike.beginsLine hs).trans hbegins) with
        ⟨lx₂, hblank₂, lx₁', hs₁', halike₁, hfinds'⟩ | hstart
      · cases hblank.symm.trans hblank₂
        obtain ⟨answer', hanswer', hsame⟩ := ih halike₁ hs₁ hs₁' (hfits.skips hskips)
        exact ⟨answer', hfinds' answer' hanswer', hsame⟩
      · rw [hblank] at hstart
        exact hstart.elim
  | @atEnd lx lx₁ hbegins hend =>
      intro lx' halike hs hs' hfits
      have hbegins' := (halike.beginsLine hs).trans hbegins
      have halike₁ := hstart (hrest (.atEnd hbegins hend) halike hs hfits) halike hs hs' hbegins
        (by rw [hend]; exact nofun)
      obtain ⟨hs₁, hnil⟩ := hs.atEnd hbegins hend
      rw [hend] at halike₁
      obtain ⟨lx₁', hend', halike₁⟩ := halike₁.of_atEnd
      obtain ⟨hs₁', hnil'⟩ := hs'.atEnd hbegins' hend'
      have herror := hfits.noError (Lexer.finish_outcome hs₁.valid hs₁.pending hnil)
      exact ⟨_, .atEnd hbegins' hend', finish_alike halike₁ hs₁ hs₁' hnil hnil' herror⟩
  | @layout lx lx₁ t hbegins hcode =>
      intro lx' halike hs hs' hfits
      have halike₁ := hstart (hrest (.layout hbegins hcode) halike hs hfits) halike hs hs' hbegins
        (by rw [hcode]; exact nofun)
      rw [hcode] at halike₁
      obtain ⟨t', lx₁', hcode', hkind, halike₁⟩ := halike₁.of_layout
      refine ⟨_, .layout ((halike.beginsLine hs).trans hbegins) hcode', ?_, halike₁⟩
      rw [hkind]
      exact .refl v _
  | @code lx lx₁ answer hbegins hcode herror hfinds ih =>
      intro lx' halike hs hs' hfits
      have hbegins' := (halike.beginsLine hs).trans hbegins
      have halike₁ := hstart (hrest (.code hbegins hcode herror hfinds) halike hs hfits) halike hs
        hs' hbegins (by rw [hcode]; exact nofun)
      rw [hcode] at halike₁
      obtain ⟨hs₁, hskips, -⟩ := hs.code hbegins hcode herror
      obtain ⟨lx₁', hcode', herror', halike₁⟩ := halike₁.of_code herror
      obtain ⟨answer', hanswer', hsame⟩ :=
        ih halike₁ hs₁ (hs'.code hbegins' hcode' herror').1 (hfits.skips hskips)
      exact ⟨answer', .code hbegins' hcode' herror' hanswer', hsame⟩
  | @skipped lx lx₁ answer hbegins hskipped hfinds ih =>
      intro lx' halike hs hs' hfits
      have hbegins' := (halike.beginsLine hs).trans hbegins
      obtain ⟨hs₁, hskips, -⟩ := hs.skipped hbegins hskipped
      have hbefore := (hfits.skips hskips).before hs₁.valid (hfinds.next hs₁)
      have hstep := readOn_alike halike (hrest (.skipped hbegins hskipped hfinds) halike hs hfits)
        hs hs' (by rw [hskipped]; exact hbefore.within)
      rw [hskipped] at hstep
      cases hskipped' : lx'.readOn with
      | skipped lx₁' =>
          rw [hskipped'] at hstep
          obtain ⟨answer', hanswer', hsame⟩ :=
            ih hstep hs₁ (hs'.skipped hbegins' hskipped').1 (hfits.skips hskips)
          exact ⟨answer', .skipped hbegins' hskipped' hanswer', hsame⟩
      | answer =>
          rw [hskipped'] at hstep
          exact hstep.elim
  | @answer lx lx₁ token hbegins hanswer =>
      intro lx' halike hs hs' hfits
      have hstep := readOn_alike halike (hrest (.answer hbegins hanswer) halike hs hfits) hs hs'
        (by rw [hanswer]; exact hfits)
      rw [hanswer] at hstep
      cases hanswer' : lx'.readOn with
      | skipped =>
          rw [hanswer'] at hstep
          exact hstep.elim
      | answer token' lx₁' =>
          rw [hanswer'] at hstep
          exact ⟨_, .answer ((halike.beginsLine hs).trans hbegins) hanswer', hstep⟩

theorem next_alike (h : v.Alike lx lx') (hv : lx.Valid) (hv' : lx'.Valid)
    (hfits : v.AnswerFits lx.cursor lx.next) : v.Answers lx.next lx'.next := by
  by_cases hwait : lx.pending ≠ [] ∨ lx.finished = true
  · exact waiting_alike h hv hv' hwait
  · obtain ⟨hpending, hunfinished⟩ := not_or.mp hwait
    have hpending : lx.pending = [] := Decidable.of_not_not hpending
    have hunfinished : lx.finished = false := by simpa using hunfinished
    have hs : lx.Searching := ⟨hv, hpending, hunfinished⟩
    have hs' : lx'.Searching := by
      refine ⟨hv', List.eq_nil_of_length_eq_zero ?_, h.finished.trans hunfinished⟩
      rw [h.waiting, hpending]
      rfl
    obtain ⟨answer', hfinds', hsame⟩ :=
      finds_alike (hs.finds rfl (hfits.noError (Lexer.next_outcome hv))) h hs hs' hfits
    rw [hfinds'.next hs']
    exact hsame

/-! ## Whole runs -/

variable {ts : List Token}

/-- The tokens are the same, one by one. -/
def TellsAll (v : Variation) (ts ts' : List Token) : Prop :=
  List.Forall₂ (fun t t' => v.Tells t.kind t'.kind) ts ts'

/-- Alike lexers give the same tokens, if all of them fit, and stay alike. -/
theorem gives_alike (h : lx.Gives ts lx₁) : ∀ {lx' : Lexer}, v.Alike lx lx' → lx.Valid → lx'.Valid →
    (∀ before t after lx₂ lx₃, ts = before ++ t :: after → lx.Gives before lx₂ → lx₂.Emits t lx₃ →
      lx₃.Valid → lx₃.Gives after lx₁ → v.Fits lx₂.cursor t lx₃.cursor) →
    ∃ ts' lx₁', lx'.Gives ts' lx₁' ∧ v.TellsAll ts ts' ∧ v.Alike lx₁ lx₁' ∧ lx₁.Valid ∧ lx₁'.Valid := by
  induction h with
  | nil lx => exact fun halike hv hv' _ => ⟨[], _, .nil _, .nil, halike, hv, hv'⟩
  | @cons lx lx₁ lx₂ t ts hnext hgives ih =>
      intro lx' halike hv hv' hfits
      obtain ⟨hv₁, he⟩ := Lexer.next_emits hv hnext
      have hfirst : v.AnswerFits lx.cursor lx.next := by
        rw [hnext]
        exact hfits [] t ts lx lx₁ rfl (.nil lx) he hv₁ hgives
      have hsame := next_alike halike hv hv' hfirst
      rw [hnext] at hsame
      obtain ⟨t', lx₁', hnext', htells, halike₁⟩ := hsame.of_some
      have hv₁' := (Lexer.next_emits hv' hnext').1
      obtain ⟨ts', lx₂', hgives', hall, halike₂, hv₂, hv₂'⟩ := ih halike₁ hv₁ hv₁'
        fun before u after lx₃ lx₄ hsplit hbefore =>
          hfits (t :: before) u after lx₃ lx₄ (by rw [hsplit]; rfl) (.cons hnext hbefore)
      exact ⟨t' :: ts', lx₂', .cons hnext' hgives', .cons htells hall, halike₂, hv₂, hv₂'⟩

theorem runs_alike {last : Lexer} (h : lx.Runs ts last) (halike : v.Alike lx lx') (hv : lx.Valid)
    (hv' : lx'.Valid) (hcut : v.cut = none)
    (hfits : ∀ before t after lx₂ lx₃, ts = before ++ t :: after → lx.Gives before lx₂ →
      lx₂.Emits t lx₃ → v.Fits lx₂.cursor t lx₃.cursor) :
    ∃ ts' last', lx'.Runs ts' last' ∧ v.TellsAll ts ts' := by
  obtain ⟨lx₁, hgives, hstop, herror⟩ := h.gives
  obtain ⟨ts', lx₁', hgives', hall, halike₁, hv₁, hv₁'⟩ := gives_alike hgives halike hv hv'
    fun before t after lx₂ lx₃ hsplit hbefore he _ _ => hfits before t after lx₂ lx₃ hsplit hbefore he
  have hsame := next_alike halike₁ hv₁ hv₁' (by rw [hstop]; exact ⟨herror, hcut⟩)
  rw [hstop] at hsame
  obtain ⟨last', hstop', herror'⟩ := hsame.of_none
  refine ⟨ts', last', ?_, hall⟩
  have hruns := hgives'.runs (.stop hstop' herror')
  rwa [List.append_nil] at hruns

/-- Where no returns are put in a token fits that stands in front of the place where the texts part. -/
theorem Fits.of_before {start stop : Cursor} (hreturns : v.returns = false) (h : v.Before stop.rest) :
    v.Fits start t stop where
  within := h.within
  before _ _ := h
  clean _ _ _ _ _ _ hput := absurd (hreturns.symm.trans hput) nofun

omit [Text.IdentifierTable] in
theorem TellsAll.map_kind {ts' : List Token} (h : v.TellsAll ts ts') (hreturns : v.returns = false) :
    ts'.map (·.kind) = ts.map (·.kind) := by
  induction h with
  | nil => rfl
  | cons htells _ ih => rw [List.map_cons, List.map_cons, htells.2 hreturns, ih]

theorem runs_same {last : Lexer} (h : lx.Runs ts last) (halike : Alike {} lx lx') (hv : lx.Valid)
    (hv' : lx'.Valid) : ∃ ts' last', lx'.Runs ts' last' ∧ ts'.map (·.kind) = ts.map (·.kind) := by
  obtain ⟨ts', last', hruns', hall⟩ :=
    runs_alike h halike hv hv' rfl fun _ _ _ _ _ _ _ _ => .of_before rfl fun _ _ hcut => nomatch hcut
  exact ⟨ts', last', hruns', hall.map_kind rfl⟩

end MysToCpp.Variation
