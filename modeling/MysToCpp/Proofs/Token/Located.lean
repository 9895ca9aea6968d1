/-
# Where tokens and errors of the lexer stand

Whatever the lexer does, it stands at a place of the text, has come there from the start of the current
token, and an error that it has found lies between two places (`Lexer.Located`).  Every operation keeps
this, since a cursor only moves by reading.  The tokens of a text stand one behind the other, and the
last of them is empty (`Token.Placed`).
-/
import MysToCpp.Proofs.Source.Place
import MysToCpp.Proofs.Token.Run

namespace MysToCpp

open Position (origin IsPlace)

namespace Cursor

/-- The cursor stands in a text, at the position that it says. -/
def IsIn (text : List Char) (c : Cursor) : Prop :=
  ∃ before, text = before ++ c.rest ∧ c.position = origin.afterAll before

variable {text : List Char} {c c' : Cursor}

theorem IsIn.isPlace (h : c.IsIn text) : c.position.IsPlace text := by
  obtain ⟨before, htext, hposition⟩ := h
  exact ⟨before, c.rest, htext, hposition⟩

theorem IsIn.reads {read : List Char} (h : c.IsIn text) (hr : c.Reads read c') : c'.IsIn text := by
  obtain ⟨before, htext, hposition⟩ := h
  refine ⟨before ++ read, ?_, ?_⟩
  · rw [htext, hr.1, List.append_assoc]
  · rw [hr.2, hposition, Position.afterAll_append]

theorem Reads.offset_le {read : List Char} (h : c.Reads read c') :
    c.position.offset ≤ c'.position.offset := by
  rw [h.2, Position.offset_afterAll]
  exact Nat.le_add_right _ _

theorem reads_skip? (c : Cursor) : ∃ read, c.Reads read c.skip := by
  cases h : c.peek? with
  | none =>
      rw [skip_of_peek_none h]
      exact ⟨[], .refl c⟩
  | some x => exact ⟨[x], reads_skip h⟩

end Cursor

/-! ## Errors -/

def LineStart.lexer : LineStart → Lexer
  | blank lx | atEnd lx | code _ lx => lx

def LexStep.lexer : LexStep → Lexer
  | skipped lx | answer _ lx => lx

namespace Lexer

open Cursor (reads_next reads_skip? reads_takeWhile)
open Token (Scans Scanned scans_word scans_number scans_string scans_dot marks_operator)

/-- The lexer stands in a text behind the start of the current token, and points into the text with
its error. -/
structure Located (text : List Char) (lx : Lexer) : Prop where
  cursor : lx.cursor.IsIn text
  start : lx.start.IsPlace text
  ordered : lx.start.offset ≤ lx.position.offset
  error : ∀ e, lx.error = some e → e.span.Between (IsPlace text)

variable {text : List Char} {lx : Lexer}

theorem located_ofText (source : String) : (ofText source).Located source.toList where
  cursor := ⟨[], rfl, rfl⟩
  start := ⟨[], _, rfl, rfl⟩
  ordered := Nat.le_refl _
  error _ h := nomatch h

theorem Located.moved {read : List Char} {c : Cursor} (h : lx.Located text)
    (hr : lx.cursor.Reads read c) : (lx.moveTo c).Located text where
  cursor := h.cursor.reads hr
  start := h.start
  ordered := Nat.le_trans h.ordered hr.offset_le
  error := h.error

theorem Located.marked (h : lx.Located text) : lx.markStart.Located text where
  cursor := h.cursor
  start := h.cursor.isPlace
  ordered := Nat.le_refl _
  error := h.error

theorem Located.failed (h : lx.Located text) (fault : LexFault) : (lx.fail fault).Located text where
  cursor := h.cursor
  start := h.start
  ordered := h.ordered
  error e he := by
    cases he
    exact ⟨h.start, h.cursor.isPlace, h.ordered⟩

/-- Where a lexer is located does not depend on the blocks, the brackets and the line. -/
theorem Located.congr {lx' : Lexer} (h : lx.Located text) (hc : lx'.cursor = lx.cursor)
    (hs : lx'.start = lx.start) (he : lx'.error = lx.error) : lx'.Located text where
  cursor := hc ▸ h.cursor
  start := hs ▸ h.start
  ordered := by
    rw [position, hs, hc]
    exact h.ordered
  error := he ▸ h.error

theorem Located.finish (h : lx.Located text) : lx.finish.2.Located text := by
  have hmarked : ({ lx.markStart with finished := true } : Lexer).Located text :=
    h.marked.congr rfl rfl rfl
  unfold Lexer.finish
  dsimp only
  split
  · exact hmarked.failed _
  · split <;> exact hmarked.congr rfl rfl rfl

theorem Located.changeBlocks (h : lx.Located text) (width : Nat) :
    (changeBlocks width lx).lexer.Located text := by
  have hmarked (layout : Layout) :
      ({ lx.markStart with atLineStart := false, layout } : Lexer).Located text :=
    h.marked.congr rfl rfl rfl
  unfold Lexer.changeBlocks
  dsimp only
  split
  case h_5 => exact (hmarked _).failed _
  all_goals exact h.marked.congr rfl rfl rfl

theorem Located.beginLine (h : lx.Located text) : lx.beginLine.lexer.Located text := by
  have hblanks := reads_takeWhile isIndentation lx.cursor
  unfold Lexer.beginLine
  dsimp only
  split
  · exact h.moved hblanks
  · split
    · obtain ⟨read, hend⟩ := reads_skip? (skipComment (lx.cursor.takeWhile isIndentation).2)
      exact h.moved ((hblanks.trans (reads_takeWhile _ _)).trans hend)
    · split
      · obtain ⟨read, hend⟩ := reads_skip? (lx.cursor.takeWhile isIndentation).2
        exact h.moved (hblanks.trans hend)
      · exact (h.moved hblanks).changeBlocks _

theorem Located.accept {x : Char} {scanned : Scanned} (h : lx.Located text)
    (hs : Scans x lx.cursor scanned) : (lx.accept scanned).2.Located text := by
  obtain ⟨read, hreads, -⟩ := hs
  match scanned, hreads with
  | (.ok kind, c), hreads => exact h.moved hreads
  | (.error fault, c), hreads => exact (h.moved hreads).failed fault

theorem Located.scanToken [Text.IdentifierTable] (h : lx.Located text) (x : Char) :
    (lx.scanToken x).2.Located text := by
  unfold Lexer.scanToken
  split
  · exact h.accept (scans_word x lx.cursor)
  · split
    · exact h.accept (scans_number x lx.cursor)
    · split
      · exact h.accept (scans_string {} x x lx.cursor (.refl _))
      · split
        · exact h.accept (scans_dot lx.cursor)
        · split
          · exact h.congr rfl rfl rfl
          · split
            · split
              · exact h.congr rfl rfl rfl
              · exact h.failed _
            · split
              · next p c hfound => exact h.accept (marks_operator hfound).scans
              · exact h.failed _

theorem Located.endLine (h : lx.Located text) : lx.endLine.lexer.Located text := by
  unfold Lexer.endLine
  dsimp only
  split <;> exact h.congr rfl rfl rfl

theorem Located.continueLine (h : lx.Located text) : lx.continueLine.lexer.Located text := by
  -- the return is passed, if there is one, and whatever follows it
  obtain ⟨read, hread⟩ : ∃ read, lx.cursor.Reads read
      (if lx.cursor.peek? = some '\r' then lx.cursor.skip else lx.cursor).skip := by
    split
    · obtain ⟨first, hfirst⟩ := reads_skip? lx.cursor
      obtain ⟨second, hsecond⟩ := reads_skip? lx.cursor.skip
      exact ⟨_, hfirst.trans hsecond⟩
    · exact reads_skip? lx.cursor
  unfold Lexer.continueLine
  generalize (if lx.cursor.peek? = some '\r' then lx.cursor.skip else lx.cursor) = c at hread
  dsimp only
  split
  · exact h.moved hread
  · exact (h.moved hread).failed _

variable [Text.IdentifierTable]

theorem Located.readOn (h : lx.Located text) : lx.readOn.lexer.Located text := by
  obtain ⟨⟨gap, -, hgap⟩, -⟩ :=
    passes_skipGaps lx.layout.inBrackets lx.cursor.rest.length lx.cursor
  have hmarked := (h.moved hgap).marked
  unfold Lexer.readOn
  dsimp only
  split
  · exact hmarked.finish
  · next x c hnext =>
    have hmoved := hmarked.moved (reads_next hnext)
    split
    · exact hmoved.endLine
    · split
      · exact hmoved.continueLine
      · have hscan := hmoved.scanToken x
        split
        · next hanswer =>
          rw [hanswer] at hscan
          exact hscan.congr rfl rfl rfl
        · next hanswer =>
          rw [hanswer] at hscan
          exact hscan

/-- What stays as it is while lines are begun and read and tokens are given. -/
structure Invariant (I : Lexer → Prop) : Prop where
  beginLine : ∀ lx, I lx → I lx.beginLine.lexer
  readOn : ∀ lx, I lx → I lx.readOn.lexer
  finish : ∀ lx, I lx → I lx.finish.2
  give : ∀ lx pending, I lx → I { lx with pending }

section Invariant

variable {I : Lexer → Prop} (hI : Invariant I)

include hI

theorem Invariant.search (fuel : Nat) (h : I lx) : I (search fuel lx).2 := by
  induction fuel generalizing lx with
  | zero => exact h
  | succ fuel ih =>
      have hbegun : I (if lx.atLineStart && !lx.layout.inBrackets then lx.beginLine
          else .code none lx).lexer := by
        split
        · exact hI.beginLine lx h
        · exact h
      unfold Lexer.search
      dsimp only
      generalize (if lx.atLineStart && !lx.layout.inBrackets then lx.beginLine
        else .code none lx) = begun at hbegun
      cases begun with
      | blank lx₁ => exact ih hbegun
      | atEnd lx₁ => exact hI.finish lx₁ hbegun
      | code token lx₁ =>
          cases token with
          | some token => exact hbegun
          | none =>
              have hread : I lx₁.readOn.lexer := hI.readOn lx₁ hbegun
              dsimp only
              split
              · exact hbegun
              · cases hstep : lx₁.readOn with
                | skipped lx₂ =>
                    rw [hstep] at hread
                    exact ih hread
                | answer token lx₂ =>
                    rw [hstep] at hread
                    exact hread

theorem Invariant.next (h : I lx) : I lx.next.2 := by
  unfold Lexer.next
  split
  · exact hI.give lx _ h
  · split
    · exact h
    · exact hI.search _ h

theorem Invariant.readAll (fuel : Nat) (h : I lx) : I (readAll fuel lx).2 := by
  induction fuel generalizing lx with
  | zero => exact h
  | succ fuel ih =>
      have hnext := hI.next h
      unfold Lexer.readAll
      split
      · next hnone =>
        rw [hnone] at hnext
        exact hnext
      · next hsome =>
        rw [hsome] at hnext
        exact ih hnext

end Invariant

theorem located_invariant : Invariant (Located text) where
  beginLine _ h := h.beginLine
  readOn _ h := h.readOn
  finish _ h := h.finish
  give _ _ h := h.congr rfl rfl rfl

theorem Located.next (h : lx.Located text) : lx.next.2.Located text := located_invariant.next h

end Lexer

theorem tokenize_error [Text.IdentifierTable] {source : String} {e : LexError}
    (h : tokenize source = .error e) :
    e.span.Between (IsPlace source.toList) := by
  have hrun := Lexer.located_invariant.readAll (2 * source.length + 1) (Lexer.located_ofText source)
  unfold tokenize at h
  dsimp only at h
  split at h
  · next e' herror =>
    cases h
    exact hrun.error _ herror
  · cases h

/-! ## Tokens -/

/-- Tokens that stand one behind the other, the last of them empty. -/
structure Token.Placed (place : Position → Prop) (ts : List Token) : Prop where
  between : ∀ t ∈ ts, t.span.Between place
  order : ∃ hi, Span.InOrder 0 hi (ts.map (·.span))
  last : ∃ t, ts.getLast? = some t ∧ t.span.start = t.span.stop

theorem Lexer.Trace.placed {source : String} {ts : List Token} {lx : Lexer}
    (h : Trace (.ofText source) ts lx) :
    lx.cursor.IsIn source.toList ∧ (∀ t ∈ ts, t.span.Between (IsPlace source.toList)) ∧
      Span.InOrder 0 lx.position.offset (ts.map (·.span)) := by
  induction h with
  | nil => exact ⟨⟨[], rfl, rfl⟩, fun _ ht => absurd ht List.not_mem_nil, .nil (Nat.zero_le _)⟩
  | @snoc ts lx lx' t htrace hemits ih =>
      obtain ⟨hin, hbetween, horder⟩ := ih
      obtain ⟨c, read, ⟨gap, -, hgap⟩, hread, hspan, -⟩ := hemits.written
      have hc := hin.reads hgap
      have hin' := hc.reads hread
      have ht : t.span.Between (IsPlace source.toList) := by
        rw [hspan]
        exact ⟨hc.isPlace, hin'.isPlace, hread.offset_le⟩
      refine ⟨hin', ?_, ?_⟩
      · intro u hu
        rcases List.mem_append.mp hu with hmem | hmem
        · exact hbetween u hmem
        · exact List.mem_singleton.mp hmem ▸ ht
      · rw [List.map_append, List.map_singleton, hspan]
        exact horder.append (.cons hgap.offset_le hread.offset_le (.nil (Nat.le_refl _)))

variable [Text.IdentifierTable]

theorem tokenize_placed {source : String} {ts : List Token} (h : tokenize source = .ok ts) :
    Token.Placed (IsPlace source.toList) ts := by
  obtain ⟨init, lx, lx', rfl, htrace, hends⟩ := tokenize_trace h
  obtain ⟨hin, hbetween, horder⟩ := htrace.placed
  obtain ⟨gap, -, hgap⟩ := hends.passes
  have hplace := (hin.reads hgap).isPlace
  refine ⟨?_, ⟨lx'.position.offset, ?_⟩, ⟨_, List.getLast?_concat, rfl⟩⟩
  · intro t ht
    rcases List.mem_append.mp ht with hmem | hmem
    · exact hbetween t hmem
    · rw [List.mem_singleton.mp hmem]
      exact ⟨hplace, hplace, Nat.le_refl _⟩
  · rw [List.map_append]
    exact horder.append (.cons hgap.offset_le (Nat.le_refl _) (.nil (Nat.le_refl _)))

end MysToCpp
