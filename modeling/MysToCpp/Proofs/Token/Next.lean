/-
# The next token

What follows the start of a line is read until there is a token.  With the lemmas about the start of a
line and the end of the text this gives `Lexer.next_outcome`, and everything about whole texts follows
from that.
-/
import MysToCpp.Proofs.Token.Step

namespace MysToCpp.Lexer

open Cursor (Passes reads_next reads_skip rest_eq_nil_of_next peek_of_next)
open Token (Scans Scanned scans_word scans_number scans_string scans_dot marks_operator)

/-! ## Written tokens -/

/-- Behind `x` a token was read, and of the lexer only the place and the open brackets are other than
before; or there is an error. -/
def ScanOutcome (x : Char) (lx : Lexer) : Option Token × Lexer → Prop
  | (some t, lx') => ∃ text c stack,
      lx' = { lx with cursor := c, layout := { lx.layout with brackets := stack } } ∧
      lx.cursor.Reads text c ∧ t.span = ⟨lx.start, c.position⟩ ∧
      t.kind.Spells False (x :: text) ∧ t.kind.isLayout = false ∧
      BracketStep t.kind lx.layout.brackets stack
  | (none, lx') => lx'.error ≠ none

theorem accept_outcome {x : Char} {lx : Lexer} {scanned : Scanned}
    (h : Scans x lx.cursor scanned) : lx.ScanOutcome x (lx.accept scanned) := by
  obtain ⟨text, hreads, hkind⟩ := h
  match scanned, hreads, hkind with
  | (.error fault, c), hreads, hkind => exact nofun
  | (.ok kind, c), hreads, hkind =>
      obtain ⟨hspell, hlayout, hbracket⟩ := hkind kind rfl
      exact ⟨text, c, lx.layout.brackets, rfl, hreads, rfl, hspell, hlayout, .other _ hbracket⟩

theorem accept_eq_some {lx lx₁ : Lexer} {t : Token} {scanned : Scanned}
    (h : lx.accept scanned = (some t, lx₁)) : ∃ kind c, scanned = (.ok kind, c) ∧
      t = ⟨kind, ⟨lx.start, c.position⟩⟩ ∧ lx₁ = lx.moveTo c := by
  obtain ⟨fault | kind, c⟩ := scanned
  · cases h
  · cases h
    exact ⟨kind, c, rfl, rfl, rfl⟩

theorem spelling_openBracket {x : Char} {p : Punct} (h : openBracket? x = some p) :
    [x] = p.spelling.toList := by
  unfold openBracket? at h
  split at h <;> cases h <;> rfl

theorem spelling_closeBracket {x : Char} {p : Punct} (h : closeBracket? x = some p) :
    [x] = p.spelling.toList := by
  unfold closeBracket? at h
  split at h <;> cases h <;> rfl

theorem closeBracket?_cases {x : Char} {layout layout' : Layout}
    (h : layout.closeBracket? x = some layout') : ∃ y stack, Layout.opening? x = some y ∧
      layout.brackets = y :: stack ∧ layout' = { layout with brackets := stack } := by
  unfold Layout.closeBracket? at h
  split at h
  · next expected innermost outer hopening hbrackets =>
    split at h <;> cases h
    next heq => exact ⟨innermost, outer, heq ▸ hopening, hbrackets, rfl⟩
  · cases h

theorem scanToken_outcome [Text.IdentifierTable] (x : Char) (lx : Lexer) :
    lx.ScanOutcome x (lx.scanToken x) := by
  unfold scanToken
  split
  · exact accept_outcome (scans_word x lx.cursor)
  · split
    · exact accept_outcome (scans_number x lx.cursor)
    · split
      · exact accept_outcome (scans_string {} x x lx.cursor (.refl _))
      · split
        · next hdot =>
          subst hdot
          exact accept_outcome (scans_dot lx.cursor)
        · split
          · next p hp =>
            exact ⟨[], lx.cursor, x :: lx.layout.brackets, rfl, .refl _, rfl,
              spelling_openBracket hp, rfl, .opens _ hp⟩
          · split
            · next p hp =>
              split
              · next layout hclose =>
                obtain ⟨y, stack, hopening, hstack, rfl⟩ := closeBracket?_cases hclose
                refine ⟨[], lx.cursor, stack, rfl, .refl _, rfl, spelling_closeBracket hp, rfl, ?_⟩
                rw [hstack]
                exact .closes stack hp hopening
              · exact nofun
            · split
              · next p c hfound => exact accept_outcome (marks_operator hfound).scans
              · exact nofun

theorem ScanOutcome.outcome {lx lx' : Lexer} {x : Char} {c c₁ : Cursor} {t : Token}
    (h : ((lx.moveTo c).markStart.moveTo c₁).ScanOutcome x (some t, lx')) (hv : lx.Valid)
    (hpending : lx.pending = []) (hfinished : lx.finished = false)
    (hstart : lx.atLineStart = false) (hpass : lx.cursor.Passes c) (hx : c.Reads [x] c₁) :
    lx.Outcome (some t, { lx' with lineHasTokens := true }) := by
  obtain ⟨text, c', stack, rfl, hreads, hspan, hspell, hkind, hstep⟩ := h
  have hlen := (hx.trans hreads).length
  have hle := hpass.length_le
  refine ⟨?_, ?_, ?_, ?_⟩
  · exact valid_of_reading hpending hfinished hv.noError nofun (fun _ => hstart) hv.outermost
  · exact ⟨c, [x] ++ text, hpass, hx.trans hreads, hspan, hspell.imp False.elim⟩
  · exact .written hkind rfl rfl hstep
  · show 2 * c'.rest.length + lx.openBlocks + 1 < 2 * lx.cursor.rest.length + lx.openBlocks + _
    rw [List.length_append, List.length_singleton] at hlen
    omega

/-! ## The rest of a line -/

/-- What reading behind the start of a line came to. -/
def StepOutcome (lx : Lexer) : LexStep → Prop
  | .skipped lx₁ => lx₁.Valid ∧ lx.Skips lx₁ ∧ lx₁.cursor.rest.length < lx.cursor.rest.length
  | .answer token lx₁ => lx.Outcome (token, lx₁)

/-- The end of a line is a token where the line has one, and else it belongs to the gap. -/
theorem endLine_outcome {lx : Lexer} {c c₁ : Cursor} (hv : lx.Valid) (hpending : lx.pending = [])
    (hfinished : lx.finished = false) (hb : lx.layout.brackets = []) (hpass : lx.cursor.Passes c)
    (hx : c.Reads ['\n'] c₁) : lx.StepOutcome ((lx.moveTo c).markStart.moveTo c₁).endLine := by
  have hlen := hx.length
  have hle := hpass.length_le
  rw [List.length_singleton] at hlen
  unfold endLine
  dsimp only
  split
  · next hline =>
    refine ⟨?_, ?_, ?_, ?_⟩
    · exact valid_of_reading hpending hfinished hv.noError (fun _ => hb) nofun hv.outermost
    · exact ⟨c, ['\n'], hpass, hx, rfl, .inl rfl⟩
    · exact .newline hline rfl hb hb rfl
    · show 2 * c₁.rest.length + lx.openBlocks + 0 < 2 * lx.cursor.rest.length + lx.openBlocks + _
      omega
  · next hline =>
    refine ⟨?_, ⟨?_, rfl, rfl, rfl, rfl⟩, ?_⟩
    · exact valid_of_reading hpending hfinished hv.noError (fun _ => hb)
        (fun h => absurd h hline) hv.outermost
    · exact hpass.trans ⟨_, .singleton (by decide), hx⟩
    · show c₁.rest.length < lx.cursor.rest.length
      omega

theorem continueLine_outcome {lx : Lexer} {c c₁ : Cursor} (hv : lx.Valid)
    (hpending : lx.pending = []) (hfinished : lx.finished = false) (hpass : lx.cursor.Passes c)
    (hx : c.Reads ['\\'] c₁) :
    lx.StepOutcome ((lx.moveTo c).markStart.moveTo c₁).continueLine := by
  have hle := hpass.length_le
  have hskipped {text : List Char} {c₂ : Cursor} (hgap : Gap (['\\'] ++ text))
      (htext : c₁.Reads text c₂) :
      lx.StepOutcome (.skipped (((lx.moveTo c).markStart.moveTo c₁).moveTo c₂)) := by
    have hlen := (hx.trans htext).length
    rw [List.length_append, List.length_singleton] at hlen
    refine ⟨?_, ⟨?_, rfl, rfl, rfl, rfl⟩, ?_⟩
    · exact valid_of_reading hpending hfinished hv.noError hv.brackets hv.lineStart hv.outermost
    · exact hpass.trans ⟨_, hgap, hx.trans htext⟩
    · show c₂.rest.length < lx.cursor.rest.length
      omega
  unfold continueLine
  dsimp only
  split
  · next hreturn =>
    split
    · next hnewline =>
      exact hskipped (.continuedReturn .nil) ((reads_skip hreturn).trans (reads_skip hnewline))
    · exact .inl nofun
  · split
    · next hnewline => exact hskipped (.continued .nil) (reads_skip hnewline)
    · exact .inl nofun

theorem readOn_outcome [Text.IdentifierTable] {lx : Lexer} (hv : lx.Valid) (hpending : lx.pending = [])
    (hfinished : lx.finished = false) (hstart : lx.atLineStart = false) :
    lx.StepOutcome lx.readOn := by
  obtain ⟨hpass, hbrackets⟩ :=
    passes_skipGaps lx.layout.inBrackets lx.cursor.rest.length lx.cursor
  have hbrackets := hbrackets (Nat.le_refl _)
  unfold readOn
  generalize skipGaps lx.layout.inBrackets lx.cursor.rest.length lx.cursor = c at hpass hbrackets
  dsimp only
  split
  · next hend =>
    have hskips : lx.Skips (lx.moveTo c).markStart := ⟨hpass, rfl, rfl, rfl, rfl⟩
    have hvalid : (lx.moveTo c).markStart.Valid :=
      valid_of_reading hpending hfinished hv.noError hv.brackets hv.lineStart hv.outermost
    exact hskips.outcome (finish_outcome hvalid hpending (rest_eq_nil_of_next hend))
  · next x c₁ hnext =>
    have hx := reads_next hnext
    split
    · next hnewline =>
      subst hnewline
      -- line ends in brackets are part of the gap
      have hb : lx.layout.brackets = [] := by
        cases hb : lx.layout.brackets with
        | nil => rfl
        | cons y stack =>
            have hin : lx.layout.inBrackets = true := by simp [Layout.inBrackets, hb]
            exact absurd (peek_of_next hnext) (hbrackets hin)
      exact endLine_outcome hv hpending hfinished hb hpass hx
    · split
      · next hbackslash =>
        subst hbackslash
        exact continueLine_outcome hv hpending hfinished hpass hx
      · have hscan := scanToken_outcome x ((lx.moveTo c).markStart.moveTo c₁)
        split
        · next t lx' hanswer =>
          rw [hanswer] at hscan
          exact hscan.outcome hv hpending hfinished hstart hpass hx
        · next lx' hanswer =>
          rw [hanswer] at hscan
          exact .inl hscan

/-! ## The search for a token -/

/-- Brackets are open only inside of a line, so the start of every line is looked at. -/
theorem lineStart_outcome {lx : Lexer} (hv : lx.Valid) (hpending : lx.pending = [])
    (hfinished : lx.finished = false) :
    lx.LineOutcome (if lx.atLineStart && !lx.layout.inBrackets then lx.beginLine
      else .code none lx) := by
  cases hstart : lx.atLineStart with
  | false => exact .inr ⟨hv, .refl lx, hstart⟩
  | true =>
      have hline : lx.lineHasTokens = false := by
        cases hline : lx.lineHasTokens with
        | false => rfl
        | true =>
            rw [hv.lineStart hline] at hstart
            cases hstart
      have hb : lx.layout.inBrackets = false := by simp [Layout.inBrackets, hv.brackets hline]
      rw [hb]
      exact beginLine_outcome hv hpending hfinished hline

/-- Every line that has no token makes the text shorter, so the fuel is enough. -/
theorem search_outcome [Text.IdentifierTable] (fuel : Nat) : ∀ {lx : Lexer}, lx.Valid → lx.pending = [] →
    lx.finished = false → lx.cursor.rest.length < fuel → lx.Outcome (search fuel lx) := by
  induction fuel with
  | zero =>
      intro lx _ _ _ hlen
      exact absurd hlen (Nat.not_lt_zero _)
  | succ fuel ih =>
      intro lx hv hpending hfinished hlen
      have hbegun := lineStart_outcome hv hpending hfinished
      have hagain {lx₁ : Lexer} (hv₁ : lx₁.Valid) (hskips : lx.Skips lx₁)
          (hless : lx₁.cursor.rest.length < lx.cursor.rest.length) :
          lx.Outcome (search fuel lx₁) :=
        hskips.outcome (ih hv₁ (hskips.pending.trans hpending) (hskips.finished.trans hfinished)
          (by omega))
      unfold search
      dsimp only
      split
      · next lx₁ hblank =>
        rw [hblank] at hbegun
        exact hagain hbegun.1 hbegun.2.1 hbegun.2.2
      · next lx₁ hend =>
        rw [hend] at hbegun
        obtain ⟨hv₁, hskips, hnil⟩ := hbegun
        exact hskips.outcome (finish_outcome hv₁ (hskips.pending.trans hpending) hnil)
      · next t lx₁ hcode =>
        rw [hcode] at hbegun
        exact hbegun
      · next lx₁ hcode =>
        rw [hcode] at hbegun
        split
        · next herror => exact .inl (Option.isSome_iff_ne_none.mp herror)
        · next herror =>
          obtain h | ⟨hv₁, hskips, hstart⟩ := hbegun
          · exact absurd (Option.isSome_iff_ne_none.mpr h) herror
          · have hread := readOn_outcome hv₁ (hskips.pending.trans hpending)
              (hskips.finished.trans hfinished) hstart
            split
            · next lx₂ hskipped =>
              rw [hskipped] at hread
              obtain ⟨hv₂, hskips₂, hless⟩ := hread
              exact hagain hv₂ (hskips.trans hskips₂)
                (Nat.lt_of_lt_of_le hless hskips.passes.length_le)
            · next token lx₂ hanswer =>
              rw [hanswer] at hread
              exact hskips.outcome hread

theorem pending_outcome {lx : Lexer} {t : Token} {rest : List Token} (hv : lx.Valid)
    (hpending : lx.pending = t :: rest) : lx.Outcome (some t, { lx with pending := rest }) := by
  have ht : t = ⟨.dedent, .empty lx.position⟩ :=
    hv.pending t (by rw [hpending]; exact List.mem_cons_self)
  have hline : lx.lineHasTokens = false := hv.pendingLine (by rw [hpending]; exact nofun)
  have hb := hv.brackets hline
  have hblocks : lx.openBlocks = ({ lx with pending := rest } : Lexer).openBlocks + 1 := by
    rw [openBlocks, hpending, List.length_cons]
    rfl
  subst ht
  refine ⟨⟨hv.noError, hv.brackets, hv.lineStart, hv.outermost, ?_, fun _ => hline, hv.finished⟩,
    .unwritten (.refl _) rfl rfl ?_ ?_⟩
  · intro t' ht'
    exact hv.pending t' (by rw [hpending]; exact .tail _ ht')
  · exact .dedent hline hline hb hb hblocks
  · unfold weight
    rw [hblocks]
    show 2 * lx.cursor.rest.length + _ + (if lx.lineHasTokens then 1 else 0) <
      2 * lx.cursor.rest.length + _ + (if lx.lineHasTokens then 1 else 0)
    omega

variable [Text.IdentifierTable]

theorem next_outcome {lx : Lexer} (hv : lx.Valid) : lx.Outcome lx.next := by
  unfold next
  split
  · next t rest hpending => exact pending_outcome hv hpending
  · next hpending =>
    cases hfinished : lx.finished with
    | true =>
        obtain ⟨hend, hline, hwidths⟩ := hv.finished hfinished
        refine .inr ⟨.refl _, hend, hline, hv.brackets hline, ?_⟩
        rw [openBlocks_of_pending hpending, hwidths]
    | false =>
        rw [hv.noError]
        exact search_outcome _ hv hpending hfinished (Nat.lt_succ_self _)

theorem next_emits {lx lx' : Lexer} {t : Token} (hv : lx.Valid) (h : lx.next = (some t, lx')) :
    lx'.Valid ∧ lx.Emits t lx' := by
  have hout := next_outcome hv
  rw [h] at hout
  exact hout

end MysToCpp.Lexer
