/-
# Lexical errors in a line

The message of a lexical error quotes the text: an escape, a number, a character or a bracket.  None of
them holds a line feed.  An escape and a number are quoted as far as they were read, and a line feed ends
both; the character that starts no token is none that ends a line; and the brackets that are open were
read as brackets.
-/
import MysToCpp.Proofs.Text.Digits
import MysToCpp.Proofs.Text.Lines
import MysToCpp.Proofs.Token.Located

namespace MysToCpp

open Text (OneLine oneLine_literal oneLine_ofList)

variable {α : Type}

/-- If there is a fault, its message stands in a line. -/
def LexFault.OneLined (r : Except LexFault α) : Prop := ∀ fault, r = .error fault → OneLine fault.message

namespace LexFault

theorem oneLined_ok (a : α) : OneLined (.ok a) := fun _ h => nomatch h

theorem oneLined_error {fault : LexFault} (h : OneLine fault.message) :
    OneLined (.error fault : Except LexFault α) := by
  intro fault' hfault
  cases hfault
  exact h

theorem OneLined.map {β : Type} {r : Except LexFault α} (h : OneLined r) (f : α → β) : OneLined (r.map f) := by
  cases r with
  | ok a => exact oneLined_ok _
  | error fault => exact oneLined_error (h fault rfl)

theorem oneLine_char {c : Char} (h : c ≠ '\n') : OneLine c.toString := by
  simpa [OneLine] using h.symm

end LexFault

/-! ## Numbers -/

namespace Token

open LexFault (OneLined oneLined_ok oneLined_error)
open Text (isDigit isIdentifierChar isHexDigit)

theorem not_mem_takeWhile {p : Char → Bool} (hp : p '\n' = false) (c : Cursor) :
    '\n' ∉ (c.takeWhile p).1 := by
  intro h
  have hfeed : p '\n' = true := List.mem_takeWhile_imp h
  rw [hp] at hfeed
  cases hfeed

theorem not_mem_takeAtMost {p : Char → Bool} (hp : p '\n' = false) (n : Nat) (c : Cursor) :
    '\n' ∉ (c.takeAtMost n p).1 := by
  intro h
  have hfeed : p '\n' = true := List.mem_takeWhile_imp h
  rw [hp] at hfeed
  cases hfeed

theorem oneLined_badNumber {text : List Char} (h : '\n' ∉ text) : OneLined (badNumber text) :=
  oneLined_error ((oneLine_literal (by decide)).quoted (oneLine_ofList.mpr h))

theorem oneLined_radixValue {base : Nat} {marker : Char} {digits : List Char} (hmarker : marker ≠ '\n')
    (hdigits : '\n' ∉ digits) : OneLined (radixValue base marker digits) := by
  have htext : '\n' ∉ '0' :: marker :: digits := by simp [hmarker.symm, hdigits]
  rcases radixValue_cases base marker digits with ⟨n, hn⟩ | hbad
  · rw [hn]
    exact oneLined_ok _
  · rw [hbad]
    exact oneLined_badNumber htext

theorem oneLined_decimalValue {text : List Char} (isFloat : Bool) (h : '\n' ∉ text) :
    OneLined (decimalValue text isFloat) := by
  rcases decimalValue_cases text isFloat with ⟨n, -, hn⟩ | ⟨x, -, hx⟩ | hbad
  · rw [hn]
    exact oneLined_ok _
  · rw [hx]
    exact oneLined_ok _
  · rw [hbad]
    exact oneLined_badNumber h

theorem not_mem_scanFraction (c : Cursor) : '\n' ∉ (scanFraction c).1 := by
  unfold scanFraction
  split
  · have hdigits := not_mem_takeWhile (p := isDigitOrUnderscore) rfl c.skip
    simpa using hdigits
  · exact List.not_mem_nil

theorem not_mem_scanSign (c : Cursor) : '\n' ∉ (scanSign c).1 := by
  unfold scanSign
  split
  · split
    · next hsign =>
      intro hfeed
      obtain rfl := List.mem_singleton.mp hfeed
      exact absurd hsign (by decide)
    · exact List.not_mem_nil
  · exact List.not_mem_nil

theorem not_mem_scanExponent (c : Cursor) : '\n' ∉ (scanExponent c).1 := by
  unfold scanExponent
  split
  · next mark _ =>
    split
    · next hmark =>
      have hsign := not_mem_scanSign c.skip
      have hdigits := not_mem_takeWhile (p := isDigitOrUnderscore) rfl (scanSign c.skip).2
      have hne : '\n' ≠ mark := by
        rintro rfl
        exact absurd hmark (by decide)
      simpa [hne] using ⟨hsign, hdigits⟩
    · exact List.not_mem_nil
  · exact List.not_mem_nil

theorem oneLined_finishDecimal [Text.IdentifierTable] {text : List Char} (isFloat : Bool) (c : Cursor)
    (h : '\n' ∉ text) :
    OneLined (finishDecimal text isFloat c).1 :=
  oneLined_decimalValue isFloat (List.not_mem_append h (not_mem_takeWhile rfl c))

theorem radixOf_ne_newline {first marker : Char} {second : Option Char} {base : Nat}
    (h : radixOf? first second = some (base, marker)) : marker ≠ '\n' := by
  cases second <;> grind [radixOf?]

theorem oneLined_scanNumber [Text.IdentifierTable] {first : Char} (hfirst : first ≠ '\n') (c : Cursor) :
    OneLined (scanNumber first c).1 := by
  unfold scanNumber
  split
  · next base marker hradix =>
    exact oneLined_radixValue (radixOf_ne_newline hradix) (not_mem_takeWhile (by decide) _)
  · have hwhole : '\n' ∉ first :: (c.takeWhile isDigitOrUnderscore).1 :=
      List.not_mem_cons_of_ne_of_not_mem hfirst.symm (not_mem_takeWhile rfl c)
    refine oneLined_finishDecimal _ _ ?_
    exact List.not_mem_append (List.not_mem_append hwhole (not_mem_scanFraction _))
      (not_mem_scanExponent _)

theorem oneLined_scanLeadingDot [Text.IdentifierTable] (c : Cursor) : OneLined (scanLeadingDot c).1 := by
  have hdigits : '\n' ∉ ['0', '.'] ++ (c.takeWhile isDigitOrUnderscore).1 :=
    List.not_mem_append (by decide) (not_mem_takeWhile rfl c)
  exact oneLined_finishDecimal _ _ (List.not_mem_append hdigits (not_mem_scanExponent _))

/-! ## Strings -/

theorem not_mem_octal (n : Nat) : '\n' ∉ Nat.toDigits 8 n := by
  have hdigits : ∀ d < 8, '\n' ≠ Nat.digitChar d := by decide
  intro h
  obtain ⟨d, hd, hdigit⟩ := Text.exists_digit_of_mem (by decide) h
  exact hdigits d hd hdigit

/-- A bad escape is quoted without a line feed. -/
abbrev QuotesBad (r : Except (List Char) (List Char)) : Prop := ∀ bad, r = .error bad → '\n' ∉ bad

theorem quotesBad_ok (text : List Char) : QuotesBad (.ok text) := fun _ h => nomatch h

theorem quotesBad_error {bad : List Char} (h : '\n' ∉ bad) : QuotesBad (.error bad) := by
  intro bad' hbad
  cases hbad
  exact h

theorem quotesBad_scanOctal (bytes : Bool) (first : Char) (c : Cursor) :
    QuotesBad (scanOctal bytes first c).1 := by
  have hbad (n : Nat) : '\n' ∉ '\\' :: Nat.toDigits 8 n :=
    List.not_mem_cons_of_ne_of_not_mem (by decide) (not_mem_octal n)
  unfold scanOctal
  dsimp only
  split
  · exact quotesBad_error (hbad _)
  · split
    · exact quotesBad_ok _
    · exact quotesBad_error (hbad _)

theorem quotesBad_scanHex {marker : Char} (hmarker : '\n' ≠ marker) (count : Nat) (c : Cursor) :
    QuotesBad (scanHex marker count c).1 := by
  have hbad : '\n' ∉ '\\' :: marker :: (c.takeAtMost count isHexDigit).1 :=
    List.not_mem_cons_of_ne_of_not_mem (by decide)
      (List.not_mem_cons_of_ne_of_not_mem hmarker (not_mem_takeAtMost (by decide) count c))
  unfold scanHex
  dsimp only
  split
  · exact quotesBad_error hbad
  · split
    · exact quotesBad_ok _
    · exact quotesBad_error hbad

theorem quotesBad_scanEscape (bytes : Bool) (e : Char) (c : Cursor) :
    QuotesBad (scanEscape bytes e c).1 := by
  unfold scanEscape
  split
  · exact quotesBad_ok _
  · split
    · exact quotesBad_ok _
    · split
      · exact quotesBad_scanOctal bytes e c
      · split
        · exact quotesBad_scanHex (by decide) 2 c
        · split
          · exact quotesBad_scanHex (by decide) 4 c
          · split
            · exact quotesBad_scanHex (by decide) 8 c
            · split
              · exact quotesBad_error (by decide)
              · exact quotesBad_ok _

theorem oneLined_scanBody (form : StringForm) (quote : Char) (triple : Bool) (fuel : Nat)
    (read : List Char) (c : Cursor) : OneLined (scanBody form quote triple fuel read c).1 := by
  have hopen : OneLine LexFault.unterminatedString.message := oneLine_literal (by decide)
  induction fuel generalizing read c with
  | zero => exact oneLined_error hopen
  | succ fuel ih =>
      unfold scanBody
      split
      · exact oneLined_error hopen
      · split
        · split
          · exact oneLined_ok _
          · split
            · exact oneLined_ok _
            · exact ih _ _
        · split
          · exact oneLined_error hopen
          · split
            · exact oneLined_error (oneLine_literal (by decide))
            · split
              · exact ih _ _
              · split
                · exact oneLined_error hopen
                · next e c _ =>
                  split
                  · exact ih _ _
                  · have hescape := quotesBad_scanEscape form.bytes e c
                    split
                    · exact ih _ _
                    · next bad _ hbad =>
                      rw [hbad] at hescape
                      have hquoted := oneLine_ofList.mpr (hescape bad rfl)
                      exact oneLined_error ((oneLine_literal (by decide)).quoted hquoted)

theorem oneLined_scanString (form : StringForm) (quote : Char) (c : Cursor) :
    OneLined (scanString form quote c).1 := by
  simp only [scanString]
  exact (oneLined_scanBody form quote _ _ [] _).map form.token

variable [Text.IdentifierTable]

theorem oneLined_scanDot (c : Cursor) : OneLined (Lexer.scanDot c).1 := by
  unfold Lexer.scanDot
  split
  · exact oneLined_scanLeadingDot c
  · split <;> exact oneLined_ok _

theorem oneLined_scanWord (first : Char) (c : Cursor) : OneLined (Lexer.scanWord first c).1 := by
  unfold Lexer.scanWord
  dsimp only
  split
  · split
    · split
      · exact oneLined_scanString _ _ _
      · exact oneLined_ok _
    · exact oneLined_ok _
  · exact oneLined_ok _

end Token

/-! ## Runs -/

namespace Lexer

open LexFault (OneLined oneLine_char)
open Token

/-- The error of the lexer, if there is one, can be shown in a line, and so can its brackets. -/
structure OneLined (lx : Lexer) : Prop where
  brackets : '\n' ∉ lx.layout.brackets
  error : ∀ e, lx.error = some e → OneLine e.message

variable {lx : Lexer}

theorem OneLined.failed (h : lx.OneLined) {fault : LexFault} (hfault : OneLine fault.message) :
    (lx.fail fault).OneLined where
  brackets := h.brackets
  error e he := by
    cases he
    exact hfault

/-- The layout and the error are all that counts. -/
theorem OneLined.congr {lx' : Lexer} (h : lx.OneLined) (hb : lx'.layout.brackets = lx.layout.brackets)
    (he : lx'.error = lx.error) : lx'.OneLined where
  brackets := hb ▸ h.brackets
  error := he ▸ h.error

theorem OneLined.accept {scanned : Scanned} (h : lx.OneLined) (hs : LexFault.OneLined scanned.1) :
    (lx.accept scanned).2.OneLined := by
  match scanned with
  | (.ok kind, c) => exact h.congr rfl rfl
  | (.error fault, c) =>
      have hmoved : (lx.moveTo c).OneLined := h.congr rfl rfl
      exact hmoved.failed (hs fault rfl)

theorem brackets_closeBracket {layout layout' : Layout} {x : Char}
    (h : layout.closeBracket? x = some layout') : layout'.brackets ⊆ layout.brackets := by
  unfold Layout.closeBracket? at h
  split at h
  · next hbrackets =>
    split at h
    · cases h
      rw [hbrackets]
      exact List.subset_cons_self _ _
    · cases h
  · cases h

theorem OneLined.scanToken [Text.IdentifierTable] {x : Char} (h : lx.OneLined) (hx : x ≠ '\n') :
    (lx.scanToken x).2.OneLined := by
  unfold Lexer.scanToken
  split
  · exact h.accept (oneLined_scanWord x lx.cursor)
  · split
    · exact h.accept (oneLined_scanNumber hx lx.cursor)
    · split
      · exact h.accept (oneLined_scanString {} x lx.cursor)
      · split
        · exact h.accept (oneLined_scanDot lx.cursor)
        · split
          · exact ⟨List.not_mem_cons_of_ne_of_not_mem hx.symm h.brackets, h.error⟩
          · split
            · split
              · next layout hclose =>
                exact ⟨fun hfeed => h.brackets (brackets_closeBracket hclose hfeed), h.error⟩
              · exact h.failed ((oneLine_literal (by decide)).quoted (oneLine_char hx))
            · split
              · exact h.congr rfl rfl
              · exact h.failed ((oneLine_literal (by decide)).quoted (oneLine_char hx))

theorem OneLined.finish (h : lx.OneLined) : lx.finish.2.OneLined := by
  have hmarked : ({ lx.markStart with finished := true } : Lexer).OneLined := h.congr rfl rfl
  unfold Lexer.finish
  dsimp only
  split
  · next c hc =>
    refine hmarked.failed ((oneLine_literal (by decide)).quoted (oneLine_char ?_))
    rintro rfl
    exact hmarked.brackets (List.mem_of_head? hc)
  · split <;> exact h.congr rfl rfl

theorem brackets_changeIndent (width : Nat) (layout : Layout) :
    (layout.changeIndent width).2.brackets = layout.brackets := by
  unfold Layout.changeIndent
  split
  · rfl
  · split
    · rfl
    · dsimp only
      split <;> rfl

theorem OneLined.changeBlocks (h : lx.OneLined) (width : Nat) : (changeBlocks width lx).lexer.OneLined := by
  have hfault : OneLine LexFault.inconsistentDedent.message := oneLine_literal (by decide)
  have hchanged (layout : Layout) (hlayout : layout.brackets = lx.layout.brackets) :
      ({ lx.markStart with atLineStart := false, layout } : Lexer).OneLined :=
    h.congr hlayout rfl
  have hsame := hchanged _ (brackets_changeIndent width lx.layout)
  unfold Lexer.changeBlocks
  dsimp only
  split
  case h_5 => exact hsame.failed hfault
  all_goals exact hsame.congr rfl rfl

theorem OneLined.beginLine (h : lx.OneLined) : lx.beginLine.lexer.OneLined := by
  unfold Lexer.beginLine
  dsimp only
  split
  · exact h.congr rfl rfl
  · split
    · exact h.congr rfl rfl
    · split
      · exact h.congr rfl rfl
      · have hmoved : (lx.moveTo (lx.cursor.takeWhile isIndentation).2).OneLined := h.congr rfl rfl
        exact hmoved.changeBlocks _

theorem OneLined.endLine (h : lx.OneLined) : lx.endLine.lexer.OneLined := by
  unfold Lexer.endLine
  dsimp only
  split <;> exact h.congr rfl rfl

theorem OneLined.continueLine (h : lx.OneLined) : lx.continueLine.lexer.OneLined := by
  have hfault : OneLine LexFault.badContinuation.message := oneLine_literal (by decide)
  have hmoved (c : Cursor) : (lx.moveTo c).OneLined := h.congr rfl rfl
  unfold Lexer.continueLine
  generalize (if lx.cursor.peek? = some '\r' then lx.cursor.skip else lx.cursor) = c
  dsimp only
  split
  · exact hmoved _
  · exact (hmoved _).failed hfault

variable [Text.IdentifierTable]

theorem OneLined.readOn (h : lx.OneLined) : lx.readOn.lexer.OneLined := by
  have hmoved (c c' : Cursor) : ((lx.moveTo c).markStart.moveTo c').OneLined := h.congr rfl rfl
  have hmarked (c : Cursor) : (lx.moveTo c).markStart.OneLined := h.congr rfl rfl
  unfold Lexer.readOn
  dsimp only
  split
  · exact (hmarked _).finish
  · next x c _ =>
    split
    · exact (hmoved _ c).endLine
    · next hx =>
      split
      · exact (hmoved _ c).continueLine
      · have hscan := (hmoved (skipGaps lx.layout.inBrackets lx.cursor.rest.length lx.cursor) c).scanToken hx
        split
        · next hanswer =>
          rw [hanswer] at hscan
          exact hscan.congr rfl rfl
        · next hanswer =>
          rw [hanswer] at hscan
          exact hscan

theorem oneLined_invariant : Invariant OneLined where
  beginLine _ h := h.beginLine
  readOn _ h := h.readOn
  finish _ h := h.finish
  give _ _ h := h.congr rfl rfl

end Lexer

variable [Text.IdentifierTable]

theorem tokenize_oneLined {source : String} {e : LexError} (h : tokenize source = .error e) :
    OneLine e.message := by
  have hstart : (Lexer.ofText source).OneLined := ⟨List.not_mem_nil, fun _ he => nomatch he⟩
  have hrun := Lexer.oneLined_invariant.readAll (2 * source.length + 1) hstart
  unfold tokenize at h
  dsimp only at h
  split at h
  · next e' herror =>
    cases h
    exact hrun.error _ herror
  · cases h

end MysToCpp
