/-
# The same tokens are scanned

Numbers, words and marks lie within a line, so a scanner finds the same token in two texts that match, and
the texts match behind it.
-/
import MysToCpp.Proofs.Token.Scan
import MysToCpp.Proofs.Token.Variation

namespace MysToCpp.Variation

open Text (isDigit isIdentifierChar)
open Token

variable {v : Variation} {c c' : Cursor}

/-- Looking two characters ahead is looking one ahead behind the first. -/
theorem peekSecond?_eq {x : Char} (hx : c.peek? = some x) : c.peekSecond? = c.skip.peek? := by
  have hreads := Cursor.reads_skip hx
  rw [Cursor.peekSecond?, Cursor.peek?, hreads.1]
  exact List.head?_eq_getElem?.symm

/-- Two characters that end no line come next in both texts or in none. -/
theorem Matches.peek_two_iff (h : v.Matches c.rest c'.rest) {x y : Char} (hx : x ≠ '\n')
    (hx' : x ≠ '\r') (hy : y ≠ '\n') (hy' : y ≠ '\r') :
    c'.peek? = some x ∧ c'.peekSecond? = some y ↔ c.peek? = some x ∧ c.peekSecond? = some y := by
  rw [h.peek_iff hx hx']
  refine and_congr_right fun hpeek => ?_
  rw [peekSecond?_eq hpeek, peekSecond?_eq ((h.peek_iff hx hx').mpr hpeek)]
  exact (h.skip hpeek hx).peek_iff hy hy'

theorem Matches.here (h : v.Matches c.rest c'.rest) {α : Type} (a : α) : v.Same (a, c) (a, c') :=
  ⟨rfl, h⟩

/-! ## Numbers -/

theorem same_scanFraction (h : v.Matches c.rest c'.rest) :
    v.Same (scanFraction c) (scanFraction c') := by
  have hdots := h.peek_two_iff (x := '.') (y := '.') (by decide) (by decide) (by decide) (by decide)
  have hdot := h.peek_iff (x := '.') (by decide) (by decide)
  unfold scanFraction
  by_cases hcond : c.peek? = some '.' ∧ c.peekSecond? ≠ some '.'
  · have hcond' : c'.peek? = some '.' ∧ c'.peekSecond? ≠ some '.' :=
      ⟨hdot.mpr hcond.1, fun hsecond => hcond.2 (hdots.mp ⟨hdot.mpr hcond.1, hsecond⟩).2⟩
    have hdigits := (h.skip hcond.1 (by decide)).same_takeWhile (p := isDigitOrUnderscore)
      (by decide) (by decide)
    rw [← Bool.decide_and, ← Bool.decide_and, decide_eq_true hcond, decide_eq_true hcond']
    exact ⟨congrArg ('.' :: ·) hdigits.1, hdigits.2⟩
  · have hcond' : ¬ (c'.peek? = some '.' ∧ c'.peekSecond? ≠ some '.') := fun ⟨hfirst, hsecond⟩ =>
      hcond ⟨hdot.mp hfirst, fun hy => hsecond (hdots.mpr ⟨hdot.mp hfirst, hy⟩).2⟩
    rw [← Bool.decide_and, ← Bool.decide_and, decide_eq_false hcond, decide_eq_false hcond']
    exact h.here []

theorem same_scanSign (h : v.Matches c.rest c'.rest) : v.Same (scanSign c) (scanSign c') := by
  unfold scanSign
  rcases h.peek with ⟨x, hx, hx', hskip⟩ | ⟨hx, hx'⟩ | ⟨hx, hx' | hx'⟩ <;> simp only [hx, hx']
  · split
    · exact hskip.here [x]
    · exact h.here []
  all_goals exact h.here []

theorem same_scanExponent (h : v.Matches c.rest c'.rest) :
    v.Same (scanExponent c) (scanExponent c') := by
  unfold scanExponent
  rcases h.peek with ⟨x, hx, hx', hskip⟩ | ⟨hx, hx'⟩ | ⟨hx, hx' | hx'⟩ <;> simp only [hx, hx']
  · split
    · have hsign := same_scanSign hskip
      have hdigits := hsign.2.same_takeWhile (p := isDigitOrUnderscore) (by decide) (by decide)
      exact ⟨by rw [hsign.1, hdigits.1], hdigits.2⟩
    · exact h.here []
  all_goals exact h.here []

section

variable [Text.IdentifierTable]

theorem same_finishDecimal (h : v.Matches c.rest c'.rest) (text : List Char) (isFloat : Bool) :
    v.Same (finishDecimal text isFloat c) (finishDecimal text isFloat c') := by
  have hglued := h.same_takeWhile (p := isIdentifierChar) rfl rfl
  exact ⟨by simp only [finishDecimal, hglued.1], hglued.2⟩

theorem same_scanLeadingDot (h : v.Matches c.rest c'.rest) :
    v.Same (scanLeadingDot c) (scanLeadingDot c') := by
  have hdigits := h.same_takeWhile (p := isDigitOrUnderscore) (by decide) (by decide)
  have hexponent := same_scanExponent hdigits.2
  unfold scanLeadingDot
  dsimp only
  rw [hdigits.1, hexponent.1]
  exact same_finishDecimal hexponent.2 _ _

omit [Text.IdentifierTable] in
theorem Matches.radixOf? (h : v.Matches c.rest c'.rest) (first : Char) :
    Token.radixOf? first c'.peek? = Token.radixOf? first c.peek? := by
  rcases h.peek with ⟨x, hx, hx', -⟩ | ⟨hx, hx'⟩ | ⟨hx, hx' | hx'⟩ <;> rw [hx, hx']
  simp [Token.radixOf?]

theorem same_scanNumber (first : Char) (h : v.Matches c.rest c'.rest) :
    v.Same (scanNumber first c) (scanNumber first c') := by
  unfold scanNumber
  rw [h.radixOf? first]
  split
  · next base marker hradix =>
    have hmarker : c.peek? = some marker := peek_of_radixOf hradix
    have hletter : marker ≠ '\n' := by
      rintro rfl
      simp [hmarker, Token.radixOf?] at hradix
    have hdigits := (h.skip hmarker hletter).same_takeWhile
      (p := fun x => x.isAlphanum || x = '_') (by decide) (by decide)
    exact ⟨by simp only [hdigits.1], hdigits.2⟩
  · have hwhole := h.same_takeWhile (p := isDigitOrUnderscore) (by decide) (by decide)
    have hfraction := same_scanFraction hwhole.2
    have hexponent := same_scanExponent hfraction.2
    dsimp only
    rw [hwhole.1, hfraction.1, hexponent.1]
    exact same_finishDecimal hexponent.2 _ _

theorem same_scanDot (h : v.Matches c.rest c'.rest) :
    v.Same (Lexer.scanDot c) (Lexer.scanDot c') := by
  have hdigit : c'.peek?.any isDigit = c.peek?.any isDigit := by
    rcases h.peek with ⟨x, hx, hx', -⟩ | ⟨hx, hx'⟩ | ⟨hx, hx' | hx'⟩ <;> rw [hx, hx']
    decide
  have hdots := h.peek_two_iff (x := '.') (y := '.') (by decide) (by decide) (by decide) (by decide)
  unfold Lexer.scanDot
  rw [hdigit]
  split
  · exact same_scanLeadingDot h
  · simp only [Bool.and_eq_true, decide_eq_true_eq, hdots]
    split
    · next hpoints =>
      obtain ⟨hfirst, hsecond⟩ := hpoints
      rw [peekSecond?_eq hfirst] at hsecond
      exact ((h.skip hfirst (by decide)).skip hsecond (by decide)).here _
    · exact h.here _

end

/-! ## Marks -/

theorem same_either (h : v.Matches c.rest c'.rest) {x : Char} (hfeed : x ≠ '\n') (hreturn : x ≠ '\r')
    (longer shorter : Punct) :
    v.Same (Lexer.either x longer shorter c) (Lexer.either x longer shorter c') := by
  unfold Lexer.either
  simp only [h.peek_iff hfeed hreturn]
  split
  · next hsecond => exact (h.skip hsecond hfeed).here longer
  · exact h.here shorter

theorem same_doubled (h : v.Matches c.rest c'.rest) {x : Char} (hfeed : x ≠ '\n')
    (hreturn : x ≠ '\r') (double doubleAssign single singleAssign : Punct) :
    v.Same (Lexer.doubled x double doubleAssign single singleAssign c)
      (Lexer.doubled x double doubleAssign single singleAssign c') := by
  unfold Lexer.doubled
  simp only [h.peek_iff hfeed hreturn]
  split
  · next hx => exact same_either (h.skip hx hfeed) (by decide) (by decide) _ _
  · exact same_either h (by decide) (by decide) _ _

theorem Matches.operator? (h : v.Matches c.rest c'.rest) {x : Char} {found : Punct × Cursor}
    (hfound : Lexer.operator? x c = some found) :
    ∃ found', Lexer.operator? x c' = some found' ∧ v.Same found found' := by
  have heither (longer shorter : Punct) :=
    same_either h (x := '=') (by decide) (by decide) longer shorter
  have hgreater := h.peek_iff (x := '>') (by decide) (by decide)
  have hequal := h.peek_iff (x := '=') (by decide) (by decide)
  unfold Lexer.operator? at hfound ⊢
  split at hfound
  case h_1 | h_2 | h_3 =>
    cases hfound
    exact ⟨_, rfl, h.here _⟩
  case h_12 =>
    simp only [hgreater]
    split at hfound <;> cases hfound
    · next hx => exact ⟨_, if_pos hx, (h.skip hx (by decide)).here _⟩
    · next hx => exact ⟨_, if_neg hx, heither _ _⟩
  case h_13 | h_14 | h_15 | h_16 =>
    cases hfound
    exact ⟨_, rfl, same_doubled h (by decide) (by decide) _ _ _ _⟩
  case h_17 =>
    simp only [hequal]
    split at hfound <;> cases hfound
    next hx => exact ⟨_, if_pos hx, (h.skip hx (by decide)).here _⟩
  case h_18 => cases hfound
  all_goals
    cases hfound
    exact ⟨_, rfl, heither _ _⟩

end MysToCpp.Variation
