/-
# What scanners read

A scanner is given the first character of a token and reads on behind it.  Whatever it answers, it has
read some text, and if it answers with a token, that text is how the token is written: keywords and
marks by their spelling, names by themselves, numbers and strings by something.
-/
import MysToCpp.Proofs.Token.Cursor
import MysToCpp.Token.Lexer

namespace MysToCpp

namespace TokenKind

/-- The tokens that stand for the layout of a text and not for something written in it. -/
def isLayout : TokenKind → Bool
  | newline | indent | dedent | endOfFile => true
  | _ => false

def bracket? : TokenKind → Option Punct
  | punct .parenOpen => some .parenOpen
  | punct .parenClose => some .parenClose
  | punct .squareOpen => some .squareOpen
  | punct .squareClose => some .squareClose
  | punct .braceOpen => some .braceOpen
  | punct .braceClose => some .braceClose
  | _ => none

/-- `written` is how a token is written.  The end of a line is empty where the text ends without one. -/
def Spells (atEnd : Prop) (kind : TokenKind) (written : List Char) : Prop :=
  match kind with
  | keyword w => written = w.spelling.toList
  | punct p => written = p.spelling.toList
  | name s => written = s.toList
  | int _ | float _ | text _ | bytes _ | formatted _ => written ≠ []
  | newline => written = ['\n'] ∨ (atEnd ∧ written = [])
  | indent | dedent => written = []
  | endOfFile => atEnd ∧ written = []

theorem Spells.imp {p q : Prop} {kind : TokenKind} {text : List Char} (h : kind.Spells p text)
    (hpq : p → q) : kind.Spells q text := by
  cases kind with
  | newline => exact h.imp_right (And.imp_left hpq)
  | endOfFile => exact h.imp_left hpq
  | _ => exact h

def isNumber : TokenKind → Bool
  | int _ | float _ => true
  | _ => false

def isText : TokenKind → Bool
  | text _ | bytes _ | formatted _ => true
  | _ => false

/-- Numbers and strings, whose text is not told by their value. -/
def isLiteral : TokenKind → Bool
  | int _ | float _ | text _ | bytes _ | formatted _ => true
  | _ => false

theorem isLiteral_of_isNumber {kind : TokenKind} (h : kind.isNumber = true) : kind.isLiteral = true := by
  cases kind with
  | int | float => rfl
  | _ => cases h

theorem isLiteral_of_isText {kind : TokenKind} (h : kind.isText = true) : kind.isLiteral = true := by
  cases kind with
  | text | bytes | formatted => rfl
  | _ => cases h

/-- The token that a word is: a keyword is found by its spelling, and any other word is a name. -/
def ofWord (word : String) : TokenKind :=
  match Keyword.ofSpelling? word with
  | some w => keyword w
  | none => name word

end TokenKind

namespace Token

open Cursor (reads_next reads_skip reads_skip_skip reads_takeWhile reads_takeAtMost)

/-- A scan behind `first` has read some text, and its answer is spelled by it. -/
def Scans (first : Char) (c : Cursor) (scanned : Scanned) : Prop :=
  ∃ text, c.Reads text scanned.2 ∧ ∀ kind, scanned.1 = .ok kind →
    kind.Spells False (first :: text) ∧ kind.isLayout = false ∧ kind.bracket? = none

/-- For numbers and strings it is enough that something was read. -/
theorem Scans.of_literal {first : Char} {c : Cursor} {scanned : Scanned}
    (h : ∃ text, c.Reads text scanned.2)
    (hkind : ∀ kind, scanned.1 = .ok kind → kind.isLiteral = true) : Scans first c scanned := by
  obtain ⟨text, htext⟩ := h
  refine ⟨text, htext, fun kind hk => ?_⟩
  have hlit := hkind kind hk
  cases kind with
  | int | float | text | bytes | formatted => exact ⟨List.cons_ne_nil _ _, rfl, rfl⟩
  | _ => cases hlit

/-! ## Numbers -/

theorem radixValue_cases (base : Nat) (marker : Char) (digits : List Char) :
    (∃ n, radixValue base marker digits = .ok (.int n)) ∨
      radixValue base marker digits = badNumber ('0' :: marker :: digits) := by
  unfold radixValue
  grind

theorem decimalValue_cases (text : List Char) (isFloat : Bool) :
    (∃ n, isFloat = false ∧ decimalValue text isFloat = .ok (.int n)) ∨
      (∃ x, isFloat = true ∧ decimalValue text isFloat = .ok (.float x)) ∨
        decimalValue text isFloat = badNumber text := by
  unfold decimalValue
  grind

theorem isNumber_radixValue {base : Nat} {marker : Char} {digits : List Char} {kind : TokenKind}
    (h : radixValue base marker digits = .ok kind) : kind.isNumber = true := by
  rcases radixValue_cases base marker digits with ⟨n, hn⟩ | hbad
  · cases hn.symm.trans h
    rfl
  · cases hbad.symm.trans h

theorem isNumber_decimalValue {text : List Char} {isFloat : Bool} {kind : TokenKind}
    (h : decimalValue text isFloat = .ok kind) : kind.isNumber = true := by
  rcases decimalValue_cases text isFloat with ⟨n, -, hn⟩ | ⟨x, -, hx⟩ | hbad
  · cases hn.symm.trans h
    rfl
  · cases hx.symm.trans h
    rfl
  · cases hbad.symm.trans h

theorem isNumber_scanNumber [Text.IdentifierTable] {first : Char} {c : Cursor} {kind : TokenKind}
    (h : (scanNumber first c).1 = .ok kind) : kind.isNumber = true := by
  unfold scanNumber at h
  split at h
  · exact isNumber_radixValue h
  · exact isNumber_decimalValue h

theorem reads_scanFraction (c : Cursor) : c.Reads (scanFraction c).1 (scanFraction c).2 := by
  unfold scanFraction
  split
  · next h =>
    have hdot : c.peek? = some '.' := of_decide_eq_true (Bool.and_eq_true_iff.mp h).1
    exact (reads_skip hdot).trans (reads_takeWhile _ _)
  · exact .refl c

theorem reads_scanSign (c : Cursor) : c.Reads (scanSign c).1 (scanSign c).2 := by
  unfold scanSign
  split
  · next h =>
    split
    · exact reads_skip h
    · exact .refl c
  · exact .refl c

theorem reads_scanExponent (c : Cursor) : c.Reads (scanExponent c).1 (scanExponent c).2 := by
  unfold scanExponent
  split
  · next h =>
    split
    · exact ((reads_skip h).trans (reads_scanSign _)).trans (reads_takeWhile _ _)
    · exact .refl c
  · exact .refl c

theorem peek_of_radixOf {first marker : Char} {second : Option Char} {base : Nat}
    (h : radixOf? first second = some (base, marker)) : second = some marker := by
  cases second <;> grind [radixOf?]

theorem scans_number [Text.IdentifierTable] (first : Char) (c : Cursor) :
    Scans first c (scanNumber first c) := by
  refine .of_literal ?_ fun _ hk => TokenKind.isLiteral_of_isNumber (isNumber_scanNumber hk)
  unfold scanNumber
  split
  · next base marker h =>
    exact ⟨_, (reads_skip (peek_of_radixOf h)).trans (reads_takeWhile _ _)⟩
  · have hdigits := (reads_takeWhile isDigitOrUnderscore c).trans (reads_scanFraction _)
    exact ⟨_, (hdigits.trans (reads_scanExponent _)).trans (reads_takeWhile _ _)⟩

theorem scans_leadingDot [Text.IdentifierTable] (first : Char) (c : Cursor) :
    Scans first c (scanLeadingDot c) :=
  .of_literal ⟨_, ((reads_takeWhile _ _).trans (reads_scanExponent _)).trans (reads_takeWhile _ _)⟩
    fun _ hk => TokenKind.isLiteral_of_isNumber (isNumber_decimalValue hk)

/-! ## Strings -/

/-- The digits of escapes, of whatever base, are hexadecimal digits. -/
def HexDigits (text : List Char) : Prop := ∀ x ∈ text, Text.isHexDigit x = true

theorem isHexDigit_of_octal {x : Char} (h : isOctalDigit x = true) : Text.isHexDigit x = true := by
  have hoctal : 48 ≤ x.val ∧ x.val ≤ 55 := by
    simp only [isOctalDigit, Bool.and_eq_true, decide_eq_true_eq] at h
    exact h
  have hle : x.val ≤ 57 := UInt32.le_trans hoctal.2 (by decide)
  simp [Text.isHexDigit, Char.isDigit, hoctal.1, hle]

theorem reads_digits (n : Nat) {p : Char → Bool} (hp : ∀ x, p x = true → Text.isHexDigit x = true)
    (c : Cursor) : ∃ text, c.Reads text (c.takeAtMost n p).2 ∧ HexDigits text :=
  ⟨_, reads_takeAtMost n p c, fun x hx => hp x (List.all_eq_true.mp List.all_takeWhile x hx)⟩

theorem reads_scanOctal (bytes : Bool) (first : Char) (c : Cursor) :
    ∃ text, c.Reads text (scanOctal bytes first c).2 ∧ HexDigits text := by
  have hdigits := reads_digits 2 (fun _ => isHexDigit_of_octal) c
  unfold scanOctal
  dsimp only
  split
  · exact hdigits
  · split <;> exact hdigits

theorem reads_scanHex (marker : Char) (count : Nat) (c : Cursor) :
    ∃ text, c.Reads text (scanHex marker count c).2 ∧ HexDigits text := by
  have hdigits := reads_digits count (fun _ hx => hx) c
  unfold scanHex
  dsimp only
  split
  · exact hdigits
  · split <;> exact hdigits

/-- Behind its first character an escape has digits only. -/
theorem reads_scanEscape (bytes : Bool) (e : Char) (c : Cursor) :
    ∃ text, c.Reads text (scanEscape bytes e c).2 ∧ HexDigits text := by
  have hnothing : ∃ text, c.Reads text c ∧ HexDigits text := ⟨[], .refl c, nofun⟩
  unfold scanEscape
  split
  · exact hnothing
  · split
    · exact hnothing
    · split
      · exact reads_scanOctal bytes e c
      · split
        · exact reads_scanHex 'x' 2 c
        · split
          · exact reads_scanHex 'u' 4 c
          · split
            · exact reads_scanHex 'U' 8 c
            · split <;> exact hnothing

theorem reads_atTwoQuotes {quote : Char} {c : Cursor} (h : atTwoQuotes quote c = true) :
    c.Reads [quote, quote] c.skip.skip := by
  obtain ⟨hfirst, hsecond⟩ := Bool.and_eq_true_iff.mp h
  exact reads_skip_skip (of_decide_eq_true hfirst) (of_decide_eq_true hsecond)

theorem reads_scanBody (form : StringForm) (quote : Char) (triple : Bool) (fuel : Nat) :
    ∀ (read : List Char) (c : Cursor),
      ∃ text, c.Reads text (scanBody form quote triple fuel read c).2 := by
  induction fuel with
  | zero => exact fun read c => ⟨[], .refl c⟩
  | succ fuel ih =>
      intro read c
      unfold scanBody
      split
      · exact ⟨[], .refl c⟩
      · next x c₁ hx =>
        have hfirst := reads_next hx
        have hon {read : List Char} {c₂ : Cursor} {a : List Char} (h : c.Reads a c₂) :
            ∃ text, c.Reads text (scanBody form quote triple fuel read c₂).2 := by
          obtain ⟨text, htext⟩ := ih read c₂
          exact ⟨_, h.trans htext⟩
        split
        · split
          · exact ⟨_, hfirst⟩
          · split
            · next hquotes => exact ⟨_, hfirst.trans (reads_atTwoQuotes hquotes)⟩
            · exact hon hfirst
        · split
          · exact ⟨_, hfirst⟩
          · split
            · exact ⟨_, hfirst⟩
            · split
              · exact hon hfirst
              · split
                · exact ⟨_, hfirst⟩
                · next e c₂ he =>
                  have hsecond := hfirst.trans (reads_next he)
                  split
                  · exact hon hsecond
                  · obtain ⟨text, htext, -⟩ := reads_scanEscape form.bytes e c₂
                    split
                    · next hescape =>
                      rw [hescape] at htext
                      exact hon (hsecond.trans htext)
                    · next hescape =>
                      rw [hescape] at htext
                      exact ⟨_, hsecond.trans htext⟩

theorem isText_token (form : StringForm) (text : List Char) : (form.token text).isText = true := by
  unfold StringForm.token
  split
  · rfl
  · split <;> rfl

theorem isText_scanString {form : StringForm} {quote : Char} {c : Cursor} {kind : TokenKind}
    (h : (scanString form quote c).1 = .ok kind) : kind.isText = true := by
  simp only [scanString] at h
  generalize (scanBody form quote _ _ [] _).1 = result at h
  cases result with
  | error fault => cases h
  | ok body =>
      cases h
      exact isText_token form body

theorem scans_string (form : StringForm) (first quote : Char) (c : Cursor) {c' : Cursor}
    {text : List Char} (hquote : c.Reads text c') : Scans first c (scanString form quote c') := by
  refine .of_literal ?_ fun _ hk => TokenKind.isLiteral_of_isText (isText_scanString hk)
  unfold scanString
  dsimp only
  split
  · next h =>
    obtain ⟨body, hbody⟩ := reads_scanBody form quote (atTwoQuotes quote c')
      (c'.skip.skip.rest.length + 1) [] c'.skip.skip
    exact ⟨_, (hquote.trans (reads_atTwoQuotes h)).trans hbody⟩
  · obtain ⟨body, hbody⟩ := reads_scanBody form quote (atTwoQuotes quote c')
      (c'.rest.length + 1) [] c'
    exact ⟨_, hquote.trans hbody⟩

/-! ## Words -/

theorem spells_word (word : List Char) :
    (TokenKind.ofWord (String.ofList word)).Spells False word := by
  unfold TokenKind.ofWord
  cases h : Keyword.ofSpelling? (String.ofList word) with
  | none => exact String.toList_ofList.symm
  | some w =>
      have hw : w.spelling = String.ofList word := by simpa using List.find?_some h
      show word = w.spelling.toList
      rw [hw, String.toList_ofList]

theorem scans_word [Text.IdentifierTable] (first : Char) (c : Cursor) :
    Scans first c (Lexer.scanWord first c) := by
  have hmore := reads_takeWhile Text.isIdentifierChar c
  have hplain (c' : Cursor) (hc : c.Reads (c.takeWhile Text.isIdentifierChar).1 c') :
      Scans first c
        (.ok (.ofWord (String.ofList (first :: (c.takeWhile Text.isIdentifierChar).1))), c') := by
    refine ⟨_, hc, fun kind hk => ?_⟩
    cases hk
    refine ⟨spells_word _, ?_⟩
    unfold TokenKind.ofWord
    split <;> exact ⟨rfl, rfl⟩
  unfold Lexer.scanWord
  dsimp only
  split
  · next quote hquote =>
    split
    · split
      · exact scans_string _ first quote c (hmore.trans (reads_skip hquote))
      · exact hplain _ hmore
    · exact hplain _ hmore
  · exact hplain _ hmore

/-! ## Marks -/

/-- What was read behind `start` completes a mark that is no bracket. -/
def Marks (start : List Char) (c : Cursor) (found : Punct × Cursor) : Prop :=
  ∃ text, c.Reads text found.2 ∧ start ++ text = found.1.spelling.toList ∧
    (TokenKind.punct found.1).bracket? = none

theorem marks_here {start : List Char} {c : Cursor} {p : Punct} (h : start = p.spelling.toList)
    (hp : (TokenKind.punct p).bracket? = none) : Marks start c (p, c) :=
  ⟨[], .refl c, by rw [List.append_nil, h], hp⟩

theorem marks_skip {start : List Char} {c : Cursor} {p : Punct} {x : Char}
    (hx : c.peek? = some x) (h : start ++ [x] = p.spelling.toList)
    (hp : (TokenKind.punct p).bracket? = none) : Marks start c (p, c.skip) :=
  ⟨[x], reads_skip hx, h, hp⟩

theorem marks_either {start : List Char} {second : Char} {longer shorter : Punct} (c : Cursor)
    (hlonger : start ++ [second] = longer.spelling.toList)
    (hshorter : start = shorter.spelling.toList)
    (hl : (TokenKind.punct longer).bracket? = none)
    (hs : (TokenKind.punct shorter).bracket? = none) :
    Marks start c (Lexer.either second longer shorter c) := by
  unfold Lexer.either
  split
  · next h => exact marks_skip h hlonger hl
  · exact marks_here hshorter hs

theorem Marks.after {start : List Char} {c : Cursor} {x : Char} {found : Punct × Cursor}
    (h : Marks (start ++ [x]) c.skip found) (hx : c.peek? = some x) : Marks start c found := by
  obtain ⟨text, htext, hspell, hp⟩ := h
  refine ⟨[x] ++ text, (reads_skip hx).trans htext, ?_, hp⟩
  rw [← List.append_assoc, hspell]

theorem marks_operator {x : Char} {c : Cursor} {found : Punct × Cursor}
    (h : Lexer.operator? x c = some found) : Marks [x] c found := by
  have hdoubled {x : Char} {double doubleAssign single singleAssign : Punct}
      (hd : Marks ([x] ++ [x]) c.skip (Lexer.either '=' doubleAssign double c.skip))
      (hs : Marks [x] c (Lexer.either '=' singleAssign single c)) :
      Marks [x] c (Lexer.doubled x double doubleAssign single singleAssign c) := by
    unfold Lexer.doubled
    split
    · next hx => exact hd.after hx
    · exact hs
  unfold Lexer.operator? at h
  split at h
  case h_1 | h_2 | h_3 =>
    cases h
    exact marks_here rfl rfl
  case h_12 =>
    split at h <;> cases h
    · next hx => exact marks_skip hx rfl rfl
    · exact marks_either c rfl rfl rfl rfl
  case h_13 | h_14 | h_15 | h_16 =>
    cases h
    exact hdoubled (marks_either _ rfl rfl rfl rfl) (marks_either c rfl rfl rfl rfl)
  case h_17 =>
    split at h <;> cases h
    next hx => exact marks_skip hx rfl rfl
  case h_18 => cases h
  all_goals
    cases h
    exact marks_either c rfl rfl rfl rfl

theorem Marks.scans {first : Char} {c : Cursor} {found : Punct × Cursor}
    (h : Marks [first] c found) : Scans first c (.ok (.punct found.1), found.2) := by
  obtain ⟨text, htext, hspell, hp⟩ := h
  refine ⟨text, htext, fun kind hk => ?_⟩
  cases hk
  exact ⟨hspell, rfl, hp⟩

variable [Text.IdentifierTable]

theorem scans_dot (c : Cursor) : Scans '.' c (Lexer.scanDot c) := by
  unfold Lexer.scanDot
  split
  · exact scans_leadingDot '.' c
  · split
    · next h =>
      obtain ⟨hfirst, hsecond⟩ := Bool.and_eq_true_iff.mp h
      have hdots := reads_skip_skip (of_decide_eq_true hfirst) (of_decide_eq_true hsecond)
      have hspell : ['.'] ++ ['.', '.'] = Punct.ellipsis.spelling.toList := by decide
      have hmarks : Marks ['.'] c (.ellipsis, c.skip.skip) := ⟨_, hdots, hspell, rfl⟩
      exact hmarks.scans
    · exact Marks.scans (marks_here (p := .dot) rfl rfl)

end Token

end MysToCpp
