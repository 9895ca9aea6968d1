/-
# Words that are numbers

A word of letters, digits and underscores that starts with a digit is scanned as a whole, and what it is
depends on the word alone (`Token.wordValue`).  `tokenize_numeral` compares this with the grammar of whole
numbers: the words of the grammar below the limit are the ones that are read as whole numbers, each as its
own; every other word is one floating-point number or is refused as a whole.
-/
import Mathlib.Data.List.TakeWhile
import MysToCpp.Proofs.Token.Spelling
import MysToCpp.Proofs.Token.Written
import MysToCpp.Text.Unicode

namespace MysToCpp

namespace Token

open Cursor (reads_skip reads_takeWhile)
open Text (isDigit isIdentifierChar ascii_ranges isAlpha_iff ofDigits)

/-! ## The value of a word -/

section Words

variable {first marker : Char} {base n : Nat} {p : Char → Bool} {more digits : List Char}

/-- What a word of letters, digits and underscores is as a number.  The first two characters may ask for a
base; else an `e` behind the first digits makes it a floating-point number. -/
def wordValue (first : Char) (more : List Char) : Except LexFault TokenKind :=
  match radixOf? first more.head? with
  | some (base, marker) => radixValue base marker more.tail
  | none =>
    let mark := (more.dropWhile isDigitOrUnderscore).head?
    decimalValue (first :: more) (mark.any fun x => x = 'e' || x = 'E')

theorem wordValue_radix (h : Radix marker base p) :
    wordValue '0' (marker :: digits) = radixValue base marker digits := by
  have hradix : radixOf? '0' (marker :: digits).head? = some (base, marker) :=
    radixOf?_eq_some.mpr ⟨rfl, rfl, p, h⟩
  rw [wordValue, hradix]
  rfl

theorem wordValue_digits (hmore : Scored isDigit more) :
    wordValue first more = decimalValue (first :: more) false := by
  have hchars (x : Char) (hx : x ∈ more) : isDigitOrUnderscore x = true := by
    rcases hmore.chars x hx with hdigit | rfl
    · simp [isDigitOrUnderscore, hdigit]
    · rfl
  have hdrop : more.dropWhile isDigitOrUnderscore = [] := List.dropWhile_eq_nil_iff.mpr hchars
  have hradix : radixOf? first more.head? = none := by
    cases hradix : radixOf? first more.head? with
    | none => rfl
    | some found =>
        obtain ⟨base, marker⟩ := found
        obtain ⟨-, hmarker, p, h⟩ := radixOf?_eq_some.mp hradix
        have hdigit := hchars marker (List.mem_of_head? hmarker)
        cases h with
        | hexadecimal hm | octal hm | binary hm =>
            simp only [List.mem_cons, List.not_mem_nil, or_false] at hm
            rcases hm with rfl | rfl <;> cases hdigit
  rw [wordValue, hradix, hdrop]
  rfl

/-- The words that are whole numbers are those of the grammar. -/
theorem wordValue_eq_int (hfirst : isDigit first = true) :
    wordValue first more = .ok (.int n) ↔ Numeral (first :: more) n ∧ n < Nat.pow 2 128 := by
  constructor
  · intro h
    cases hradix : radixOf? first more.head? with
    | some found =>
        obtain ⟨rfl, hmarker, p, hr⟩ := radixOf?_eq_some.mp hradix
        obtain ⟨digits, rfl⟩ := List.head?_eq_some_iff.mp hmarker
        rw [wordValue_radix hr] at h
        obtain ⟨hne, hscored, rfl, hn⟩ := (radixValue_eq_ok hr).mp h
        exact ⟨.radix hr hne hscored, hn⟩
    | none =>
        have hwhole : decimalValue (first :: more) false = .ok (.int n) := by
          rw [wordValue, hradix] at h
          dsimp only at h
          generalize Option.any _ _ = isFloat at h
          rcases decimalValue_cases (first :: more) isFloat with ⟨_, rfl, _⟩ | ⟨x, _, hx⟩ | hbad
          · exact h
          · rw [hx] at h
            cases h
          · rw [hbad] at h
            cases h
        obtain ⟨hscored, hzero, rfl, hn⟩ := (decimalValue_eq_int hfirst).mp hwhole
        by_cases hz : first = '0'
        · subst hz
          have hvalue : ofDigits 10 (withoutUnderscores ('0' :: more)) = 0 :=
            ofDigits_of_zeros (by simpa [withoutUnderscores] using hzero)
          obtain ⟨hlast, hpair⟩ := hscored.separates rfl
          rw [hvalue]
          refine ⟨.zeros (scored_of_separates hlast hpair fun x hx hscore => ?_), by decide⟩
          exact decide_eq_true (hzero rfl x (mem_withoutUnderscores.mpr ⟨hx, hscore⟩))
        · exact ⟨.decimal hfirst hz hscored, hn⟩
  · rintro ⟨hnumeral, hn⟩
    cases hnumeral with
    | zeros hzeros =>
        have hscored : Scored isDigit more := hzeros.imp fun x hx => by
          rw [of_decide_eq_true hx]
          rfl
        have hzero (x : Char) (hx : x ∈ withoutUnderscores more) : x = '0' :=
          of_decide_eq_true (hzeros.digits x hx)
        rw [wordValue_digits hscored, decimalValue_eq_int hfirst]
        refine ⟨hscored, fun _ => hzero, ?_, hn⟩
        exact (ofDigits_of_zeros (by simpa [withoutUnderscores] using hzero)).symm
    | decimal _ hne hscored =>
        rw [wordValue_digits hscored, decimalValue_eq_int hfirst]
        exact ⟨hscored, fun h => absurd h hne, rfl, hn⟩
    | radix hr hne hscored =>
        rw [wordValue_radix hr, radixValue_eq_ok hr]
        exact ⟨hne, hscored, rfl, hn⟩

/-- Any other word is a floating-point number or bad as a whole. -/
theorem wordValue_cases (first : Char) (more : List Char) : (∃ n, wordValue first more = .ok (.int n)) ∨
    (∃ x, wordValue first more = .ok (.float x)) ∨ wordValue first more = badNumber (first :: more) := by
  cases hradix : radixOf? first more.head? with
  | some found =>
      obtain ⟨rfl, hmarker, p, hr⟩ := radixOf?_eq_some.mp hradix
      obtain ⟨digits, rfl⟩ := List.head?_eq_some_iff.mp hmarker
      rw [wordValue_radix hr]
      exact (radixValue_cases _ _ digits).imp_right .inr
  | none =>
      rw [wordValue, hradix]
      dsimp only
      rcases decimalValue_cases (first :: more) _ with ⟨n, -, hn⟩ | ⟨x, -, hx⟩ | hbad
      · exact .inl ⟨n, hn⟩
      · exact .inr (.inl ⟨x, hx⟩)
      · exact .inr (.inr hbad)

end Words

/-! ## Scanning words -/

/-- The characters of words of letters, digits and underscores. -/
def IsWordChar (x : Char) : Prop := x.isAlphanum = true ∨ x = '_'

theorem IsWordChar.identifier [Text.IdentifierTable] {x : Char} (h : IsWordChar x) :
    isIdentifierChar x = true := by
  rcases h with halpha | rfl
  · have hlow : x.toNat < 0x80 := by
      simp only [Char.isAlphanum, Bool.or_eq_true, isAlpha_iff, (ascii_ranges x).1] at halpha
      omega
    simp [isIdentifierChar, hlow, halpha]
  · rfl

/-- An exponent is read just where its mark stands. -/
theorem isEmpty_scanExponent (c : Cursor) :
    (scanExponent c).1.isEmpty = !c.peek?.any fun x => x = 'e' || x = 'E' := by
  unfold scanExponent
  cases c.peek? with
  | none => rfl
  | some mark =>
      dsimp only
      split
      · next hmark => simp [hmark]
      · next hmark => simp [hmark]

variable [Text.IdentifierTable]

theorem scanNumber_word (first : Char) {c : Cursor} (hword : ∀ x ∈ c.rest, IsWordChar x) :
    ∃ c', c.Reads c.rest c' ∧ c'.rest = [] ∧ scanNumber first c = (wordValue first c.rest, c') := by
  have hpeek : c.peek? = c.rest.head? := rfl
  cases hradix : radixOf? first c.rest.head? with
  | some found =>
      obtain ⟨base, marker⟩ := found
      obtain ⟨rfl, hmarker, p, hr⟩ := radixOf?_eq_some.mp hradix
      obtain ⟨digits, hrest⟩ := List.head?_eq_some_iff.mp hmarker
      have hskip := reads_skip (hpeek.trans hmarker)
      have hdigits : c.skip.rest = digits ++ [] := by
        rw [Cursor.rest_skip hrest, List.append_nil]
      have htaken := Cursor.takeWhile_of_rest (p := fun x => x.isAlphanum || x = '_') hdigits
        (fun x hx => by simpa [IsWordChar] using hword x (hrest ▸ List.mem_cons_of_mem _ hx)) nofun
      have hread := hskip.trans (reads_takeWhile (fun x => x.isAlphanum || x = '_') c.skip)
      rw [htaken] at hread
      refine ⟨⟨[], c.skip.position.afterAll digits⟩, ?_, rfl, ?_⟩
      · rw [hrest]
        exact hread
      · rw [scanNumber, hpeek, hradix]
        dsimp only
        rw [htaken, hrest, wordValue_radix hr]
  | none =>
      have hwhole := reads_takeWhile isDigitOrUnderscore c
      have hmark : (c.takeWhile isDigitOrUnderscore).2.peek? =
        (c.rest.dropWhile isDigitOrUnderscore).head? := rfl
      generalize hscan : c.takeWhile isDigitOrUnderscore = scanned at hwhole hmark
      obtain ⟨whole, c₁⟩ := scanned
      have hfraction : scanFraction c₁ = ([], c₁) := by
        have hpoint : c₁.peek? ≠ some '.' := fun hpoint => by
          have hmem : '.' ∈ c.rest := by
            rw [hwhole.1]
            exact List.mem_append_right _ (List.mem_of_head? hpoint)
          exact Bool.false_ne_true (hword _ hmem).identifier
        simp [scanFraction, hpoint]
      have hexponent := reads_scanExponent c₁
      have hempty := isEmpty_scanExponent c₁
      generalize hscan₁ : scanExponent c₁ = scanned at hexponent hempty
      obtain ⟨exponent, c₂⟩ := scanned
      have hread := hwhole.trans hexponent
      have hglued : ∀ x ∈ c₂.rest, isIdentifierChar x = true := fun x hx => by
        have hmem : x ∈ c.rest := by
          rw [hread.1]
          exact List.mem_append_right _ hx
        exact (hword x hmem).identifier
      have htaken := Cursor.takeWhile_of_rest (List.append_nil c₂.rest).symm hglued nofun
      have hall := hread.trans (reads_takeWhile isIdentifierChar c₂)
      rw [htaken] at hall
      have htext : c.rest = whole ++ exponent ++ c₂.rest := by
        rw [hall.1, List.append_nil]
      refine ⟨⟨[], c₂.position.afterAll c₂.rest⟩, ?_, rfl, ?_⟩
      · rw [htext]
        exact hall
      · simp only [scanNumber, hpeek, hradix, hscan, hfraction, hscan₁, finishDecimal, htaken, wordValue,
          hempty, hmark]
        rw [htext]
        simp

end Token

open Lexer (ofText ScansTo)
open Text (isDigit)
open Token (Numeral IsWordChar wordValue wordValue_eq_int wordValue_cases scanNumber_word)

/-! ## Whole texts -/

section

variable [Text.IdentifierTable] {word : String} {first : Char} {more : List Char}

theorem tokenize_of_wordValue {kind : TokenKind} (htext : word.toList = first :: more)
    (hfirst : isDigit first = true) (hmore : ∀ x ∈ more, IsWordChar x)
    (hvalue : wordValue first more = .ok kind) :
    ∃ t ts, tokenize word = .ok (t :: ts) ∧
      (t :: ts).map (·.kind) = [kind, .newline, .endOfFile] ∧ t.textIn word = some word.toList := by
  have hstarts := Lexer.startsToken_of_digit hfirst
  have hscans : ScansTo first more [] kind [] [] := by
    intro lx hrest hstack
    rw [← hrest] at hmore hvalue
    obtain ⟨c, -, hend, hscan⟩ := scanNumber_word first hmore
    refine ⟨c, hend, ?_⟩
    rw [lx.scanToken_digit hfirst, hscan, hvalue, ← hstack]
    rfl
  have hlexes := hscans.lexes hstarts
  rw [← htext] at hlexes
  obtain ⟨hindentation, hcode⟩ := Lexer.startsToken_code hstarts
  obtain ⟨ts, hok, hkinds⟩ := tokenize_lexed htext hindentation hcode hlexes (List.cons_ne_nil _ _)
  obtain ⟨lx, hcomes, hcursor, hstart, -⟩ := Lexer.comesTo_ofText htext hstarts
  have hrest : lx.cursor.rest = more := by rw [hcursor]
  rw [← hrest] at hmore hvalue
  obtain ⟨c, hread, -, hscan⟩ := scanNumber_word first hmore
  have htoken : lx.scanToken first = (some ⟨kind, ⟨.origin, c.position⟩⟩, lx.moveTo c) := by
    rw [lx.scanToken_digit hfirst, hscan, hvalue, ← hstart]
    rfl
  have hnext := (hcomes.finds htoken).next ⟨Lexer.valid_ofText word, rfl, rfl⟩
  obtain ⟨init, last, hruns, rfl⟩ := tokenize_eq_ok.mp hok
  cases hruns with
  | stop hstop =>
      rw [hnext] at hstop
      cases hstop
  | step hstep hmoreTokens =>
      rw [hnext] at hstep
      cases hstep
      refine ⟨_, _, hok, hkinds, ?_⟩
      have hstands : (ofText word).cursor.Stands word.toList := ⟨[], rfl, rfl⟩
      have hword : (ofText word).cursor.Reads ([first] ++ lx.cursor.rest) c := by
        refine Cursor.Reads.trans ?_ hread
        rw [hcursor]
        exact ⟨htext, rfl⟩
      rw [htext, ← hrest]
      exact (hstands.reads hword).2.2

theorem tokenize_of_wordValue_error {fault : LexFault} (htext : word.toList = first :: more)
    (hfirst : isDigit first = true) (hmore : ∀ x ∈ more, IsWordChar x)
    (hvalue : wordValue first more = .error fault) : ∃ span, tokenize word = .error ⟨fault, span⟩ := by
  obtain ⟨lx, hcomes, hcursor, -⟩ := Lexer.comesTo_ofText htext (Lexer.startsToken_of_digit hfirst)
  have hrest : lx.cursor.rest = more := by rw [hcursor]
  rw [← hrest] at hmore hvalue
  obtain ⟨c, -, -, hscan⟩ := scanNumber_word first hmore
  have hrefused : lx.scanToken first = (none, (lx.moveTo c).fail fault) := by
    rw [lx.scanToken_digit hfirst, hscan, hvalue]
    rfl
  exact ⟨_, tokenize_refused (.nil _) ⟨Lexer.valid_ofText word, rfl, rfl⟩ hcomes hrefused rfl⟩

end

/-- A word of letters, digits and underscores that starts with a digit is read as a whole number just where
the grammar has it and its value lies below the limit, and as this value.  Every other word is one
floating-point number, or is refused as a whole. -/
theorem tokenize_numeral [Text.IdentifierTable] {word : String} {first : Char} {more : List Char}
    (htext : word.toList = first :: more) (hfirst : isDigit first = true)
    (hmore : ∀ x ∈ more, IsWordChar x) :
    (∀ n, (∃ ts, tokenize word = .ok ts ∧ ts.map (·.kind) = [.int n, .newline, .endOfFile]) ↔
      Numeral word.toList n ∧ n < Nat.pow 2 128) ∧
    ((¬ ∃ n, Numeral word.toList n ∧ n < Nat.pow 2 128) →
      (∃ x t ts, tokenize word = .ok (t :: ts) ∧
        (t :: ts).map (·.kind) = [.float x, .newline, .endOfFile] ∧ t.textIn word = some word.toList) ∨
      ∃ span, tokenize word = .error ⟨.invalidNumber word, span⟩) := by
  have hgrammar (n : Nat) : wordValue first more = .ok (.int n) ↔
      Numeral (first :: more) n ∧ n < Nat.pow 2 128 := wordValue_eq_int hfirst
  have hbad : String.ofList (first :: more) = word := by rw [← htext, String.ofList_toList]
  rw [htext]
  constructor
  · intro n
    rw [← hgrammar n]
    constructor
    · rintro ⟨ts, hok, hkinds⟩
      cases hvalue : wordValue first more with
      | ok kind =>
          obtain ⟨t, us, hok', hkinds', -⟩ := tokenize_of_wordValue htext hfirst hmore hvalue
          cases hok.symm.trans hok'
          cases hkinds.symm.trans hkinds'
          rfl
      | error fault =>
          obtain ⟨span, herror⟩ := tokenize_of_wordValue_error htext hfirst hmore hvalue
          cases hok.symm.trans herror
    · intro hvalue
      obtain ⟨t, ts, hok, hkinds, -⟩ := tokenize_of_wordValue htext hfirst hmore hvalue
      exact ⟨t :: ts, hok, hkinds⟩
  · intro hnone
    rcases wordValue_cases first more with ⟨n, hint⟩ | ⟨x, hfloat⟩ | hrefused
    · exact absurd ⟨n, (hgrammar n).mp hint⟩ hnone
    · obtain ⟨t, ts, hok, hkinds, hall⟩ := tokenize_of_wordValue htext hfirst hmore hfloat
      exact .inl ⟨x, t, ts, hok, hkinds, htext ▸ hall⟩
    · right
      rw [← hbad]
      exact tokenize_of_wordValue_error (by rw [String.toList_ofList]) hfirst hmore hrefused

/-- An underscore may stand behind a marker; behind a zero that stands for nothing there is no number. -/
theorem tokenize_numeral_samples :
    (∃ ts, tokenize "0x_fF" = .ok ts ∧ ts.map (·.kind) = [.int 255, .newline, .endOfFile]) ∧
    ((∃ x t ts, tokenize "0_12" = .ok (t :: ts) ∧
        (t :: ts).map (·.kind) = [.float x, .newline, .endOfFile] ∧
          t.textIn "0_12" = some "0_12".toList) ∨
      ∃ span, tokenize "0_12" = .error ⟨.invalidNumber "0_12", span⟩) := by
  have hchars {cs : List Char} (h : cs.all (fun x => x.isAlphanum || x = '_') = true) :
      ∀ x ∈ cs, IsWordChar x := by simpa [IsWordChar] using h
  constructor
  · have hnumeral : Numeral "0x_fF".toList 255 :=
      .radix (.hexadecimal (by decide)) (by decide) (.underscore rfl (.digit rfl .nil))
    exact ((tokenize_numeral rfl rfl (hchars rfl)).1 255).mpr ⟨hnumeral, by decide⟩
  · refine (tokenize_numeral rfl rfl (hchars rfl)).2 ?_
    rintro ⟨n, hnumeral, -⟩
    cases hnumeral with
    | zeros hzeros =>
        cases hzeros with
        | digit h => cases h
        | underscore h => cases h
    | decimal _ hne => exact hne rfl
    | radix hradix =>
        cases hradix with
        | hexadecimal h | octal h | binary h => exact absurd h (by decide)

end MysToCpp
