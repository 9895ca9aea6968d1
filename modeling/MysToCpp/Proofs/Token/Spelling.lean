/-
# Tokens are read from their spelling

For names, whole numbers, marks and parentheses: a token is read from the text that it is written as,
if what stands behind it does not stick to it.  `Apart rest` is enough for names and numbers, and
`Unmarked rest` for marks, which are read as far as they go.
-/
import MysToCpp.Proofs.Token.Numerals

namespace MysToCpp

open Text (isDigit isIdentifierStart isIdentifierChar ascii_ranges isAlpha_iff isDigit_iff ofDigits
  ofDigits_toDigits exists_digit_of_mem head?_toDigits_ne_zero digitValue_digitChar)

/-- A run goes up to the first character outside of it. -/
theorem run_of_append {p : Char → Bool} {run rest : List Char} (hrun : ∀ x ∈ run, p x = true)
    (hstop : ∀ x ∈ rest.head?, p x = false) :
    (run ++ rest).takeWhile p = run ∧ (run ++ rest).dropWhile p = rest := by
  have hrest : rest.takeWhile p = [] ∧ rest.dropWhile p = rest := by
    cases rest with
    | nil => exact ⟨rfl, rfl⟩
    | cons x rest => simp [hstop x rfl]
  rw [List.takeWhile_append_of_pos hrun, List.dropWhile_append_of_pos hrun, hrest.1, hrest.2,
    List.append_nil]
  exact ⟨rfl, rfl⟩

theorem Cursor.takeWhile_of_rest {c : Cursor} {p : Char → Bool} {run rest : List Char}
    (hrest : c.rest = run ++ rest) (hrun : ∀ x ∈ run, p x = true)
    (hstop : ∀ x ∈ rest.head?, p x = false) :
    c.takeWhile p = (run, ⟨rest, c.position.afterAll run⟩) := by
  simp only [takeWhile, hrest, run_of_append hrun hstop]

namespace Lexer

section

variable [Text.IdentifierTable]

/-- Nothing that goes on with a word or a number stands in front. -/
def Apart (rest : List Char) : Prop :=
  ∀ x ∈ rest.head?, isIdentifierChar x = false ∧ x ∉ ['"', '\'', '.']

/-- Nothing that goes on with a mark stands in front. -/
def Unmarked (rest : List Char) : Prop := ∀ x ∈ rest.head?, x ∉ ['=', '>', '<', '*', '/']

/-- The characters that number literals are made of go on with identifiers too. -/
theorem isIdentifierChar_of_digit {x : Char} (h : Token.isDigitOrUnderscore x = true) :
    isIdentifierChar x = true := by
  rcases (Bool.or_eq_true _ _).mp h with h | h
  · have hlow : x.toNat < 0x80 := by
      simp only [isDigit, Char.isDigit, Bool.and_eq_true, decide_eq_true_eq] at h
      have hle := UInt32.le_iff_toNat_le.mp h.2
      exact Nat.lt_of_le_of_lt hle (by decide)
    have halpha : x.isAlphanum = true := by
      simp only [isDigit] at h
      simp [Char.isAlphanum, h]
    simp [isIdentifierChar, hlow, halpha]
  · rw [decide_eq_true_eq] at h
    subst h
    rfl

theorem Apart.ne {rest : List Char} (h : Apart rest) {x : Char} (hx : x ∈ rest.head?) (y : Char)
    (hy : isIdentifierChar y = true) : x ≠ y :=
  (ne_of_class hy (h x hx).1).symm

theorem apart_cons {x : Char} (rest : List Char) (hx : x ∈ [' ', ')', '(', ',']) :
    Apart (x :: rest) := by
  simp only [List.mem_cons, List.not_mem_nil, or_false] at hx
  rintro y ⟨⟩
  rcases hx with rfl | rfl | rfl | rfl <;> exact ⟨rfl, by decide⟩

/-! ## Words -/

/-- The words that names are: a character that starts identifiers, and others that go on with them. -/
def IsIdentifier (id : String) : Prop :=
  ∃ first more, id.toList = first :: more ∧ isIdentifierStart first = true ∧
    ∀ x ∈ more, isIdentifierChar x = true

theorem scanWord_word {id : String} {first : Char} {more rest : List Char} {c : Cursor}
    (hid : id.toList = first :: more) (hmore : ∀ x ∈ more, isIdentifierChar x = true)
    (hrest : c.rest = more ++ rest) (hapart : Apart rest) :
    ∃ c', c'.rest = rest ∧ scanWord first c = (.ok (.ofWord id), c') := by
  have htaken := Cursor.takeWhile_of_rest hrest hmore fun x hx => (hapart x hx).1
  have htext : String.ofList (first :: more) = id := by rw [← hid, String.ofList_toList]
  refine ⟨⟨rest, c.position.afterAll more⟩, rfl, ?_⟩
  unfold scanWord
  simp only [htaken, htext]
  cases rest with
  | nil => rfl
  | cons x rest =>
      obtain ⟨-, hquote⟩ := hapart x rfl
      simp only [List.mem_cons, List.not_mem_nil, or_false, not_or] at hquote
      simp only [Cursor.peek?, List.head?_cons, hquote, decide_false, Bool.or_self, Bool.false_eq_true,
        if_false]
      rfl

theorem isIdentifierChar_of_start {x : Char} (h : isIdentifierStart x = true) :
    isIdentifierChar x = true := by
  by_cases hlow : x.toNat < 0x80
  · simp only [isIdentifierStart, hlow, if_true, Bool.or_eq_true] at h
    simp only [isIdentifierChar, hlow, if_true, Bool.or_eq_true, Char.isAlphanum]
    exact h.imp_left .inl
  · simp only [isIdentifierStart, hlow, if_false] at h
    simp only [isIdentifierChar, hlow, if_false, h, Bool.true_or]

theorem IsIdentifier.chars {id : String} (h : IsIdentifier id) :
    ∀ x ∈ id.toList, isIdentifierChar x = true := by
  obtain ⟨first, more, hid, hfirst, hmore⟩ := h
  rw [hid]
  intro x hx
  rcases List.mem_cons.mp hx with rfl | hx
  · exact isIdentifierChar_of_start hfirst
  · exact hmore x hx

theorem startsToken_of_identifier {x : Char} (h : isIdentifierStart x = true) : startsToken x = true :=
  startsToken_of_class h rfl

theorem lexes_word {id : String} {gap rest stack : List Char} (hid : IsIdentifier id)
    (hgap : ∀ y ∈ gap, isGap y = true) (hapart : Apart rest) :
    Lexes (gap ++ (id.toList ++ rest)) stack [.ofWord id] rest stack := by
  obtain ⟨first, more, hid, hfirst, hmore⟩ := hid
  have hscan : ScansTo first (more ++ rest) stack (.ofWord id) rest stack := by
    intro lx hrest hstack
    obtain ⟨c, hc, hscan⟩ := scanWord_word hid hmore hrest hapart
    refine ⟨c, hc, ?_⟩
    simp [scanToken, hfirst, accept, hscan, ← hstack, token, span, position, moveTo]
  rw [hid]
  exact hscan.lexes_behind hgap (startsToken_of_identifier hfirst)

omit [Text.IdentifierTable] in
theorem ofWord_name {id : String} (hword : Keyword.ofSpelling? id = none) :
    TokenKind.ofWord id = .name id := by
  rw [TokenKind.ofWord, hword]

theorem lexes_name {id : String} {gap rest stack : List Char} (hid : IsIdentifier id)
    (hword : Keyword.ofSpelling? id = none) (hgap : ∀ y ∈ gap, isGap y = true) (hapart : Apart rest) :
    Lexes (gap ++ (id.toList ++ rest)) stack [.name id] rest stack := by
  rw [← ofWord_name hword]
  exact lexes_word hid hgap hapart

theorem isIdentifier_keyword (w : Keyword) : IsIdentifier w.spelling := by
  cases w <;> exact ⟨_, _, rfl, rfl, List.all_eq_true.mp rfl⟩

end

theorem ofWord_keyword (w : Keyword) : TokenKind.ofWord w.spelling = .keyword w := by
  cases w <;> rfl

/-! ## Whole numbers -/

theorem startsToken_of_digit {x : Char} (h : isDigit x = true) : startsToken x = true :=
  startsToken_of_class h rfl

theorem scanToken_digit [Text.IdentifierTable] (lx : Lexer) {x : Char} (h : isDigit x = true) :
    lx.scanToken x = lx.accept (Token.scanNumber x lx.cursor) := by
  have hstart : isIdentifierStart x = false := by
    have hrange := (ascii_ranges x).1.mp h
    have hscore : x ≠ '_' := ne_of_class h rfl
    have halpha : x.isAlpha = false := by
      rw [← Bool.not_eq_true, isAlpha_iff]
      omega
    have hlow : x.toNat < 0x80 := by omega
    simp [isIdentifierStart, hlow, halpha, hscore]
  simp [scanToken, hstart, h]

theorem isDigit_of_mem {n : Nat} {x : Char} (hx : x ∈ Nat.toDigits 10 n) : isDigit x = true := by
  obtain ⟨d, hd, rfl⟩ := exists_digit_of_mem (by decide) hx
  rw [isDigit_iff, digitValue_digitChar (by omega)]
  exact hd

theorem toDigits_eq_of_zero {n : Nat} {ds : List Char} (h : Nat.toDigits 10 n = '0' :: ds) :
    ds = [] := by
  by_cases hn : n = 0
  · subst hn
    cases h
    rfl
  · have hhead := head?_toDigits_ne_zero (by decide : 1 < 10) hn
    rw [h] at hhead
    exact absurd rfl hhead

theorem decimalValue_toDigits {n : Nat} (hn : n < Token.intLimit) :
    Token.decimalValue (Nat.toDigits 10 n) false = .ok (.int n) := by
  have hall : ∀ x ∈ Nat.toDigits 10 n, isDigit x = true := fun x hx => isDigit_of_mem hx
  have hvalue : ofDigits 10 (Nat.toDigits 10 n) = n := ofDigits_toDigits (by decide) (by decide) n
  have hplain := Token.withoutUnderscores_of_class hall rfl
  cases hds : Nat.toDigits 10 n with
  | nil => exact absurd hds Nat.toDigits_ne_nil
  | cons d ds =>
      rw [hds] at hall hvalue hplain
      obtain ⟨hd, hmore⟩ := List.forall_mem_cons.mp hall
      refine (Token.decimalValue_eq_int hd).mpr ⟨Token.scored_of_class hmore, ?_, ?_, hn⟩
      · rintro rfl
        rw [toDigits_eq_of_zero hds]
        exact nofun
      · rw [hplain, hvalue]

variable [Text.IdentifierTable]

theorem scanFraction_of_apart {c : Cursor} (h : Apart c.rest) : Token.scanFraction c = ([], c) := by
  have hdot : c.peek? ≠ some '.' := fun hpeek => (h '.' hpeek).2 (by decide)
  simp [Token.scanFraction, hdot]

theorem scanExponent_of_apart {c : Cursor} (h : Apart c.rest) : Token.scanExponent c = ([], c) := by
  unfold Token.scanExponent
  cases hpeek : c.peek? with
  | none => rfl
  | some x =>
      have hne (y : Char) : isIdentifierChar y = true → x ≠ y := h.ne hpeek y
      simp [hne 'e' rfl, hne 'E' rfl]

theorem scanNumber_toDigits {n : Nat} {d : Char} {ds rest : List Char} {c : Cursor}
    (hds : Nat.toDigits 10 n = d :: ds) (hn : n < Token.intLimit) (hrest : c.rest = ds ++ rest)
    (hapart : Apart rest) : ∃ c', c'.rest = rest ∧ Token.scanNumber d c = (.ok (.int n), c') := by
  have hdigit (x : Char) (hx : x ∈ ds) : Token.isDigitOrUnderscore x = true := by
    have hx := isDigit_of_mem (hds ▸ List.mem_cons_of_mem d hx)
    simp [Token.isDigitOrUnderscore, hx]
  have hradix : Token.radixOf? d c.peek? = none := by
    cases hpeek : c.peek? with
    | none => rfl
    | some x =>
        by_cases hd : d = '0'
        · subst hd
          rw [toDigits_eq_of_zero hds, List.nil_append] at hrest
          have hx : x ∈ rest.head? := by rw [← hrest]; exact hpeek
          have hne (y : Char) : isIdentifierChar y = true → x ≠ y := hapart.ne hx y
          simp [Token.radixOf?, hne 'x' rfl, hne 'X' rfl, hne 'o' rfl, hne 'O' rfl, hne 'b' rfl,
            hne 'B' rfl]
        · simp [Token.radixOf?, hd]
  have hwhole := Cursor.takeWhile_of_rest hrest hdigit fun x hx => by
    rw [← Bool.not_eq_true]
    exact fun hx' => hapart.ne hx x (isIdentifierChar_of_digit hx') rfl
  obtain ⟨c', hc', hrest'⟩ : ∃ c', c' = (⟨rest, c.position.afterAll ds⟩ : Cursor) ∧ c'.rest = rest :=
    ⟨_, rfl, rfl⟩
  rw [← hc'] at hwhole
  have hapart' : Apart c'.rest := hrest' ▸ hapart
  have hglued : c'.takeWhile isIdentifierChar = ([], c') :=
    Cursor.takeWhile_of_rest rfl (fun _ hx => absurd hx List.not_mem_nil) fun x hx => (hapart' x hx).1
  refine ⟨c', hrest', ?_⟩
  unfold Token.scanNumber Token.finishDecimal
  simp only [hradix, hwhole, scanFraction_of_apart hapart', scanExponent_of_apart hapart', hglued,
    List.append_nil]
  rw [← hds]
  exact congrArg (·, c') (decimalValue_toDigits hn)

theorem lexes_int {n : Nat} {gap rest stack : List Char} (hn : n < Token.intLimit)
    (hgap : ∀ y ∈ gap, isGap y = true) (hapart : Apart rest) :
    Lexes (gap ++ ((toString n).toList ++ rest)) stack [.int n] rest stack := by
  rw [Nat.toString_eq_ofList_toDigits, String.toList_ofList]
  cases hds : Nat.toDigits 10 n with
  | nil => exact absurd hds Nat.toDigits_ne_nil
  | cons d ds =>
      have hdigit : isDigit d = true := isDigit_of_mem (hds ▸ List.mem_cons_self)
      have hscan : ScansTo d (ds ++ rest) stack (.int n) rest stack := by
        intro lx hrest hstack
        obtain ⟨c, hc, hscan⟩ := scanNumber_toDigits hds hn hrest hapart
        refine ⟨c, hc, ?_⟩
        rw [lx.scanToken_digit hdigit, hscan, ← hstack]
        rfl
      exact hscan.lexes_behind hgap (startsToken_of_digit hdigit)

/-! ## Marks and brackets -/

/-- The marks that are neither brackets nor made of points. -/
def IsOperator (p : Punct) : Prop :=
  p ∉ [.parenOpen, .parenClose, .squareOpen, .squareClose, .braceOpen, .braceClose, .dot, .ellipsis]

instance (p : Punct) : Decidable (IsOperator p) := inferInstanceAs (Decidable (p ∉ _))

omit [Text.IdentifierTable] in
/-- A mark is read as far as it goes. -/
theorem operator?_spelling {p : Punct} (hp : IsOperator p) {x : Char} {more rest : List Char}
    (position : Position) (hspelling : p.spelling.toList = x :: more) (hunmarked : Unmarked rest) :
    (operator? x ⟨more ++ rest, position⟩).map (fun found => (found.1, found.2.rest)) =
      some (p, rest) := by
  have hne (y : Char) (hy : y ∈ ['=', '>', '<', '*', '/']) : rest.head? ≠ some y :=
    fun h => hunmarked y h hy
  cases p <;> simp [IsOperator] at hp <;> simp [Punct.spelling] at hspelling <;>
    obtain ⟨rfl, rfl⟩ := hspelling <;>
    simp [operator?, either, doubled, Cursor.peek?, Cursor.skip, Cursor.next?, hne]

theorem head_of_operator {p : Punct} (hp : IsOperator p) {x : Char} {more : List Char}
    (hspelling : p.spelling.toList = x :: more) : isIdentifierStart x = false ∧ isDigit x = false ∧
      x ∉ ['"', '\'', '.'] ∧ openBracket? x = none ∧ closeBracket? x = none ∧
      startsToken x = true := by
  cases p <;> simp [IsOperator] at hp <;> simp [Punct.spelling] at hspelling <;>
    obtain ⟨rfl, rfl⟩ := hspelling <;> exact ⟨rfl, by decide⟩

theorem lexes_operator {p : Punct} (hp : IsOperator p) {gap rest stack : List Char}
    (hgap : ∀ y ∈ gap, isGap y = true) (hunmarked : Unmarked rest) :
    Lexes (gap ++ (p.spelling.toList ++ rest)) stack [.punct p] rest stack := by
  cases hspelling : p.spelling.toList with
  | nil => cases p <;> exact absurd hspelling (by decide)
  | cons x more =>
      obtain ⟨hstart, hdigit, hquote, hopen, hclose, hx⟩ := head_of_operator hp hspelling
      have hscan : ScansTo x (more ++ rest) stack (.punct p) rest stack := by
        intro lx hrest hstack
        have hread := operator?_spelling hp lx.cursor.position hspelling hunmarked
        rw [← hrest] at hread
        obtain ⟨⟨p', c⟩, hop, hfound⟩ := Option.map_eq_some_iff.mp hread
        cases hfound
        refine ⟨c, rfl, ?_⟩
        simp only [List.mem_cons, List.not_mem_nil, or_false, not_or] at hquote
        simp [scanToken, hstart, hdigit, hquote, hopen, hclose, hop, accept, ← hstack, token, span,
          position, moveTo]
      exact hscan.lexes_behind hgap hx

/-- The brackets have a spelling of one character, which starts no other token. -/
theorem head_of_openBracket {x : Char} {p : Punct} (hp : openBracket? x = some p) :
    isIdentifierStart x = false ∧ isDigit x = false ∧ x ∉ ['"', '\'', '.'] ∧ startsToken x = true := by
  unfold openBracket? at hp
  split at hp <;> cases hp <;> exact ⟨rfl, by decide⟩

theorem head_of_closeBracket {x : Char} {p : Punct} (hp : closeBracket? x = some p) :
    isIdentifierStart x = false ∧ isDigit x = false ∧ x ∉ ['"', '\'', '.'] ∧
      openBracket? x = none ∧ startsToken x = true := by
  unfold closeBracket? at hp
  split at hp <;> cases hp <;> exact ⟨rfl, by decide⟩

theorem lexes_openBracket {x : Char} {p : Punct} (hp : openBracket? x = some p) {gap : List Char}
    (rest stack : List Char) (hgap : ∀ y ∈ gap, isGap y = true) :
    Lexes (gap ++ x :: rest) stack [.punct p] rest (x :: stack) := by
  obtain ⟨hstart, hdigit, hquote, hx⟩ := head_of_openBracket hp
  have hscan : ScansTo x rest stack (.punct p) rest (x :: stack) := by
    intro lx hrest hstack
    simp only [List.mem_cons, List.not_mem_nil, or_false, not_or] at hquote
    refine ⟨lx.cursor, hrest, ?_⟩
    simp [scanToken, hstart, hdigit, hquote, hp, accept, ← hstack, token, span, position, moveTo,
      Layout.openBracket]
  exact hscan.lexes_behind hgap hx

theorem lexes_closeBracket {x y : Char} {p : Punct} (hp : closeBracket? y = some p)
    (hxy : Layout.opening? y = some x) {gap : List Char} (rest stack : List Char)
    (hgap : ∀ y ∈ gap, isGap y = true) :
    Lexes (gap ++ y :: rest) (x :: stack) [.punct p] rest stack := by
  obtain ⟨hstart, hdigit, hquote, hopen, hy⟩ := head_of_closeBracket hp
  have hscan : ScansTo y rest (x :: stack) (.punct p) rest stack := by
    intro lx hrest hstack
    simp only [List.mem_cons, List.not_mem_nil, or_false, not_or] at hquote
    refine ⟨lx.cursor, hrest, ?_⟩
    simp [scanToken, hstart, hdigit, hquote, hopen, hp, accept, hstack, token, span, position, moveTo,
      Layout.closeBracket?, hxy]
  exact hscan.lexes_behind hgap hy

theorem lexes_parenOpen {gap : List Char} (rest stack : List Char)
    (hgap : ∀ y ∈ gap, isGap y = true) :
    Lexes (gap ++ '(' :: rest) stack [.punct .parenOpen] rest ('(' :: stack) :=
  lexes_openBracket rfl rest stack hgap

theorem lexes_parenClose (rest stack : List Char) :
    Lexes (')' :: rest) ('(' :: stack) [.punct .parenClose] rest stack := by
  have hnone : ∀ y ∈ ([] : List Char), isGap y = true := nofun
  exact lexes_closeBracket rfl rfl rest stack hnone

/-! ## Points -/

/-- A point that neither a digit nor a point follows is a mark of its own. -/
theorem lexes_dot {gap rest stack : List Char} (hgap : ∀ y ∈ gap, isGap y = true)
    (hapart : Apart rest) : Lexes (gap ++ '.' :: rest) stack [.punct .dot] rest stack := by
  have hscan : ScansTo '.' rest stack (.punct .dot) rest stack := by
    intro lx hrest hstack
    have hdigit : lx.cursor.peek?.any isDigit = false := by
      cases hpeek : lx.cursor.peek? with
      | none => rfl
      | some x =>
          have hx : x ∈ rest.head? := by rw [← hrest]; exact hpeek
          rw [Option.any_some, ← Bool.not_eq_true]
          intro hdigit
          exact hapart.ne hx x (isIdentifierChar_of_digit (by simp [Token.isDigitOrUnderscore, hdigit])) rfl
    have hdot : lx.cursor.peek? ≠ some '.' := by
      intro hpeek
      rw [Cursor.peek?, hrest] at hpeek
      exact (hapart '.' hpeek).2 (by decide)
    have hstart : isIdentifierStart '.' = false := rfl
    have hnumber : isDigit '.' = false := by decide
    refine ⟨lx.cursor, hrest, ?_⟩
    simp [scanToken, hstart, hnumber, scanDot, hdigit, hdot, accept, ← hstack, token, span, position,
      moveTo]
  exact hscan.lexes_behind hgap (by decide)

theorem lexes_ellipsis {gap : List Char} (rest stack : List Char)
    (hgap : ∀ y ∈ gap, isGap y = true) :
    Lexes (gap ++ '.' :: '.' :: '.' :: rest) stack [.punct .ellipsis] rest stack := by
  have hscan : ScansTo '.' ('.' :: '.' :: rest) stack (.punct .ellipsis) rest stack := by
    intro lx hrest hstack
    have hpeek : lx.cursor.peek? = some '.' := by rw [Cursor.peek?, hrest]; rfl
    have hsecond : lx.cursor.peekSecond? = some '.' := by rw [Cursor.peekSecond?, hrest]; rfl
    have hstart : isIdentifierStart '.' = false := rfl
    have hdigit : isDigit '.' = false := by decide
    have hskip : lx.cursor.skip.skip.rest = rest := Cursor.rest_skip (Cursor.rest_skip hrest)
    refine ⟨lx.cursor.skip.skip, hskip, ?_⟩
    simp [scanToken, hstart, hdigit, scanDot, hpeek, hsecond, accept, ← hstack, token, span, position,
      moveTo]
  exact hscan.lexes_behind hgap (by decide)

end Lexer

end MysToCpp
