/-
# String literals read back

The C++ string literal of a text is a string literal of the language too.  `tokenize_quote` says that
it stands for the same text, so that the encoder of one language and the reader of the other agree on
quotes, backslashes, octal digits and code points.  Characters from U+0080 to U+009F are left out: they
are written as the octal escapes of their two bytes, which the reader takes for two characters.

The proof goes through the literal one character of the text at a time: `scanBody_escapeChar` is one
round of the reader, and `scanBody_quoted` is all of them.
-/
import MysToCpp.Cpp.Literal
import MysToCpp.Proofs.Text.Digits
import MysToCpp.Proofs.Token.Reading
import MysToCpp.Text.Unicode

namespace MysToCpp

open Text (isHexDigit ofDigits ofDigits_toDigits ofDigits_zeros exists_digit_of_mem)

/-- A full run of the right length is taken, whatever stands behind it. -/
theorem Cursor.takeAtMost_of_rest {c : Cursor} {p : Char → Bool} {run rest : List Char}
    (hrest : c.rest = run ++ rest) (hrun : ∀ x ∈ run, p x = true) :
    c.takeAtMost run.length p = (run, ⟨rest, c.position.afterAll run⟩) := by
  have htaken : ((run ++ rest).take run.length).takeWhile p = run := by
    have hall : (run ++ []).takeWhile p = run ++ [].takeWhile p := List.takeWhile_append_of_pos hrun
    rw [List.take_left]
    simpa using hall
  simp only [takeAtMost, hrest, htaken, List.drop_left]

namespace Token

theorem charOf?_toNat (c : Char) : charOf? c.toNat = some c := by
  have hvalid : c.toNat < 0xD800 ∨ (0xDFFF < c.toNat ∧ c.toNat < 0x110000) := c.valid
  simp [charOf?, hvalid, Char.ofNat_toNat]

end Token

namespace Cpp

open Token (Escaped charOf? charOf?_toNat scanBody scanEscape scanHex scanOctal scanString isOctalDigit
  simpleEscape? atTwoQuotes)

/-! ## Digits of a fixed width -/

theorem length_padded {width : Nat} {digits : List Char} (h : digits.length ≤ width) :
    (padded width digits).length = width := by
  simp [padded, h]

theorem ofDigits_padded (base width : Nat) (digits : List Char) :
    ofDigits base (padded width digits) = ofDigits base digits :=
  ofDigits_zeros base _ digits

theorem digit_of_mem_padded {base width n : Nat} (hbase : 1 < base) {x : Char}
    (h : x ∈ padded width (Nat.toDigits base n)) : ∃ d, d < base ∧ x = Nat.digitChar d := by
  rcases List.mem_append.mp h with h | h
  · exact ⟨0, by omega, (List.mem_replicate.mp h).2⟩
  · exact exists_digit_of_mem hbase h

theorem isOctalDigit_digitChar {d : Nat} (h : d < 8) : isOctalDigit (Nat.digitChar d) = true := by
  revert d
  decide

theorem isHexDigit_digitChar {d : Nat} (h : d < 16) : isHexDigit (Nat.digitChar d) = true := by
  revert d
  decide

theorem exists_octalDigits (b : UInt8) : ∃ first more, octalEscape b = '\\' :: first :: more ∧
    more.length = 2 ∧ (∀ y ∈ first :: more, ∃ d, d < 8 ∧ y = Nat.digitChar d) ∧
      ofDigits 8 (first :: more) = b.toNat := by
  have hdigits : (Nat.toDigits 8 b.toNat).length ≤ 3 :=
    (Nat.length_toDigits_le_iff (by decide) (by decide)).mpr (Nat.lt_trans b.toNat_lt (by decide))
  have hvalue : ofDigits 8 (padded 3 (Nat.toDigits 8 b.toNat)) = b.toNat := by
    rw [ofDigits_padded, ofDigits_toDigits (by decide) (by decide)]
  have hoctal (y : Char) (hy : y ∈ padded 3 (Nat.toDigits 8 b.toNat)) : ∃ d, d < 8 ∧ y = Nat.digitChar d :=
    digit_of_mem_padded (by decide) hy
  obtain ⟨first, more, hpadded⟩ := List.exists_cons_of_length_eq_add_one (length_padded hdigits)
  have hlength := length_padded hdigits
  rw [hpadded] at hvalue hoctal hlength
  exact ⟨first, more, by rw [octalEscape, hpadded], Nat.succ.inj hlength, hoctal, hvalue⟩

/-! ## How a character is written -/

/-- The characters that have a letter for their escape, behind that letter. -/
def lettered : List (Char × Char) := [('\\', '\\'), ('"', '"'), ('n', '\n'), ('r', '\r'), ('t', '\t')]

/-- A character is written as some text: as itself, or as an escape of one of the four kinds. -/
inductive Escapes (x : Char) : List Char → Prop
  | letter {e : Char} : (e, x) ∈ lettered → Escapes x ['\\', e]
  | octal : isControl x = true → Escapes x ((String.utf8EncodeChar x).flatMap octalEscape)
  | plain : 0x20 ≤ x.toNat → x.toNat ≤ 0x7E → x ≠ '\\' → x ≠ '"' → Escapes x [x]
  | short : (Nat.toDigits 16 x.toNat).length ≤ 4 →
      Escapes x ('\\' :: 'u' :: padded 4 (Nat.toDigits 16 x.toNat))
  | long : (Nat.toDigits 16 x.toNat).length ≤ 8 →
      Escapes x ('\\' :: 'U' :: padded 8 (Nat.toDigits 16 x.toNat))

theorem escapes_escapeChar (x : Char) : Escapes x (escapeChar x) := by
  unfold escapeChar
  split
  · next h => exact .letter (by subst h; decide)
  split
  · next h => exact .letter (by subst h; decide)
  split
  · next h => exact .letter (by subst h; decide)
  split
  · next h => exact .letter (by subst h; decide)
  split
  · next h => exact .letter (by subst h; decide)
  split
  · next hcontrol => exact .octal hcontrol
  split
  · next hslash hquote _ _ _ hcontrol _ =>
    simp only [isControl, Bool.or_eq_true, Bool.and_eq_true, decide_eq_true_eq] at hcontrol
    exact .plain (by omega) (by omega) hslash hquote
  split
  · next hshort =>
    exact .short ((Nat.length_toDigits_le_iff (by decide) (by decide)).mpr (Nat.lt_succ_of_le hshort))
  · exact .long ((Nat.length_toDigits_le_iff (by decide) (by decide)).mpr
      (Nat.lt_of_lt_of_le (UInt32.toNat_lt x.val) (by decide)))

theorem ne_lineEnd {x : Char} (h : 0x20 ≤ x.toNat) : x ≠ '\n' ∧ x ≠ '\r' := by
  constructor <;> rintro rfl <;> revert h <;> decide

/-! ## Escapes -/

theorem scanHex_padded (marker : Char) {width : Nat} {x : Char} {c : Cursor} {rest : List Char}
    (hwidth : (Nat.toDigits 16 x.toNat).length ≤ width)
    (hrest : c.rest = padded width (Nat.toDigits 16 x.toNat) ++ rest) :
    ∃ c', c'.rest = rest ∧ scanHex marker width c = (.ok [x], c') := by
  have hlength := length_padded hwidth
  have hhex : ∀ y ∈ padded width (Nat.toDigits 16 x.toNat), isHexDigit y = true := by
    intro y hy
    obtain ⟨d, hd, rfl⟩ := digit_of_mem_padded (by decide) hy
    exact isHexDigit_digitChar hd
  have htaken := Cursor.takeAtMost_of_rest hrest hhex
  rw [hlength] at htaken
  have hvalue : ofDigits 16 (padded width (Nat.toDigits 16 x.toNat)) = x.toNat := by
    rw [ofDigits_padded, ofDigits_toDigits (by decide) (by decide)]
  refine ⟨⟨rest, c.position.afterAll (padded width (Nat.toDigits 16 x.toNat))⟩, rfl, ?_⟩
  simp only [scanHex, htaken, hlength, hvalue, charOf?_toNat, Nat.lt_irrefl, if_false]

/-- Three octal digits are read as their character, even if another digit follows. -/
theorem scanOctal_digits {first : Char} {more : List Char} {x : Char} {c : Cursor} {rest : List Char}
    (hmore : more.length = 2) (hoctal : ∀ y ∈ more, isOctalDigit y = true)
    (hvalue : ofDigits 8 (first :: more) = x.toNat) (hrest : c.rest = more ++ rest) :
    ∃ c', c'.rest = rest ∧ scanOctal false first c = (.ok [x], c') := by
  have htaken := Cursor.takeAtMost_of_rest hrest hoctal
  rw [hmore] at htaken
  refine ⟨⟨rest, c.position.afterAll more⟩, rfl, ?_⟩
  simp only [scanOctal, htaken, hvalue, charOf?_toNat, Bool.false_and]
  rfl

theorem not_simple_of_octal {e : Char} (h : isOctalDigit e = true) :
    e ≠ '\n' ∧ simpleEscape? e = none := by
  simp only [isOctalDigit, Bool.and_eq_true, decide_eq_true_eq] at h
  refine ⟨?_, ?_⟩
  · rintro rfl
    revert h
    decide
  · unfold simpleEscape?
    split <;> first | rfl | (revert h; decide)

/-- The text of a literal stands for `x`: the reader takes `text` in one round, and adds `x`. -/
def ReadAs (text : List Char) (x : Char) : Prop :=
  ∀ (c : Cursor) (rest : List Char), c.rest = text ++ rest → ∃ c', c'.rest = rest ∧
    ∀ fuel read, scanBody {} '"' false (fuel + 1) read c = scanBody {} '"' false fuel (x :: read) c'

theorem readAs_escape {e x : Char} {more : List Char}
    (h : ∀ (c : Cursor) (rest : List Char), c.rest = more ++ rest → ∃ c', c'.rest = rest ∧
      scanEscape false e c = (.ok [x], c')) : ReadAs ('\\' :: e :: more) x := by
  intro c rest hrest
  have hfirst : c.next? = some ('\\', ⟨e :: (more ++ rest), c.position.after '\\'⟩) := by
    simp [Cursor.next?, hrest]
  obtain ⟨c', hrest', hescape⟩ := h ⟨more ++ rest, (c.position.after '\\').after e⟩ rest rfl
  refine ⟨c', hrest', fun fuel read => ?_⟩
  rw [scanBody, hfirst]
  simp [Cursor.next?, hescape]

theorem readAs_simple {e x : Char} (hline : e ≠ '\n') (h : simpleEscape? e = some x) :
    ReadAs ['\\', e] x := by
  refine readAs_escape fun c rest hrest => ⟨c, hrest, ?_⟩
  simp [scanEscape, hline, h]

theorem readAs_plain {x : Char} (hquote : x ≠ '"') (hline : x ≠ '\n') (hslash : x ≠ '\\') :
    ReadAs [x] x := by
  intro c rest hrest
  have hfirst : c.next? = some (x, ⟨rest, c.position.after x⟩) := by simp [Cursor.next?, hrest]
  refine ⟨⟨rest, c.position.after x⟩, rfl, fun fuel read => ?_⟩
  rw [scanBody, hfirst]
  simp [hquote, hline, hslash]

/-- Control characters below U+0080 are one byte, and three octal digits are enough for it. -/
theorem readAs_octal {x : Char} (hx : x.toNat < 0x80) :
    ReadAs ((String.utf8EncodeChar x).flatMap octalEscape) x := by
  have hsize : x.utf8Size = 1 := Char.utf8Size_eq_one_iff.mpr (UInt32.le_iff_toNat_le.mpr (by
    show x.toNat ≤ 127
    omega))
  have hbyte : x.val.toUInt8.toNat = x.toNat := by
    rw [UInt32.toNat_toUInt8]
    exact Nat.mod_eq_of_lt (Nat.lt_trans hx (by decide))
  obtain ⟨first, more, htext, hmore, hdigits, hvalue⟩ := exists_octalDigits x.val.toUInt8
  have hoctal (y : Char) (hy : y ∈ first :: more) : isOctalDigit y = true := by
    obtain ⟨d, hd, rfl⟩ := hdigits y hy
    exact isOctalDigit_digitChar hd
  have hfirst := hoctal first List.mem_cons_self
  obtain ⟨hline, hsimple⟩ := not_simple_of_octal hfirst
  rw [hbyte] at hvalue
  rw [String.utf8EncodeChar_eq_singleton hsize, List.flatMap_singleton, htext]
  refine readAs_escape fun c rest hrest => ?_
  obtain ⟨c', hrest', hscan⟩ := scanOctal_digits hmore (fun y hy => hoctal y (.tail _ hy)) hvalue hrest
  exact ⟨c', hrest', by simp [scanEscape, hline, hsimple, hfirst, hscan]⟩

/-- Every character is written as text that stands for it, but for the control characters beyond
ASCII. -/
theorem readAs_escapeChar {x : Char} (hx : ¬ (0x80 ≤ x.toNat ∧ x.toNat ≤ 0x9F)) :
    ReadAs (escapeChar x) x := by
  have hescapes := escapes_escapeChar x
  generalize escapeChar x = text at hescapes ⊢
  cases hescapes with
  | letter hletter =>
      have hsimple : ∀ p ∈ lettered, p.1 ≠ '\n' ∧ simpleEscape? p.1 = some p.2 := by decide
      exact readAs_simple (hsimple _ hletter).1 (hsimple _ hletter).2
  | octal hcontrol =>
      refine readAs_octal ?_
      simp only [isControl, Bool.or_eq_true, Bool.and_eq_true, decide_eq_true_eq] at hcontrol
      omega
  | plain hlow _ hslash hquote => exact readAs_plain hquote (ne_lineEnd hlow).1 hslash
  | short hdigits => exact readAs_escape fun c rest hrest => scanHex_padded 'u' hdigits hrest
  | long hdigits => exact readAs_escape fun c rest hrest => scanHex_padded 'U' hdigits hrest

/-! ## The whole literal -/

theorem scanBody_quoted {cs : List Char} (hcs : ∀ x ∈ cs, ¬ (0x80 ≤ x.toNat ∧ x.toNat ≤ 0x9F)) :
    ∀ (fuel : Nat) (read : List Char) (c : Cursor) (rest : List Char), cs.length < fuel →
      c.rest = cs.flatMap escapeChar ++ '"' :: rest →
      ∃ c', c'.rest = rest ∧ scanBody {} '"' false fuel read c = (.ok (read.reverse ++ cs), c') := by
  induction cs with
  | nil =>
      intro fuel read c rest hfuel hrest
      obtain ⟨fuel, rfl⟩ : ∃ k, fuel = k + 1 := ⟨fuel - 1, by simp at hfuel; omega⟩
      have hnext : c.next? = some ('"', ⟨rest, c.position.after '"'⟩) := by
        simp [Cursor.next?, hrest]
      refine ⟨⟨rest, c.position.after '"'⟩, rfl, ?_⟩
      rw [scanBody, hnext]
      simp
  | cons x cs ih =>
      intro fuel read c rest hfuel hrest
      rw [List.length_cons] at hfuel
      obtain ⟨fuel, rfl⟩ : ∃ k, fuel = k + 1 := ⟨fuel - 1, by omega⟩
      rw [List.flatMap_cons, List.append_assoc] at hrest
      obtain ⟨c₁, hrest₁, hround⟩ := readAs_escapeChar (hcs x List.mem_cons_self) c _ hrest
      obtain ⟨c₂, hrest₂, hread⟩ := ih (fun y hy => hcs y (.tail _ hy)) fuel (x :: read) c₁ rest
        (by omega) hrest₁
      refine ⟨c₂, hrest₂, ?_⟩
      rw [hround, hread, List.reverse_cons, List.append_assoc, List.singleton_append]

/-- Every character is written as some text, which does not start with a quote. -/
theorem escapeChar_eq_cons (x : Char) : ∃ y ys, escapeChar x = y :: ys ∧ y ≠ '"' := by
  have hescapes := escapes_escapeChar x
  generalize escapeChar x = text at hescapes ⊢
  cases hescapes with
  | octal =>
      obtain ⟨b, bs, hbytes⟩ : ∃ b bs, String.utf8EncodeChar x = b :: bs := by
        refine List.exists_cons_of_length_pos ?_
        rw [String.length_utf8EncodeChar]
        exact x.utf8Size_pos
      exact ⟨'\\', _, by rw [hbytes]; rfl, by decide⟩
  | plain _ _ _ hquote => exact ⟨x, [], rfl, hquote⟩
  | letter | short | long => exact ⟨'\\', _, rfl, by decide⟩

theorem length_le_length_escaped (cs : List Char) : cs.length ≤ (cs.flatMap escapeChar).length := by
  induction cs with
  | nil => exact Nat.le_refl 0
  | cons x cs ih =>
      obtain ⟨y, ys, hx, _⟩ := escapeChar_eq_cons x
      rw [List.flatMap_cons, hx, List.length_append, List.length_cons, List.length_cons]
      omega

/-- Behind its first quote a literal is read as its text, if no further quote sticks to it. -/
theorem scanString_quoted {cs rest : List Char} {c : Cursor}
    (hcs : ∀ x ∈ cs, ¬ (0x80 ≤ x.toNat ∧ x.toNat ≤ 0x9F)) (hstop : rest.head? ≠ some '"')
    (hrest : c.rest = cs.flatMap escapeChar ++ '"' :: rest) :
    ∃ c', c'.rest = rest ∧ scanString {} '"' c = (.ok (.text (.ofList cs)), c') := by
  have htriple : atTwoQuotes '"' c = false := by
    unfold atTwoQuotes Cursor.peek? Cursor.peekSecond?
    rw [hrest]
    cases cs with
    | nil => simpa [List.head?_eq_getElem?] using hstop
    | cons x cs =>
        obtain ⟨y, ys, hx, hy⟩ := escapeChar_eq_cons x
        simp [hx, hy]
  have hfuel : cs.length < c.rest.length + 1 := by
    have hle := length_le_length_escaped cs
    rw [hrest, List.length_append]
    omega
  obtain ⟨c', hrest', hbody⟩ := scanBody_quoted hcs _ [] c rest hfuel hrest
  exact ⟨c', hrest', by simp [scanString, htriple, hbody, Except.map, Token.StringForm.token]⟩

variable [Text.IdentifierTable]

theorem scansTo_quoted {cs rest stack : List Char}
    (hcs : ∀ x ∈ cs, ¬ (0x80 ≤ x.toNat ∧ x.toNat ≤ 0x9F)) (hstop : rest.head? ≠ some '"') :
    Lexer.ScansTo '"' (cs.flatMap escapeChar ++ '"' :: rest) stack (.text (.ofList cs)) rest stack := by
  intro lx hrest hstack
  obtain ⟨c, hrest', hscan⟩ := scanString_quoted hcs hstop hrest
  have hstart : Text.isIdentifierStart '"' = false := rfl
  have hdigit : Text.isDigit '"' = false := by decide
  refine ⟨c, hrest', ?_⟩
  simp [Lexer.scanToken, hstart, hdigit, hscan, Lexer.accept, ← hstack, Lexer.token, Lexer.span,
    Lexer.position, Lexer.moveTo]

end Cpp

/-- The string literal of a text is one token that stands for the text. -/
theorem tokenize_quote [Text.IdentifierTable] (s : String)
    (hs : ∀ c ∈ s.toList, ¬ (0x80 ≤ c.toNat ∧ c.toNat ≤ 0x9F)) :
    ∃ tokens, tokenize (Cpp.quote s) = .ok tokens ∧
      tokens.map (·.kind) = [.text s, .newline, .endOfFile] := by
  have htext : (Cpp.quote s).toList = '"' :: (s.toList.flatMap Cpp.escapeChar ++ ['"']) := by
    simp [Cpp.quote]
  have hlexes : Lexer.Lexes (Cpp.quote s).toList [] [.text s] [] [] := by
    have hscan : Lexer.ScansTo '"' _ [] (.text (.ofList s.toList)) [] [] :=
      Cpp.scansTo_quoted hs nofun
    have hlexes := hscan.lexes (by decide)
    rwa [String.ofList_toList, ← htext] at hlexes
  exact tokenize_lexed htext (by decide) (by decide) hlexes nofun

/-- Quotes, a control character before a digit, and characters of two and four bytes. -/
theorem tokenize_quote_sample :
    (∀ c ∈ "\"\"\\\x001é\n😀".toList, ¬ (0x80 ≤ c.toNat ∧ c.toNat ≤ 0x9F)) ∧
      ∃ tokens, tokenize (Cpp.quote "\"\"\\\x001é\n😀") = .ok tokens ∧
        tokens.map (·.kind) = [.text "\"\"\\\x001é\n😀", .newline, .endOfFile] := by
  have hchars : ∀ c ∈ "\"\"\\\x001é\n😀".toList, ¬ (0x80 ≤ c.toNat ∧ c.toNat ≤ 0x9F) := by
    have hall : "\"\"\\\x001é\n😀".toList.all (fun c => c.toNat < 0x80 || 0x9F < c.toNat) = true := by
      decide
    intro c hc
    have hc := List.all_eq_true.mp hall c hc
    simp only [Bool.or_eq_true, decide_eq_true_eq] at hc
    omega
  exact ⟨hchars, tokenize_quote _ hchars⟩

end MysToCpp
