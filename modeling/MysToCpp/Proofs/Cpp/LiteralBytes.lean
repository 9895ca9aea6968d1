/-
# The bytes of a C++ string literal

What C++ makes of the text between the quotes of a literal: an escape of one letter is a byte, and so is a
backslash with octal digits, as many up to three as there are; a universal character name has exactly four
or eight hexadecimal digits and is the UTF-8 of its code point, as every other character is its own.
`quote_stands` says that the literal of a text is one line of visible ASCII between quotes, with no quote in
it that could end it earlier, and that its bytes are those of the text.

A character of the text is written apart from those around it: what it is written as stands for its bytes
whatever stands behind it (`StandsFor`).  For octal escapes this holds because they are written with all
three digits, so that no digit behind them is taken.
-/
import MysToCpp.Proofs.Cpp.Quoted

namespace MysToCpp.Cpp

open Text (isHexDigit ofDigits ofDigits_toDigits)
open Token (charOf? charOf?_toNat isOctalDigit)

/-! ## Reading escapes -/

/-- The byte that an escape of one letter stands for. -/
def simpleByte? : Char → Option UInt8
  | '\'' => some 0x27
  | '"' => some 0x22
  | '?' => some 0x3F
  | '\\' => some 0x5C
  | 'a' => some 0x07
  | 'b' => some 0x08
  | 'f' => some 0x0C
  | 'n' => some 0x0A
  | 'r' => some 0x0D
  | 't' => some 0x09
  | 'v' => some 0x0B
  | _ => none

/-- The UTF-8 of the code point that the first `count` characters spell, and the text behind them. -/
def universalName? (count : Nat) (cs : List Char) : Option (List UInt8 × List Char) :=
  let digits := cs.take count
  if digits.length = count && digits.all isHexDigit then
    (charOf? (ofDigits 16 digits)).map fun x => (String.utf8EncodeChar x, cs.drop count)
  else none

/-- The byte that the octal digits in front of a text spell, as many up to three as there are, and the text
behind them. -/
def octalByte? (cs : List Char) : Option (List UInt8 × List Char) :=
  let digits := (cs.take 3).takeWhile isOctalDigit
  let code := ofDigits 8 digits
  if digits.isEmpty || 0xFF < code then none
  else some ([UInt8.ofNat code], cs.drop digits.length)

/-- The bytes of the escape behind a backslash, and the text behind it. -/
def escapeBytes? : List Char → Option (List UInt8 × List Char)
  | [] => none
  | e :: rest =>
    match simpleByte? e with
    | some b => some ([b], rest)
    | none =>
      if e = 'u' then universalName? 4 rest
      else if e = 'U' then universalName? 8 rest
      else octalByte? (e :: rest)

theorem length_of_escapeBytes {cs rest : List Char} {bs : List UInt8}
    (h : escapeBytes? cs = some (bs, rest)) : rest.length ≤ cs.length := by
  have huniversal {count : Nat} {cs : List Char} (h : universalName? count cs = some (bs, rest)) :
      rest.length ≤ cs.length := by
    unfold universalName? at h
    dsimp only at h
    split at h
    · obtain ⟨x, -, hx⟩ := Option.map_eq_some_iff.mp h
      cases hx
      exact (List.drop_sublist _ _).length_le
    · cases h
  unfold escapeBytes? at h
  split at h
  · cases h
  · split at h
    · cases h
      exact Nat.le_succ _
    · split at h
      · exact Nat.le_succ_of_le (huniversal h)
      · split at h
        · exact Nat.le_succ_of_le (huniversal h)
        · unfold octalByte? at h
          dsimp only at h
          split at h
          · cases h
          · cases h
            exact (List.drop_sublist _ _).length_le

/-- The bytes that the text between the quotes of a literal stands for; `none` if an escape is bad, or if a
quote or the end of a line stands in it. -/
def literalBytes? : List Char → Option (List UInt8)
  | [] => some []
  | x :: cs =>
    if x = '\\' then
      match _ : escapeBytes? cs with
      | some (bs, rest) => (literalBytes? rest).map (bs ++ ·)
      | none => none
    else if x = '"' || x = '\n' then none
    else (literalBytes? cs).map (String.utf8EncodeChar x ++ ·)
  termination_by cs => cs.length
  decreasing_by
    · exact Nat.lt_succ_of_le (length_of_escapeBytes ‹_›)
    · exact Nat.lt_succ_self _

/-! ## Texts apart from what stands behind them -/

/-- Wherever it stands, a text stands for these bytes. -/
def StandsFor (text : List Char) (bs : List UInt8) : Prop :=
  ∀ rest, literalBytes? (text ++ rest) = (literalBytes? rest).map (bs ++ ·)

theorem standsFor_nil : StandsFor [] [] := by
  intro rest
  simp

theorem StandsFor.append {text text' : List Char} {bs bs' : List UInt8} (h : StandsFor text bs)
    (h' : StandsFor text' bs') : StandsFor (text ++ text') (bs ++ bs') := by
  intro rest
  rw [List.append_assoc, h, h', Option.map_map]
  congr 1
  funext tail
  exact (List.append_assoc bs bs' tail).symm

theorem standsFor_flatMap {α : Type} {text : α → List Char} {bytes : α → List UInt8} {xs : List α}
    (h : ∀ x ∈ xs, StandsFor (text x) (bytes x)) : StandsFor (xs.flatMap text) (xs.flatMap bytes) := by
  induction xs with
  | nil => exact standsFor_nil
  | cons x xs ih =>
      obtain ⟨hx, hxs⟩ := List.forall_mem_cons.mp h
      exact hx.append (ih hxs)

theorem standsFor_escape {text : List Char} {bs : List UInt8}
    (h : ∀ rest, escapeBytes? (text ++ rest) = some (bs, rest)) : StandsFor ('\\' :: text) bs := by
  intro rest
  rw [List.cons_append, literalBytes?, if_pos rfl]
  split
  · next bs' rest' hescape =>
    cases (h rest).symm.trans hescape
    rfl
  · next hescape => cases (h rest).symm.trans hescape

theorem standsFor_plain {x : Char} (hslash : x ≠ '\\') (hquote : x ≠ '"') (hline : x ≠ '\n') :
    StandsFor [x] (String.utf8EncodeChar x) := by
  intro rest
  rw [List.singleton_append, literalBytes?, if_neg hslash, if_neg (by simp [hquote, hline])]

/-- Three octal digits are taken as a whole, even if another digit follows. -/
theorem standsFor_octal (b : UInt8) : StandsFor (octalEscape b) [b] := by
  obtain ⟨first, more, htext, hmore, hdigits, hvalue⟩ := exists_octalDigits b
  have hoctal (y : Char) (hy : y ∈ first :: more) : isOctalDigit y = true := by
    obtain ⟨d, hd, rfl⟩ := hdigits y hy
    exact isOctalDigit_digitChar hd
  have hfirst := hoctal first List.mem_cons_self
  have hbyte : ¬ 0xFF < b.toNat := Nat.not_lt.mpr (Nat.le_of_lt_succ b.toNat_lt)
  have hread (rest : List Char) : octalByte? (first :: more ++ rest) = some ([b], rest) := by
    have hlength : (first :: more).length = 3 := congrArg Nat.succ hmore
    have htake : (first :: more ++ rest).take 3 = first :: more := by rw [← hlength, List.take_left]
    have hall : (first :: more ++ []).takeWhile isOctalDigit = first :: more ++ [].takeWhile isOctalDigit :=
      List.takeWhile_append_of_pos hoctal
    rw [List.takeWhile_nil, List.append_nil] at hall
    simp only [octalByte?, htake, hall, hvalue, hbyte, List.drop_left, UInt8.ofNat_toNat,
      List.isEmpty_cons, decide_false, Bool.or_self, Bool.false_eq_true, if_false]
  have hsimple : simpleByte? first = none := by
    unfold simpleByte?
    split <;> first | rfl | (revert hfirst; decide)
  have hmark : first ≠ 'u' ∧ first ≠ 'U' := by
    constructor <;> rintro rfl <;> revert hfirst <;> decide
  rw [htext]
  refine standsFor_escape fun rest => ?_
  rw [List.cons_append, escapeBytes?, hsimple]
  simpa [hmark] using hread rest

theorem universalName_padded {width : Nat} {x : Char}
    (hwidth : (Nat.toDigits 16 x.toNat).length ≤ width) (rest : List Char) :
    universalName? width (padded width (Nat.toDigits 16 x.toNat) ++ rest) =
      some (String.utf8EncodeChar x, rest) := by
  have hlength := length_padded hwidth
  have hvalue : ofDigits 16 (padded width (Nat.toDigits 16 x.toNat)) = x.toNat := by
    rw [ofDigits_padded, ofDigits_toDigits (by decide) (by decide)]
  have hhex : (padded width (Nat.toDigits 16 x.toNat)).all isHexDigit = true := by
    refine List.all_eq_true.mpr fun y hy => ?_
    obtain ⟨d, hd, rfl⟩ := digit_of_mem_padded (by decide) hy
    exact isHexDigit_digitChar hd
  generalize padded width (Nat.toDigits 16 x.toNat) = digits at hlength hvalue hhex
  subst hlength
  simp only [universalName?, List.take_left, List.drop_left, hhex, hvalue, charOf?_toNat, decide_true,
    Bool.and_self, if_true, Option.map_some]

theorem escapeBytes_short (cs : List Char) : escapeBytes? ('u' :: cs) = universalName? 4 cs := by
  simp [escapeBytes?, simpleByte?]

theorem escapeBytes_long (cs : List Char) : escapeBytes? ('U' :: cs) = universalName? 8 cs := by
  simp [escapeBytes?, simpleByte?]

theorem standsFor_name {mark x : Char} {width : Nat}
    (hmark : ∀ cs, escapeBytes? (mark :: cs) = universalName? width cs)
    (hwidth : (Nat.toDigits 16 x.toNat).length ≤ width) :
    StandsFor ('\\' :: mark :: padded width (Nat.toDigits 16 x.toNat)) (String.utf8EncodeChar x) := by
  refine standsFor_escape fun rest => ?_
  rw [List.cons_append, hmark]
  exact universalName_padded hwidth rest

/-! ## Characters of a literal -/

theorem standsFor_letter {e x : Char} (h : (e, x) ∈ lettered) :
    StandsFor ['\\', e] (String.utf8EncodeChar x) := by
  have hall : ∀ p ∈ lettered, simpleByte? p.1 = some p.2.val.toUInt8 ∧
      String.utf8EncodeChar p.2 = [p.2.val.toUInt8] := by decide
  obtain ⟨hbyte, hencoded⟩ := hall _ h
  rw [hencoded]
  refine standsFor_escape fun rest => ?_
  rw [List.singleton_append, escapeBytes?, hbyte]

theorem standsFor_escapeChar (x : Char) : StandsFor (escapeChar x) (String.utf8EncodeChar x) := by
  have hescapes := escapes_escapeChar x
  generalize escapeChar x = text at hescapes ⊢
  cases hescapes with
  | letter hletter => exact standsFor_letter hletter
  | octal =>
      -- a control character is written byte by byte
      have hbytes : StandsFor _ ((String.utf8EncodeChar x).flatMap ([·])) :=
        standsFor_flatMap fun b _ => standsFor_octal b
      rwa [List.flatMap_singleton'] at hbytes
  | plain hlow _ hslash hquote => exact standsFor_plain hslash hquote (ne_lineEnd hlow).1
  | short hdigits => exact standsFor_name escapeBytes_short hdigits
  | long hdigits => exact standsFor_name escapeBytes_long hdigits

/-- The visible characters of ASCII, the blank among them. -/
abbrev IsVisible (x : Char) : Prop := 0x20 ≤ x.toNat ∧ x.toNat ≤ 0x7E

/-- A text in which every quote stands behind the backslash that escapes it. -/
inductive QuotesEscaped : List Char → Prop
  | nil : QuotesEscaped []
  | plain {x : Char} {rest : List Char} : x ≠ '"' → x ≠ '\\' → QuotesEscaped rest →
      QuotesEscaped (x :: rest)
  | escaped {e : Char} {rest : List Char} : QuotesEscaped rest → QuotesEscaped ('\\' :: e :: rest)

theorem QuotesEscaped.append {text text' : List Char} (h : QuotesEscaped text)
    (h' : QuotesEscaped text') : QuotesEscaped (text ++ text') := by
  induction h with
  | nil => exact h'
  | plain hquote hslash _ ih => exact .plain hquote hslash ih
  | escaped _ ih => exact .escaped ih

/-- Visible text in which no quote can end a literal. -/
structure Shown (text : List Char) : Prop where
  visible : ∀ y ∈ text, IsVisible y
  escaped : QuotesEscaped text

theorem Shown.append {text text' : List Char} (h : Shown text) (h' : Shown text') :
    Shown (text ++ text') :=
  ⟨List.forall_mem_append.mpr ⟨h.visible, h'.visible⟩, h.escaped.append h'.escaped⟩

theorem shown_nil : Shown [] := ⟨nofun, .nil⟩

theorem shown_flatMap {α : Type} {text : α → List Char} {xs : List α}
    (h : ∀ x ∈ xs, Shown (text x)) : Shown (xs.flatMap text) := by
  induction xs with
  | nil => exact shown_nil
  | cons x xs ih =>
      obtain ⟨hx, hxs⟩ := List.forall_mem_cons.mp h
      exact hx.append (ih hxs)

theorem shown_digits {digits : List Char} (h : ∀ y ∈ digits, ∃ d, d < 16 ∧ y = Nat.digitChar d) :
    Shown digits := by
  have hdigit : ∀ d < 16, IsVisible (Nat.digitChar d) ∧ Nat.digitChar d ≠ '"' ∧
      Nat.digitChar d ≠ '\\' := by decide
  induction digits with
  | nil => exact shown_nil
  | cons y digits ih =>
      obtain ⟨⟨d, hd, rfl⟩, hmore⟩ := List.forall_mem_cons.mp h
      obtain ⟨hvisible, hquote, hslash⟩ := hdigit d hd
      have hrest := ih hmore
      exact ⟨List.forall_mem_cons.mpr ⟨hvisible, hrest.visible⟩, .plain hquote hslash hrest.escaped⟩

theorem shown_padded (width n : Nat) : Shown (padded width (Nat.toDigits 16 n)) :=
  shown_digits fun _ hy => digit_of_mem_padded (by decide) hy

theorem shown_escape {e : Char} {text : List Char} (he : IsVisible e) (h : Shown text) :
    Shown ('\\' :: e :: text) :=
  ⟨List.forall_mem_cons.mpr ⟨by decide, List.forall_mem_cons.mpr ⟨he, h.visible⟩⟩, .escaped h.escaped⟩

/-- The backslash of an octal escape stands in front of its first digit. -/
theorem shown_octal (b : UInt8) : Shown (octalEscape b) := by
  obtain ⟨first, more, htext, -, hdigits, -⟩ := exists_octalDigits b
  have hshown : Shown (first :: more) := shown_digits fun y hy =>
    (hdigits y hy).imp fun d hd => ⟨Nat.lt_of_lt_of_le hd.1 (by decide), hd.2⟩
  have hmore : Shown more := shown_digits fun y hy =>
    (hdigits y (.tail _ hy)).imp fun d hd => ⟨Nat.lt_of_lt_of_le hd.1 (by decide), hd.2⟩
  rw [htext]
  exact shown_escape (hshown.visible first List.mem_cons_self) hmore

theorem shown_escapeChar (x : Char) : Shown (escapeChar x) := by
  have hescapes := escapes_escapeChar x
  generalize escapeChar x = text at hescapes ⊢
  cases hescapes with
  | letter hletter =>
      have hvisible : ∀ p ∈ lettered, IsVisible p.1 := by decide
      exact shown_escape (hvisible _ hletter) shown_nil
  | octal => exact shown_flatMap fun b _ => shown_octal b
  | plain hlow hhigh hslash hquote =>
      exact ⟨List.forall_mem_singleton.mpr ⟨hlow, hhigh⟩, .plain hquote hslash .nil⟩
  | short => exact shown_escape (by decide) (shown_padded 4 x.toNat)
  | long => exact shown_escape (by decide) (shown_padded 8 x.toNat)

/-! ## The whole literal -/

theorem toUTF8_toList (s : String) : s.toUTF8.data.toList = s.toList.flatMap String.utf8EncodeChar := by
  have hbytes : s.toUTF8 = s.toList.utf8Encode := by
    rw [String.toUTF8_eq_toByteArray]
    conv => lhs; rw [← String.ofList_toList (s := s)]
    rfl
  rw [hbytes, List.utf8Encode, List.toList_data_toByteArray]

/-- The literal of a text stands between two quotes.  All of it is visible ASCII, no quote between the two
can end it, and C++ reads it as the UTF-8 of the text. -/
theorem quote_stands (s : String) : ∃ inside, (quote s).toList = '"' :: (inside ++ ['"']) ∧
    (∀ y ∈ (quote s).toList, IsVisible y) ∧ QuotesEscaped inside ∧
      literalBytes? inside = some s.toUTF8.data.toList := by
  have hquote : (quote s).toList = '"' :: (s.toList.flatMap escapeChar ++ ['"']) := by simp [quote]
  have hshown : Shown (s.toList.flatMap escapeChar) := shown_flatMap fun x _ => shown_escapeChar x
  have hstands : StandsFor (s.toList.flatMap escapeChar) (s.toList.flatMap String.utf8EncodeChar) :=
    standsFor_flatMap fun x _ => standsFor_escapeChar x
  refine ⟨s.toList.flatMap escapeChar, hquote, ?_, hshown.escaped, ?_⟩
  · have hmark : IsVisible '"' := by decide
    rw [hquote]
    exact List.forall_mem_cons.mpr ⟨hmark,
      List.forall_mem_append.mpr ⟨hshown.visible, List.forall_mem_singleton.mpr hmark⟩⟩
  · have hend : literalBytes? [] = some [] := by rw [literalBytes?]
    have hall := hstands []
    rw [List.append_nil, hend, Option.map_some, List.append_nil] at hall
    rw [hall, toUTF8_toList]

/-- A fourth octal digit stands for itself. -/
example : literalBytes? ['\\', '1', '0', '1', '0', '\\', 'u', '0', '0', 'e', '9'] =
    some [0x41, 0x30, 0xC3, 0xA9] := by cbv

end MysToCpp.Cpp
