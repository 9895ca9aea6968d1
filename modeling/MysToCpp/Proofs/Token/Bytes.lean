/-
# Bytes

A bytes literal is written in ASCII, except that behind a backslash any character may stand: only characters
that stand for themselves are checked.  An unknown or raw escape keeps its character, so beyond the escaped
characters every character of the literal fits in a byte, and the bytes are the characters if the literal
is written in ASCII throughout.  `tokenize_bytes` says this of the literals that are read, and that a literal
is refused as soon as a character beyond ASCII is met in it that no backslash stands in front of.
-/
import MysToCpp.Proofs.Text.Digits
import MysToCpp.Proofs.Token.Written
import MysToCpp.Text.Unicode

namespace MysToCpp

namespace Token

open Cursor (reads_next reads_skip reads_takeWhile)
open Text (isHexDigit isHexDigit_iff isIdentifierChar digitValue digitValue_eq ofDigits ofDigits_lt)

/-! ## Texts with escapes -/

/-- A text of ASCII characters and of backslashes with any character behind them. -/
inductive Guarded : List Char → Prop
  | nil : Guarded []
  | ascii {x : Char} {text : List Char} : x.toNat < 0x80 → Guarded text → Guarded (x :: text)
  | escaped {e : Char} {text : List Char} : Guarded text → Guarded ('\\' :: e :: text)

theorem Guarded.append {xs ys : List Char} (hx : Guarded xs) (hy : Guarded ys) : Guarded (xs ++ ys) := by
  induction hx with
  | nil => exact hy
  | ascii hx _ ih => exact .ascii hx ih
  | escaped _ ih => exact .escaped ih

theorem guarded_of_ascii {text : List Char} (h : ∀ x ∈ text, x.toNat < 0x80) : Guarded text := by
  induction text with
  | nil => exact .nil
  | cons x text ih =>
      obtain ⟨hx, htext⟩ := List.forall_mem_cons.mp h
      exact .ascii hx (ih htext)

theorem HexDigits.ascii {text : List Char} (h : HexDigits text) : ∀ x ∈ text, x.toNat < 0x80 := by
  intro x hx
  have hvalue := isHexDigit_iff.mp (h x hx)
  rw [digitValue_eq] at hvalue
  grind

/-! ## Escapes in bytes -/

theorem toNat_charOf? {n : Nat} {x : Char} (h : charOf? n = some x) : x.toNat = n := by
  unfold charOf? at h
  split at h
  · next hvalid =>
    cases h
    have hvalid : n.isValidChar := by simpa using hvalid
    rw [Char.ofNat, dif_pos hvalid]
    rfl
  · cases h

theorem simpleEscape_le {e x : Char} (h : simpleEscape? e = some x) : x.toNat ≤ 0xFF := by
  unfold simpleEscape? at h
  split at h <;> cases h <;> decide

theorem scanOctal_le {e : Char} {c c' : Cursor} {part : List Char}
    (h : scanOctal true e c = (.ok part, c')) : ∀ y ∈ part, y.toNat ≤ 0xFF := by
  unfold scanOctal at h
  dsimp only at h
  split at h
  · cases h
  · next hcode =>
    split at h
    · next x hx =>
      cases h
      intro y hy
      rw [List.mem_singleton.mp hy, toNat_charOf? hx]
      simpa using hcode
    · cases h

theorem scanHex_le {marker : Char} {c c' : Cursor} {part : List Char}
    (h : scanHex marker 2 c = (.ok part, c')) : ∀ y ∈ part, y.toNat ≤ 0xFF := by
  unfold scanHex at h
  dsimp only at h
  split at h
  · cases h
  · split at h
    · next x hx =>
      cases h
      intro y hy
      rw [List.mem_singleton.mp hy, toNat_charOf? hx]
      have hdigits : ∀ z ∈ (c.takeAtMost 2 isHexDigit).1, digitValue z < 16 := fun z hz =>
        isHexDigit_iff.mp (List.all_eq_true.mp List.all_takeWhile z hz)
      have hlength : (c.takeAtMost 2 isHexDigit).1.length ≤ 2 :=
        Nat.le_trans (List.takeWhile_prefix _).length_le (List.length_take_le _ _)
      have hvalue := ofDigits_lt _ hdigits
      have hpow : Nat.pow 16 (c.takeAtMost 2 isHexDigit).1.length ≤ Nat.pow 16 2 :=
        Nat.pow_le_pow_right (by decide) hlength
      exact Nat.le_of_lt_succ (Nat.lt_of_lt_of_le hvalue hpow)
    · cases h

/-- What an escape in bytes stands for fits in a byte, but for the character of an unknown escape. -/
theorem scanEscape_le {e : Char} {c c' : Cursor} {part : List Char}
    (h : scanEscape true e c = (.ok part, c')) : ∀ y ∈ part, y.toNat ≤ 0xFF ∨ y = e := by
  unfold scanEscape at h
  split at h
  · cases h
    exact nofun
  · split at h
    · next x hx =>
      cases h
      intro y hy
      rw [List.mem_singleton.mp hy]
      exact .inl (simpleEscape_le hx)
    · split at h
      · exact fun y hy => .inl (scanOctal_le h y hy)
      · split at h
        · exact fun y hy => .inl (scanHex_le h y hy)
        · simp only [Bool.not_true, Bool.and_false, Bool.false_eq_true, if_false] at h
          cases h
          intro y hy
          rcases List.mem_cons.mp hy with rfl | hy
          · exact .inl (by decide)
          · exact .inr (List.mem_singleton.mp hy)

/-! ## Bodies of bytes -/

section Bytes

variable {form : StringForm} {quote : Char} {triple : Bool} {c c' : Cursor} {value : List Char}

theorem IsQuote.ascii (h : IsQuote quote) : quote.toNat < 0x80 := by
  rcases h with rfl | rfl <;> decide

/-- A character of a literal written so fits in a byte, or stands behind a backslash. -/
def FitsOrEscaped (text : List Char) (y : Char) : Prop := y.toNat ≤ 0xFF ∨ ['\\', y] <:+: text

theorem FitsOrEscaped.behind {text : List Char} {y : Char} (h : FitsOrEscaped text y)
    (front : List Char) : FitsOrEscaped (front ++ text) y :=
  h.imp_right fun hmem => hmem.trans (List.suffix_append front text).isInfix

/-- A body of bytes is guarded, and its characters fit in bytes or are escaped. -/
theorem Body.guarded (h : Body form quote triple c value c') (hquote : IsQuote quote)
    (hbytes : form.bytes = true) :
    ∃ read, c.Reads read c' ∧ Guarded read ∧ ∀ y ∈ value, FitsOrEscaped read y := by
  induction h with
  | close hx _ => exact ⟨_, reads_next hx, .ascii hquote.ascii .nil, nofun⟩
  | closeTriple hx _ hquotes =>
      refine ⟨_, (reads_next hx).trans (reads_atTwoQuotes hquotes), ?_, nofun⟩
      exact .ascii hquote.ascii (.ascii hquote.ascii (.ascii hquote.ascii .nil))
  | @char c c₁ c₂ x text hx hplain _ ih =>
      obtain ⟨read, hread, hguarded, hvalue⟩ := ih
      have hascii := hplain.ascii hbytes
      refine ⟨_, (reads_next hx).trans hread, .ascii hascii hguarded, ?_⟩
      intro y hy
      rcases List.mem_cons.mp hy with rfl | hy
      · exact .inl (by omega)
      · exact (hvalue y hy).behind [x]
  | @raw c c₁ c₂ c₃ e text hx he _ _ ih =>
      obtain ⟨read, hread, hguarded, hvalue⟩ := ih
      refine ⟨_, ((reads_next hx).trans (reads_next he)).trans hread, .escaped hguarded, ?_⟩
      intro y hy
      rcases List.mem_cons.mp hy with rfl | hy
      · exact .inl (by decide)
      · rcases List.mem_cons.mp hy with rfl | hy
        · exact .inr (List.prefix_append ['\\', y] read).isInfix
        · exact (hvalue y hy).behind ['\\', e]
  | @escape c c₁ c₂ c₃ c₄ e part text hx he _ hescape _ ih =>
      obtain ⟨read, hread, hguarded, hvalue⟩ := ih
      rw [hbytes] at hescape
      obtain ⟨digits, hdigits, hhex⟩ := reads_scanEscape true e c₂
      rw [hescape] at hdigits
      have hescaped := (reads_next hx).trans (reads_next he)
      refine ⟨_, hescaped.trans (hdigits.trans hread),
        .escaped ((guarded_of_ascii hhex.ascii).append hguarded), ?_⟩
      intro y hy
      rcases List.mem_append.mp hy with hy | hy
      · rcases scanEscape_le hescape y hy with hfits | rfl
        · exact .inl hfits
        · exact .inr (List.prefix_append ['\\', y] _).isInfix
      · exact ((hvalue y hy).behind digits).behind ['\\', e]

/-! ## Bodies with a character beyond ASCII -/

/-- The body of a literal is read up to some place in it. -/
inductive Reaches (form : StringForm) (quote : Char) (triple : Bool) : Cursor → Cursor → Prop
  | refl (c : Cursor) : Reaches form quote triple c c
  | char {c c₁ c₂ : Cursor} {x : Char} : c.next? = some (x, c₁) → Plain form quote triple x c₁ →
      Reaches form quote triple c₁ c₂ → Reaches form quote triple c c₂
  | raw {c c₁ c₂ c₃ : Cursor} {e : Char} : c.next? = some ('\\', c₁) → c₁.next? = some (e, c₂) →
      form.raw = true → Reaches form quote triple c₂ c₃ → Reaches form quote triple c c₃
  | escape {c c₁ c₂ c₃ c₄ : Cursor} {e : Char} {part : List Char} : c.next? = some ('\\', c₁) →
      c₁.next? = some (e, c₂) → form.raw = false → scanEscape form.bytes e c₂ = (.ok part, c₃) →
      Reaches form quote triple c₃ c₄ → Reaches form quote triple c c₄

theorem Reaches.scanBody (h : Reaches form quote triple c c') (hquote : IsQuote quote) :
    ∀ (fuel : Nat) (read : List Char), c.rest.length < fuel → ∃ fuel' read', c'.rest.length < fuel' ∧
      Token.scanBody form quote triple fuel read c = Token.scanBody form quote triple fuel' read' c' := by
  induction h with
  | refl c => exact fun fuel read hfuel => ⟨fuel, read, hfuel, rfl⟩
  | @char c c₁ c₂ x hx hplain _ ih =>
      intro fuel read hfuel
      obtain ⟨fuel, rfl⟩ : ∃ k, fuel = k + 1 := ⟨fuel - 1, by omega⟩
      have hlen := (reads_next hx).length
      rw [scanBody_char hx hplain]
      exact ih fuel _ (by simp at hlen; omega)
  | @raw c c₁ c₂ c₃ e hx he hraw _ ih =>
      intro fuel read hfuel
      obtain ⟨fuel, rfl⟩ : ∃ k, fuel = k + 1 := ⟨fuel - 1, by omega⟩
      have hlen := ((reads_next hx).trans (reads_next he)).length
      rw [scanBody_raw hquote hx he hraw]
      exact ih fuel _ (by simp at hlen; omega)
  | @escape c c₁ c₂ c₃ c₄ e part hx he hraw hescape _ ih =>
      intro fuel read hfuel
      obtain ⟨fuel, rfl⟩ : ∃ k, fuel = k + 1 := ⟨fuel - 1, by omega⟩
      have hless := length_of_escape hx he hescape
      rw [scanBody_escape hquote hx he hraw hescape]
      exact ih fuel _ (by omega)

/-- A bytes literal is refused at a character beyond ASCII that stands for itself. -/
theorem scanString_nonAscii {c₁ : Cursor} {x : Char} (hquote : IsQuote quote) (hbytes : form.bytes = true)
    (hbody : Reaches form quote (atTwoQuotes quote c) (opened quote c) c')
    (hx : c'.next? = some (x, c₁)) (hwide : 0x80 ≤ x.toNat) :
    scanString form quote c = (.error .nonAsciiBytes, c₁) := by
  obtain ⟨fuel, read, hfuel, hscan⟩ := hbody.scanBody hquote _ [] (Nat.lt_succ_self _)
  obtain ⟨fuel, rfl⟩ : ∃ k, fuel = k + 1 := ⟨fuel - 1, by omega⟩
  have hxq : x ≠ quote := by
    rintro rfl
    exact absurd hquote.ascii (Nat.not_lt.mpr hwide)
  have hfeed : x ≠ '\n' := by
    rintro rfl
    exact absurd hwide (by decide)
  have hrefused : Token.scanBody form quote (atTwoQuotes quote c) (fuel + 1) read c' =
      (.error .nonAsciiBytes, c₁) := by
    simp [Token.scanBody, hx, hxq, hfeed, hbytes, hwide]
  have hstring : scanString form quote c =
      ((Token.scanBody form quote (atTwoQuotes quote c) ((opened quote c).rest.length + 1) []
        (opened quote c)).1.map form.token,
      (Token.scanBody form quote (atTwoQuotes quote c) ((opened quote c).rest.length + 1) []
        (opened quote c)).2) := rfl
  rw [hstring, hscan, hrefused]
  rfl

/-! ## Literals -/

/-- How a bytes literal is written: letters that ask for bytes, a quote, and a body that is read as
`value`. -/
def WritesBytes (text value : List Char) : Prop :=
  ∃ markers quote body form c c', text = markers ++ quote :: body ∧
    StringForm.ofMarkers? markers = some form ∧ form.bytes = true ∧ IsQuote quote ∧
      Cursor.Reads c body c' ∧ Body form quote (atTwoQuotes quote c) (opened quote c) value c'

theorem token_eq_bytes {bs : List UInt8} (h : form.token value = .bytes bs) :
    form.bytes = true ∧ bs = value.map fun y => UInt8.ofNat y.toNat := by
  unfold StringForm.token at h
  split at h
  · next hbytes => exact ⟨hbytes, (TokenKind.bytes.inj h).symm⟩
  · split at h <;> cases h

theorem ascii_of_toLower {x : Char} (h : x.toLower.toNat < 0x80) : x.toNat < 0x80 := by
  unfold Char.toLower at h
  split at h
  · next hupper =>
    have hle : x.toNat ≤ 90 := UInt32.le_iff_toNat_le.mp hupper.2
    omega
  · exact h

theorem ascii_of_addMarker {alone : Bool} {form' : StringForm} {x : Char}
    (h : StringForm.addMarker alone form x = some form') : x.toNat < 0x80 := by
  have hlower : x.toLower.toNat < 0x80 := by
    unfold StringForm.addMarker at h
    split at h
    case h_5 => cases h
    all_goals next hx => rw [hx]; decide
  exact ascii_of_toLower hlower

theorem ascii_of_addMarkers {alone : Bool} {markers : List Char} {start : StringForm}
    (h : markers.foldlM (StringForm.addMarker alone) start = some form) :
    ∀ x ∈ markers, x.toNat < 0x80 := by
  induction markers generalizing start with
  | nil => exact nofun
  | cons x markers ih =>
      rw [List.foldlM_cons] at h
      obtain ⟨next, hx, hmore⟩ := Option.bind_eq_some_iff.mp h
      exact List.forall_mem_cons.mpr ⟨ascii_of_addMarker hx, ih hmore⟩

theorem ascii_of_ofMarkers {markers : List Char} (h : StringForm.ofMarkers? markers = some form) :
    ∀ x ∈ markers, x.toNat < 0x80 := by
  unfold StringForm.ofMarkers? at h
  split at h
  · cases h
  · exact ascii_of_addMarkers h

/-- The text of a bytes literal is guarded, and the characters that it is read as fit in bytes or are
escaped. -/
theorem WritesBytes.guarded {text : List Char} (h : WritesBytes text value) :
    Guarded text ∧ ∀ y ∈ value, FitsOrEscaped text y := by
  obtain ⟨markers, quote, rest, form, c, c', rfl, hmarkers, hbytes, hquote, hreads, hbody⟩ := h
  obtain ⟨quotes, hquotes, hsame⟩ := reads_opened quote c
  obtain ⟨read, hread, hguarded, hvalue⟩ := hbody.guarded hquote hbytes
  have hrest : rest = quotes ++ read := hreads.unique (hquotes.trans hread)
  have hquotesAscii : ∀ x ∈ quotes, x.toNat < 0x80 := fun x hx => by
    rw [hsame x hx]
    exact hquote.ascii
  rw [hrest]
  constructor
  · exact (guarded_of_ascii (ascii_of_ofMarkers hmarkers)).append
      (.ascii hquote.ascii ((guarded_of_ascii hquotesAscii).append hguarded))
  · intro y hy
    exact (((hvalue y hy).behind quotes).behind [quote]).behind markers

theorem WritesBytes.lossless {text : List Char} (h : WritesBytes text value)
    (hascii : ∀ x ∈ text, x.toNat < 0x80) :
    (value.map fun y => UInt8.ofNat y.toNat).map UInt8.toNat = value.map Char.toNat := by
  rw [List.map_map]
  refine List.map_congr_left fun y hy => ?_
  have hfits : y.toNat ≤ 0xFF := by
    rcases h.guarded.2 y hy with hfits | hescaped
    · exact hfits
    · have hy : y ∈ text := hescaped.subset (by simp)
      have hlow := hascii y hy
      omega
  exact Nat.mod_eq_of_lt (Nat.lt_succ_of_le hfits)

end Bytes

end Token

/-! ## Whole texts -/

open Token (StringForm IsQuote WritesBytes Guarded FitsOrEscaped Reaches opened atTwoQuotes)

namespace Lexer

open Text (isIdentifierStart isIdentifierChar)

variable [Text.IdentifierTable]

theorem scanToken_bytes {lx lx' : Lexer} {x : Char} {t : Token} {bs : List UInt8} {read : List Char}
    (h : lx.scanToken x = (some t, lx')) (hkind : t.kind = .bytes bs)
    (hread : lx.cursor.Reads read lx'.cursor) :
    ∃ value, WritesBytes (x :: read) value ∧ bs = value.map fun y => UInt8.ofNat y.toNat := by
  have hcases := scanToken_cases h
  rw [hkind] at hcases
  rcases hcases with ⟨-, hword⟩ | ⟨hdigit, hnumber⟩ | ⟨hquote, hstring⟩ | ⟨rfl, hdot⟩ | ⟨p, hp⟩
  · rcases scanWord_cases hword with hplain | ⟨quote, form, hquote, hpeek, hform, hscan⟩
    · unfold TokenKind.ofWord at hplain
      split at hplain <;> cases hplain
    · obtain ⟨value, htoken, hbody⟩ := (Token.scanString_eq_ok hquote).mp hscan
      obtain ⟨hbytes, rfl⟩ := Token.token_eq_bytes htoken.symm
      obtain ⟨quotes, hquotes, -⟩ := Token.reads_opened quote (lx.cursor.takeWhile isIdentifierChar).2.skip
      obtain ⟨more, hmore, -⟩ := hbody.reads
      have hletters := (Cursor.reads_takeWhile isIdentifierChar lx.cursor).trans (Cursor.reads_skip hpeek)
      have hrest := hquotes.trans hmore
      have hall := hread.unique (hletters.trans hrest)
      refine ⟨value, ⟨_, quote, _, form, _, _, ?_, hform, hbytes, hquote, hrest, hbody⟩, rfl⟩
      rw [hall]
      simp
  · have hbad := Token.isNumber_scanNumber (congrArg Prod.fst hnumber)
    cases hbad
  · obtain ⟨value, htoken, -⟩ := (Token.scanString_eq_ok hquote).mp hstring
    exact absurd (Token.token_eq_bytes htoken.symm).1 Bool.false_ne_true
  · have hbad := Token.isNumber_decimalValue (congrArg Prod.fst hdot)
    cases hbad
  · cases hp

/-- The lexer stands behind the first character of a bytes literal, and `c` behind its first quote. -/
structure AtBytes (lx : Lexer) (first : Char) (form : StringForm) (quote : Char) (c : Cursor) : Prop where
  start : isIdentifierStart first = true
  markers : StringForm.ofMarkers? (first :: (lx.cursor.takeWhile isIdentifierChar).1) = some form
  bytes : form.bytes = true
  isQuote : IsQuote quote
  next : (lx.cursor.takeWhile isIdentifierChar).2.next? = some (quote, c)

theorem AtBytes.refused {lx : Lexer} {first quote x : Char} {form : StringForm} {c c₁ c₂ : Cursor}
    (h : lx.AtBytes first form quote c)
    (hbody : Reaches form quote (atTwoQuotes quote c) (opened quote c) c₁)
    (hx : c₁.next? = some (x, c₂)) (hwide : 0x80 ≤ x.toNat) :
    lx.scanToken first = (none, (lx.moveTo c₂).fail .nonAsciiBytes) := by
  have hquote : quote = '"' ∨ quote = '\'' := h.isQuote
  have hpeek := Cursor.peek_of_next h.next
  have hskip := Cursor.skip_of_next h.next
  have hword : scanWord first lx.cursor = (.error .nonAsciiBytes, c₂) := by
    have hscan := Token.scanString_nonAscii h.isQuote h.bytes hbody hx hwide
    unfold scanWord
    simp [hpeek, hskip, hquote, h.markers, hscan]
  simp [scanToken, h.start, hword, accept]

end Lexer

/-- Under a token of bytes stands a bytes literal.  Characters beyond ASCII stand in it only behind
backslashes, what it is read as fits in bytes but for such characters, and its bytes are what it is read as
if it is written in ASCII.  A text is refused where the lexer comes to a bytes literal and meets in its body
a character beyond ASCII that no backslash stands in front of. -/
theorem tokenize_bytes [Text.IdentifierTable] (source : String) :
    (∀ ts t bs, tokenize source = .ok ts → t ∈ ts → t.kind = .bytes bs →
      ∃ text value, t.textIn source = some text ∧ WritesBytes text value ∧
        bs = value.map (fun y => UInt8.ofNat y.toNat) ∧ Guarded text ∧
          (∀ y ∈ value, FitsOrEscaped text y) ∧
            ((∀ x ∈ text, x.toNat < 0x80) → bs.map UInt8.toNat = value.map Char.toNat)) ∧
    ∀ before lx lx₁ first form quote c c₁ c₂ x, (Lexer.ofText source).Gives before lx → lx.Searching →
      lx.ComesTo first lx₁ → lx₁.AtBytes first form quote c →
        Reaches form quote (atTwoQuotes quote c) (opened quote c) c₁ → c₁.next? = some (x, c₂) →
          0x80 ≤ x.toNat → ∃ span, tokenize source = .error ⟨.nonAsciiBytes, span⟩ := by
  constructor
  · intro ts t bs h ht hkind
    have hlayout : t.kind.isLayout = false := by
      rw [hkind]
      rfl
    obtain ⟨x, read, lx, lx', hscan, hread, htext⟩ := tokenize_written h ht hlayout
    obtain ⟨value, hwrites, rfl⟩ := Lexer.scanToken_bytes hscan hkind hread
    obtain ⟨hguarded, hvalue⟩ := hwrites.guarded
    exact ⟨_, value, htext, hwrites, rfl, hguarded, hvalue, hwrites.lossless⟩
  · intro before lx lx₁ first form quote c c₁ c₂ x hgives hs hcomes hat hbody hx hwide
    exact ⟨_, tokenize_refused hgives hs hcomes (hat.refused hbody hx hwide) rfl⟩

/-- An escape of a byte and an unknown escape of a character beyond ASCII are read; without its backslash the
character is refused. -/
theorem tokenize_bytes_samples :
    (∃ t rest text value, tokenize "b\"\\xff\\é\"" = .ok (t :: rest) ∧
      t.textIn "b\"\\xff\\é\"" = some text ∧ WritesBytes text value ∧
        t.kind = .bytes (value.map fun y => UInt8.ofNat y.toNat) ∧ Guarded text) ∧
    ∃ span, tokenize "b'aé'" = .error ⟨.nonAsciiBytes, span⟩ := by
  constructor
  · obtain ⟨text, value, htext, hwrites, hbytes, hguarded, -⟩ :=
      (tokenize_bytes "b\"\\xff\\é\"").1 _ _ [0xff, 0x5c, 0xe9] rfl List.mem_cons_self rfl
    exact ⟨_, _, text, value, rfl, htext, hwrites, congrArg TokenKind.bytes hbytes, hguarded⟩
  · have htext : "b'aé'".toList = 'b' :: ['\'', 'a', 'é', '\''] := rfl
    obtain ⟨lx, hcomes, hcursor, -⟩ := Lexer.comesTo_ofText htext (by decide)
    have hat : lx.AtBytes 'b' { bytes := true } '\'' ⟨['a', 'é', '\''], ⟨1, 3, 2⟩⟩ := by
      refine ⟨by decide, ?_, rfl, .inr rfl, ?_⟩
      · rw [hcursor]
        rfl
      · rw [hcursor]
        rfl
    have hplain : Token.Plain { bytes := true } '\'' false 'a' ⟨['é', '\''], ⟨1, 4, 3⟩⟩ :=
      ⟨nofun, nofun, fun _ => by decide, by decide⟩
    exact (tokenize_bytes "b'aé'").2 [] _ lx _ _ _ _ _ _ _ (.nil _)
      ⟨Lexer.valid_ofText _, rfl, rfl⟩ hcomes hat (.char rfl hplain (.refl _)) rfl (by decide)

/-- A character beyond ASCII is kept behind a backslash, and cut down to a byte. -/
theorem tokenize_bytes_cut :
    ∃ t rest text, tokenize "b\"\\€\"" = .ok (t :: rest) ∧ t.kind = .bytes [0x5c, 0xac] ∧
      t.textIn "b\"\\€\"" = some text ∧ '€' ∈ text ∧ '€'.toNat = 0x20ac :=
  ⟨_, _, _, rfl, rfl, rfl, by decide, rfl⟩

end MysToCpp
