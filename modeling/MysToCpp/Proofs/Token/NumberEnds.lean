/-
# Where numbers end

A number takes the letters and digits that stick to it, so that `1abc` is one bad number and not a number
with a name behind it.  Decimals do so in every script: behind a decimal stands no character that goes on
with an identifier, and no word starts there.  Behind a marker of a base only letters and digits of ASCII
are taken, so that a character beyond ASCII can go on where the number ended, and a name can start with it
(`tokenize_number_ends`, `tokenize_number_glued`).
-/
import MysToCpp.Proofs.Token.Given
import MysToCpp.Proofs.Token.Lossless
import MysToCpp.Proofs.Token.Numerals
import MysToCpp.Text.Unicode

namespace MysToCpp

open Cursor (peek?_takeWhile reads_skip reads_takeWhile)
open Text (isDigit isIdentifierChar)

namespace Token

variable [Text.IdentifierTable]

/-- What stands behind a token. -/
def behindIn (source : String) (t : Token) : Option (List Char) :=
  dropBytes? t.span.stop.offset source.toList

/-- A number is written with a marker of its base behind a zero. -/
def HasRadix (text : List Char) : Prop :=
  ∃ marker base p digits, text = '0' :: marker :: digits ∧ Radix marker base p

/-- What goes on with an identifier stands behind a number only where the number has a marker of its base,
and then it is no ASCII character. -/
def NumberEnds (text behind : List Char) : Prop :=
  ∀ x ∈ behind.head?, isIdentifierChar x = true → HasRadix text ∧ 0x80 ≤ x.toNat

variable {c c' : Cursor} {first : Char} {kind : TokenKind}

/-- All that sticks to a decimal belongs to it. -/
theorem finishDecimal_ends {text : List Char} {isFloat : Bool}
    (h : finishDecimal text isFloat c = (.ok kind, c')) : ∀ x ∈ c'.peek?, isIdentifierChar x = false := by
  obtain ⟨-, rfl⟩ := Prod.mk.inj h
  exact fun x hx => peek?_takeWhile isIdentifierChar c hx

theorem scanLeadingDot_ends (h : scanLeadingDot c = (.ok kind, c')) :
    ∀ x ∈ c'.peek?, isIdentifierChar x = false := finishDecimal_ends h

/-- Behind the digits of a marked base no letter or digit of ASCII is left. -/
theorem wide_of_digits_end {x : Char}
    (h : (c.takeWhile fun y => y.isAlphanum || y = '_').2.peek? = some x)
    (hx : isIdentifierChar x = true) : 0x80 ≤ x.toNat := by
  have hstop := peek?_takeWhile _ c h
  rw [← Nat.not_lt]
  intro hlow
  simp only [isIdentifierChar, hlow, if_true] at hx
  simp_all

theorem scanNumber_ends (h : scanNumber first c = (.ok kind, c')) :
    ∃ text, c.Reads text c' ∧ NumberEnds (first :: text) c'.rest := by
  cases hradix : radixOf? first c.peek? with
  | some found =>
      obtain ⟨base, marker⟩ := found
      obtain ⟨rfl, hmarker, p, hr⟩ := radixOf?_eq_some.mp hradix
      simp only [scanNumber, hradix] at h
      obtain ⟨-, rfl⟩ := Prod.mk.inj h
      have hread := (reads_skip hmarker).trans (reads_takeWhile (fun y => y.isAlphanum || y = '_') c.skip)
      refine ⟨_, hread, fun x hx hident => ⟨⟨marker, base, p, _, rfl, hr⟩, ?_⟩⟩
      exact wide_of_digits_end hx hident
  | none =>
      obtain ⟨text, hread, -⟩ := scans_number first c
      rw [h] at hread
      simp only [scanNumber, hradix] at h
      refine ⟨text, hread, fun x hx hident => ?_⟩
      exact absurd (hident.symm.trans (finishDecimal_ends h x hx)) (by decide)

end Token

/-! ## Words behind a number -/

theorem Keyword.ascii (w : Keyword) : ∃ x ∈ w.spelling.toList.head?, x.toNat < 0x80 := by
  cases w <;> exact ⟨_, rfl, by decide⟩

open Token (NumberEnds HasRadix)

section Whole

variable {source : String} {ts : List Token} {t u : Token}

theorem tokenize_number_behind [Text.IdentifierTable] (h : tokenize source = .ok ts) (ht : t ∈ ts)
    (hnumber : t.kind.isNumber = true) : ∃ text behind, t.textIn source = some text ∧
      t.behindIn source = some behind ∧ NumberEnds text behind := by
  have hlayout : t.kind.isLayout = false := by
    cases hkind : t.kind <;> rw [hkind] at hnumber <;> first | rfl | cases hnumber
  obtain ⟨first, text, lx, lx', hscan, hread, htext, ⟨before, hsource, hoffset⟩, hstop⟩ :=
    tokenize_scanned h ht hlayout
  have hbehind : t.behindIn source = some lx'.cursor.rest := by
    have hstop' : t.span.stop.offset = byteLength before := by rw [hstop, ← hoffset]; rfl
    rw [Token.behindIn, hstop', hsource]
    exact dropBytes?_append _ _
  refine ⟨_, _, htext, hbehind, ?_⟩
  rcases Lexer.scanToken_number hscan hnumber with ⟨-, hdigits⟩ | ⟨rfl, hdot⟩
  · obtain ⟨text', hread', hends⟩ := Token.scanNumber_ends hdigits
    rwa [hread.unique hread']
  · intro x hx hident
    exact absurd (hident.symm.trans (Token.scanLeadingDot_ends hdot x hx)) (by decide)

theorem head_behind {text behind : List Char} {x : Char} (hu : u.textIn source = some text)
    (hbehind : t.behindIn source = some behind) (hoffset : u.span.start.offset = t.span.stop.offset)
    (hx : text.head? = some x) : behind.head? = some x := by
  rw [Token.textIn, hoffset] at hu
  obtain ⟨more, rfl⟩ := prefix_of_slice hu hbehind
  rw [List.head?_append, hx]
  rfl

variable [Text.IdentifierTable]

theorem textIn_word {word : String} (h : tokenize source = .ok ts) (hu : u ∈ ts)
    (hword : ∀ {p : Prop} {text : List Char}, u.kind.Spells p text → text = word.toList) :
    u.textIn source = some word.toList := by
  obtain ⟨text, htext, hspells⟩ := (tokenize_lossless source ts h).spelled u hu
  rw [← hword hspells]
  exact htext

end Whole

/-- Behind a number of a text stands no character that goes on with an identifier, and so no word starts
where the number ends, unless the number has a marker of its base.  Behind such a number no keyword starts
either, but a character beyond ASCII may stand there and a name may start with it. -/
theorem tokenize_number_ends [Text.IdentifierTable] {source : String} {ts : List Token} {t : Token}
    (h : tokenize source = .ok ts) (ht : t ∈ ts) (hnumber : t.kind.isNumber = true) :
    ∃ text behind, t.textIn source = some text ∧ t.behindIn source = some behind ∧
      NumberEnds text behind ∧ ∀ u ∈ ts, u.span.start.offset = t.span.stop.offset →
        (∀ w, u.kind ≠ .keyword w) ∧
          ∀ name, u.kind = .name name → HasRadix text ∧ ∃ x ∈ name.toList.head?, 0x80 ≤ x.toNat := by
  obtain ⟨text, behind, htext, hbehind, hends⟩ := tokenize_number_behind h ht hnumber
  refine ⟨text, behind, htext, hbehind, hends, fun u hu hoffset => ⟨fun w hkind => ?_, ?_⟩⟩
  · obtain ⟨x, hx, hlow⟩ := w.ascii
    have hword : u.textIn source = some w.spelling.toList :=
      textIn_word h hu (by rw [hkind]; exact id)
    have hident := (Lexer.isIdentifier_keyword w).chars x (List.mem_of_head? hx)
    have hwide := (hends x (head_behind hword hbehind hoffset hx) hident).2
    omega
  · intro name hkind
    have hlayout : u.kind.isLayout = false := by rw [hkind]; rfl
    obtain ⟨_, _, _, _, hscan, -⟩ := tokenize_written h hu hlayout
    have hid := Lexer.scanToken_name hscan hkind
    have hword : u.textIn source = some name.toList := textIn_word h hu (by rw [hkind]; exact id)
    have hchars := hid.chars
    obtain ⟨x, more, hname, -⟩ := hid
    have hx : name.toList.head? = some x := by rw [hname]; rfl
    have hident := hchars x (List.mem_of_head? hx)
    obtain ⟨hradix, hwide⟩ := hends x (head_behind hword hbehind hoffset hx) hident
    exact ⟨hradix, x, hx, hwide⟩

/-- A decimal, and a number with a marker that a name starts behind. -/
theorem tokenize_number_ends_sample :
    ∃ t u rest, tokenize "2.5 0b1é" = .ok (t :: u :: rest) ∧ t.kind.isNumber = true ∧
      u.kind.isNumber = true ∧
      (∃ text behind, t.textIn "2.5 0b1é" = some text ∧ t.behindIn "2.5 0b1é" = some behind ∧
        NumberEnds text behind) ∧
      ∃ text behind, u.textIn "2.5 0b1é" = some text ∧ u.behindIn "2.5 0b1é" = some behind ∧
        NumberEnds text behind := by
  have hends {t : Token} {ts : List Token} (h : tokenize "2.5 0b1é" = .ok ts) (ht : t ∈ ts)
      (hnumber : t.kind.isNumber = true) : ∃ text behind, t.textIn "2.5 0b1é" = some text ∧
        t.behindIn "2.5 0b1é" = some behind ∧ NumberEnds text behind := by
    obtain ⟨text, behind, htext, hbehind, hends, -⟩ := tokenize_number_ends h ht hnumber
    exact ⟨text, behind, htext, hbehind, hends⟩
  exact ⟨_, _, _, rfl, rfl, rfl, hends rfl List.mem_cons_self rfl,
    hends rfl (.tail _ List.mem_cons_self) rfl⟩

/-- A letter beyond ASCII stands right behind the digits of base sixteen, and a name starts with it. -/
theorem tokenize_number_glued :
    ∃ t u rest, tokenize "0x1é" = .ok (t :: u :: rest) ∧ t.kind = .int 1 ∧ u.kind = .name "é" ∧
      u.span.start = t.span.stop ∧ t.behindIn "0x1é" = some ['é'] ∧ isIdentifierChar 'é' = true :=
  ⟨_, _, _, rfl, rfl, rfl, rfl, rfl, by decide⟩

end MysToCpp
