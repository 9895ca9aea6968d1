/-
# The text of a literal

`Token.scanBody` counts the characters of a literal and collects its text backwards.  `Token.Body` says
without the count how a literal is read from the place behind its first quotes, and `scanString_eq_ok`
that a literal is scanned just where it can be read so.
-/
import MysToCpp.Proofs.Token.Scan

namespace MysToCpp.Token

open Cursor (reads_next)

/-- The quotes that a literal may stand between. -/
def IsQuote (x : Char) : Prop := x = '"' ∨ x = '\''

/-- A character of a literal that stands for itself, with `c` behind it. -/
structure Plain (form : StringForm) (quote : Char) (triple : Bool) (x : Char) (c : Cursor) : Prop where
  quote : x = quote → triple = true ∧ atTwoQuotes quote c = false
  newline : x = '\n' → triple = true
  ascii : form.bytes = true → x.toNat < 0x80
  backslash : x ≠ '\\'

/-- Behind its first quotes a literal is read from one place to another, and this is its text. -/
inductive Body (form : StringForm) (quote : Char) (triple : Bool) :
    Cursor → List Char → Cursor → Prop
  | close {c c₁ : Cursor} : c.next? = some (quote, c₁) → triple = false → Body form quote triple c [] c₁
  | closeTriple {c c₁ : Cursor} : c.next? = some (quote, c₁) → triple = true →
      atTwoQuotes quote c₁ = true → Body form quote triple c [] c₁.skip.skip
  | char {c c₁ c₂ : Cursor} {x : Char} {text : List Char} : c.next? = some (x, c₁) →
      Plain form quote triple x c₁ → Body form quote triple c₁ text c₂ →
      Body form quote triple c (x :: text) c₂
  | raw {c c₁ c₂ c₃ : Cursor} {e : Char} {text : List Char} : c.next? = some ('\\', c₁) →
      c₁.next? = some (e, c₂) → form.raw = true → Body form quote triple c₂ text c₃ →
      Body form quote triple c ('\\' :: e :: text) c₃
  | escape {c c₁ c₂ c₃ c₄ : Cursor} {e : Char} {part text : List Char} : c.next? = some ('\\', c₁) →
      c₁.next? = some (e, c₂) → form.raw = false → scanEscape form.bytes e c₂ = (.ok part, c₃) →
      Body form quote triple c₃ text c₄ → Body form quote triple c (part ++ text) c₄

variable {form : StringForm} {quote : Char} {triple : Bool} {c c₁ : Cursor} {text : List Char}

theorem Body.reads (h : Body form quote triple c text c₁) :
    ∃ read, c.Reads read c₁ ∧ read ≠ [] := by
  induction h with
  | close hx => exact ⟨_, reads_next hx, List.cons_ne_nil _ _⟩
  | closeTriple hx _ hquotes =>
      exact ⟨_, (reads_next hx).trans (reads_atTwoQuotes hquotes), List.cons_ne_nil _ _⟩
  | char hx _ _ ih =>
      obtain ⟨read, hread, -⟩ := ih
      exact ⟨_, (reads_next hx).trans hread, List.cons_ne_nil _ _⟩
  | raw hx he _ _ ih =>
      obtain ⟨read, hread, -⟩ := ih
      exact ⟨_, ((reads_next hx).trans (reads_next he)).trans hread, List.cons_ne_nil _ _⟩
  | @escape c c₁ c₂ c₃ c₄ e part text hx he _ hescape _ ih =>
      obtain ⟨read, hread, -⟩ := ih
      obtain ⟨digits, hdigits, -⟩ := reads_scanEscape form.bytes e c₂
      rw [hescape] at hdigits
      exact ⟨_, ((reads_next hx).trans (reads_next he)).trans (hdigits.trans hread),
        List.cons_ne_nil _ _⟩

theorem Body.shorter (h : Body form quote triple c text c₁) : c₁.rest.length < c.rest.length := by
  obtain ⟨read, hread, hne⟩ := h.reads
  have hpos := List.length_pos_iff.mpr hne
  rw [hread.length]
  omega

/-- What `scanBody` answers is the text of a literal. -/
theorem body_of_scanBody (hquote : IsQuote quote) {fuel : Nat} : ∀ {read body : List Char} {c : Cursor},
    scanBody form quote triple fuel read c = (.ok body, c₁) →
      ∃ text, body = read.reverse ++ text ∧ Body form quote triple c text c₁ := by
  induction fuel with
  | zero => exact fun h => nomatch h
  | succ fuel ih =>
      intro read body c h
      unfold scanBody at h
      split at h
      · cases h
      · next x c₂ hx =>
        have hon (part : List Char) {c₃ : Cursor}
            (hread : scanBody form quote triple fuel (part.reverse ++ read) c₃ = (.ok body, c₁)) :
            ∃ text, body = read.reverse ++ (part ++ text) ∧ Body form quote triple c₃ text c₁ := by
          obtain ⟨text, htext, hbody⟩ := ih hread
          refine ⟨text, ?_, hbody⟩
          rw [htext, List.reverse_append, List.reverse_reverse, List.append_assoc]
        have hchar (hplain : Plain form quote triple x c₂)
            (hread : scanBody form quote triple fuel (x :: read) c₂ = (.ok body, c₁)) :
            ∃ text, body = read.reverse ++ text ∧ Body form quote triple c text c₁ := by
          obtain ⟨text, htext, hbody⟩ := hon [x] hread
          exact ⟨_, htext, .char hx hplain hbody⟩
        have hne {y : Char} (hy : y = quote) : y ≠ '\\' ∧ y ≠ '\n' ∧ y.toNat < 0x80 := by
          rcases hquote with rfl | rfl <;> subst hy <;> decide
        split at h
        · next hxq =>
          obtain ⟨hbackslash, hfeed, hascii⟩ := hne hxq
          split at h
          · next htriple =>
            cases h
            exact ⟨[], (List.append_nil _).symm, .close (hxq ▸ hx) (by simpa using htriple)⟩
          · next htriple =>
            have htriple : triple = true := by simpa using htriple
            split at h
            · next hquotes =>
              cases h
              exact ⟨[], (List.append_nil _).symm, .closeTriple (hxq ▸ hx) htriple hquotes⟩
            · next hquotes =>
              exact hchar ⟨fun _ => ⟨htriple, by simpa using hquotes⟩, fun h => absurd h hfeed,
                fun _ => hascii, hbackslash⟩ h
        · next hxq =>
          split at h
          · cases h
          · next hfeed =>
            split at h
            · cases h
            · next hascii =>
              split at h
              · next hbackslash =>
                refine hchar ⟨fun h => absurd h hxq, fun h => ?_, fun h => ?_, hbackslash⟩ h
                · simpa [h] using hfeed
                · simpa [h] using hascii
              · next hbackslash =>
                have hbackslash : x = '\\' := by simpa using hbackslash
                subst hbackslash
                split at h
                · cases h
                · next e c₃ he =>
                  split at h
                  · next hraw =>
                    obtain ⟨text, htext, hbody⟩ := hon ['\\', e] h
                    exact ⟨_, htext, .raw hx he hraw hbody⟩
                  · next hraw =>
                    split at h
                    · next part c₄ hescape =>
                      obtain ⟨text, htext, hbody⟩ := hon _ h
                      exact ⟨_, htext, .escape hx he (by simpa using hraw) hescape hbody⟩
                    · cases h

/-! ## One step of a body -/

section Step

variable {fuel : Nat} {read : List Char} {c₂ c₃ : Cursor} {x e : Char} {part : List Char}

theorem IsQuote.ne_backslash (h : IsQuote quote) : '\\' ≠ quote := by
  rcases h with rfl | rfl <;> decide

theorem scanBody_char (hx : c.next? = some (x, c₁)) (hplain : Plain form quote triple x c₁) :
    scanBody form quote triple (fuel + 1) read c = scanBody form quote triple fuel (x :: read) c₁ := by
  rw [scanBody, hx]
  dsimp only
  split
  · next hxq => simp [hplain.quote hxq]
  · rw [if_neg (by simpa using hplain.newline), if_neg (by simpa using hplain.ascii),
      if_pos hplain.backslash]

theorem scanBody_raw (hquote : IsQuote quote) (hx : c.next? = some ('\\', c₁))
    (he : c₁.next? = some (e, c₂)) (hraw : form.raw = true) :
    scanBody form quote triple (fuel + 1) read c =
      scanBody form quote triple fuel (e :: '\\' :: read) c₂ := by
  simp [scanBody, hx, he, hraw, hquote.ne_backslash]

theorem scanBody_escape (hquote : IsQuote quote) (hx : c.next? = some ('\\', c₁))
    (he : c₁.next? = some (e, c₂)) (hraw : form.raw = false)
    (hescape : scanEscape form.bytes e c₂ = (.ok part, c₃)) :
    scanBody form quote triple (fuel + 1) read c =
      scanBody form quote triple fuel (part.reverse ++ read) c₃ := by
  simp [scanBody, hx, he, hraw, hquote.ne_backslash, hescape]

theorem length_of_escape (hx : c.next? = some ('\\', c₁)) (he : c₁.next? = some (e, c₂))
    (hescape : scanEscape form.bytes e c₂ = (.ok part, c₃)) : c₃.rest.length < c.rest.length := by
  obtain ⟨digits, hdigits, -⟩ := reads_scanEscape form.bytes e c₂
  rw [hescape] at hdigits
  have hlen := (((reads_next hx).trans (reads_next he)).trans hdigits).length
  simp only [List.length_append, List.length_singleton] at hlen
  omega

end Step

/-- And every text of a literal is what `scanBody` answers. -/
theorem Body.scanBody (hquote : IsQuote quote) (h : Body form quote triple c text c₁) :
    ∀ (fuel : Nat) (read : List Char), c.rest.length < fuel →
      Token.scanBody form quote triple fuel read c = (.ok (read.reverse ++ text), c₁) := by
  induction h with
  | close hx htriple =>
      intro fuel read hfuel
      obtain ⟨fuel, rfl⟩ : ∃ k, fuel = k + 1 := ⟨fuel - 1, by omega⟩
      simp [Token.scanBody, hx, htriple]
  | closeTriple hx htriple hquotes =>
      intro fuel read hfuel
      obtain ⟨fuel, rfl⟩ : ∃ k, fuel = k + 1 := ⟨fuel - 1, by omega⟩
      simp [Token.scanBody, hx, htriple, hquotes]
  | @char c c₁ c₂ x text hx hplain hbody ih =>
      intro fuel read hfuel
      obtain ⟨fuel, rfl⟩ : ∃ k, fuel = k + 1 := ⟨fuel - 1, by omega⟩
      have hlen := (reads_next hx).length
      rw [scanBody_char hx hplain, ih fuel (x :: read) (by simp at hlen; omega)]
      simp
  | @raw c c₁ c₂ c₃ e text hx he hraw hbody ih =>
      intro fuel read hfuel
      obtain ⟨fuel, rfl⟩ : ∃ k, fuel = k + 1 := ⟨fuel - 1, by omega⟩
      have hlen := ((reads_next hx).trans (reads_next he)).length
      rw [scanBody_raw hquote hx he hraw, ih fuel (e :: '\\' :: read) (by simp at hlen; omega)]
      simp
  | @escape c c₁ c₂ c₃ c₄ e part text hx he hraw hescape hbody ih =>
      intro fuel read hfuel
      obtain ⟨fuel, rfl⟩ : ∃ k, fuel = k + 1 := ⟨fuel - 1, by omega⟩
      have hless := length_of_escape hx he hescape
      rw [scanBody_escape hquote hx he hraw hescape, ih fuel (part.reverse ++ read) (by omega)]
      simp

/-- The place behind the first quotes of a literal, of which one is read already. -/
def opened (quote : Char) (c : Cursor) : Cursor := if atTwoQuotes quote c then c.skip.skip else c

theorem reads_opened (quote : Char) (c : Cursor) :
    ∃ text, c.Reads text (opened quote c) ∧ ∀ x ∈ text, x = quote := by
  unfold opened
  split
  · next hquotes => exact ⟨_, reads_atTwoQuotes hquotes, by simp⟩
  · exact ⟨[], .refl c, nofun⟩

theorem scanString_eq_ok (hquote : IsQuote quote) {kind : TokenKind} :
    scanString form quote c = (.ok kind, c₁) ↔
      ∃ text, kind = form.token text ∧
        Body form quote (atTwoQuotes quote c) (opened quote c) text c₁ := by
  have hstring : scanString form quote c =
      ((scanBody form quote (atTwoQuotes quote c) ((opened quote c).rest.length + 1) []
        (opened quote c)).1.map form.token,
      (scanBody form quote (atTwoQuotes quote c) ((opened quote c).rest.length + 1) []
        (opened quote c)).2) := rfl
  rw [hstring]
  constructor
  · intro h
    obtain ⟨htoken, hend⟩ := Prod.mk.inj h
    generalize hscan : scanBody form quote _ _ [] _ = scanned at htoken hend
    obtain ⟨body | text, c₂⟩ := scanned
    · cases htoken
    · cases hend
      obtain ⟨text, rfl, hbody⟩ := body_of_scanBody hquote hscan
      exact ⟨text, (Except.ok.inj htoken).symm, hbody⟩
  · rintro ⟨text, rfl, hbody⟩
    rw [hbody.scanBody hquote _ [] (Nat.lt_succ_self _)]
    rfl

end MysToCpp.Token
