/-
# The same strings are scanned

A string may go over lines, so that its value in a text whose lines end with returns has the returns too
(`Returned`).  Otherwise it is the same, unless a backslash stands before the end of a line: the line feed
that a backslash escapes stands for nothing, but a return that it escapes stands for itself and leaves the
line feed behind it.  Only where every character is kept as it is and line ends are allowed, in a raw
literal between three quotes, does this make no difference.
-/
import MysToCpp.Proofs.Token.Literal
import MysToCpp.Proofs.Token.SameScan

namespace MysToCpp

/-- The second list is the first with `ret` put in front of some of its `feed`s. -/
inductive Returned {α : Type} (feed ret : α) : List α → List α → Prop
  | nil : Returned feed ret [] []
  | same {a b : List α} (x : α) : Returned feed ret a b → Returned feed ret (x :: a) (x :: b)
  | lineEnd {a b : List α} : Returned feed ret a b → Returned feed ret (feed :: a) (ret :: feed :: b)

namespace Returned

variable {α β : Type} {feed ret : α} {a b a₁ b₁ : List α}

theorem refl (a : List α) : Returned feed ret a a := by
  induction a with
  | nil => exact .nil
  | cons x a ih => exact .same x ih

theorem append (h : Returned feed ret a b) (h₁ : Returned feed ret a₁ b₁) :
    Returned feed ret (a ++ a₁) (b ++ b₁) := by
  induction h with
  | nil => exact h₁
  | same x _ ih => exact .same x ih
  | lineEnd _ ih => exact .lineEnd ih

theorem map (f : α → β) (h : Returned feed ret a b) :
    Returned (f feed) (f ret) (a.map f) (b.map f) := by
  induction h with
  | nil => exact .nil
  | same x _ ih => exact .same (f x) ih
  | lineEnd _ ih => exact .lineEnd ih

end Returned

/-- The tokens are the same, but for returns in the value of a string. -/
inductive SameButReturns : TokenKind → TokenKind → Prop
  | same (kind : TokenKind) : SameButReturns kind kind
  | text {s s' : String} : Returned '\n' '\r' s.toList s'.toList → SameButReturns (.text s) (.text s')
  | bytes {bs bs' : List UInt8} : Returned 10 13 bs bs' → SameButReturns (.bytes bs) (.bytes bs')
  | formatted {s s' : String} : Returned '\n' '\r' s.toList s'.toList →
      SameButReturns (.formatted s) (.formatted s')

/-- Whether a backslash, not escaped itself, stands in front of a line feed. -/
def escapesLineEnd : List Char → Bool
  | '\\' :: '\n' :: _ => true
  | '\\' :: _ :: cs => escapesLineEnd cs
  | _ :: cs => escapesLineEnd cs
  | [] => false

/-- Whether a token starts as a raw literal between three quotes does. -/
def opensRawBlock [Text.IdentifierTable] (cs : List Char) : Bool :=
  (Token.StringForm.ofMarkers? (cs.takeWhile Text.isIdentifierChar)).any (·.raw) &&
    match cs.dropWhile Text.isIdentifierChar with
    | q :: q' :: q'' :: _ => q = q' && q' = q''
    | _ => false

theorem escapesLineEnd_cons {x : Char} {cs : List Char} (hx : x ≠ '\\') :
    escapesLineEnd (x :: cs) = escapesLineEnd cs := by
  rw [escapesLineEnd]
  · exact fun _ h _ => hx h
  · exact fun _ _ h _ => hx h

theorem escapesLineEnd_append {a cs : List Char} (ha : '\\' ∉ a) :
    escapesLineEnd (a ++ cs) = escapesLineEnd cs := by
  induction a with
  | nil => rfl
  | cons x a ih =>
      rw [List.mem_cons, not_or] at ha
      rw [List.cons_append, escapesLineEnd_cons (Ne.symm ha.1), ih ha.2]

/-- No line end was escaped between two places of a string. -/
def Unescaped (cs rest : List Char) : Prop := ∀ text, cs = text ++ rest → escapesLineEnd text = false

namespace Unescaped

variable {cs rest : List Char}

theorem behind {read : List Char} (h : Unescaped (read ++ cs) rest) (hread : '\\' ∉ read) :
    Unescaped cs rest := by
  intro text htext
  rw [← escapesLineEnd_append hread]
  exact h _ (by rw [htext, List.append_assoc])

theorem escape {e : Char} (h : Unescaped ('\\' :: e :: cs) rest) {text : List Char}
    (htext : cs = text ++ rest) : e ≠ '\n' ∧ Unescaped cs rest := by
  have hne : e ≠ '\n' := by
    rintro rfl
    exact absurd (h ('\\' :: '\n' :: text) (by rw [htext]; rfl)) nofun
  refine ⟨hne, fun text' htext' => ?_⟩
  have hescape := h ('\\' :: e :: text') (by rw [htext']; rfl)
  rw [escapesLineEnd] at hescape
  · exact hescape
  · rintro rfl
    exact absurd rfl hne

theorem escaped {c c₁ c₂ c₃ : Cursor} {e : Char} {text : List Char} (h : Unescaped c.rest c₃.rest)
    (hx : c.next? = some ('\\', c₁)) (he : c₁.next? = some (e, c₂)) (htext : c₂.Reads text c₃) :
    e ≠ '\n' ∧ Unescaped c₂.rest c₃.rest := by
  rw [(Cursor.reads_next hx).1, (Cursor.reads_next he).1] at h
  exact h.escape htext.1

end Unescaped

namespace Variation

open Cursor (reads_next)
open Text (isHexDigit isIdentifierChar)
open Token

variable {v : Variation} {c c' c₁ : Cursor}

/-- Texts of two strings are the same, but for returns if there are some. -/
def TellsText (v : Variation) (a b : List Char) : Prop :=
  Returned '\n' '\r' a b ∧ (v.returns = false → b = a)

/-- Two tokens are the same, but for returns if there are some. -/
def Tells (v : Variation) (kind kind' : TokenKind) : Prop :=
  SameButReturns kind kind' ∧ (v.returns = false → kind' = kind)

theorem Tells.refl (v : Variation) (kind : TokenKind) : v.Tells kind kind := ⟨.same kind, fun _ => rfl⟩

theorem TellsText.append {a b a₁ b₁ : List Char} (h : v.TellsText a b) (h₁ : v.TellsText a₁ b₁) :
    v.TellsText (a ++ a₁) (b ++ b₁) :=
  ⟨h.1.append h₁.1, fun hr => by rw [h.2 hr, h₁.2 hr]⟩

theorem TellsText.refl (v : Variation) (a : List Char) : v.TellsText a a := ⟨.refl a, fun _ => rfl⟩

theorem tellsText_lineEnd (hreturns : v.returns = true) : v.TellsText ['\n'] ['\r', '\n'] :=
  ⟨.lineEnd .nil, fun h => absurd (hreturns.symm.trans h) nofun⟩

theorem TellsText.token {a b : List Char} (h : v.TellsText a b) (form : StringForm) :
    v.Tells (form.token a) (form.token b) := by
  refine ⟨?_, fun hr => by rw [h.2 hr]⟩
  unfold StringForm.token
  split
  · exact .bytes (h.1.map fun x => UInt8.ofNat x.toNat)
  · split
    · exact .formatted (by simpa using h.1)
    · exact .text (by simpa using h.1)

/-! ## Escapes -/

theorem same_scanOctal (h : v.Matches c.rest c'.rest) (bytes : Bool) (first : Char) :
    v.Same (scanOctal bytes first c) (scanOctal bytes first c') := by
  have hdigits := h.same_takeAtMost (p := isOctalDigit) (by decide) (by decide) 2
  unfold scanOctal
  dsimp only
  rw [hdigits.1]
  split
  · exact hdigits.2.here _
  · split <;> exact hdigits.2.here _

theorem same_scanHex (h : v.Matches c.rest c'.rest) (marker : Char) (count : Nat) :
    v.Same (scanHex marker count c) (scanHex marker count c') := by
  have hdigits := h.same_takeAtMost (p := isHexDigit) (by decide) (by decide) count
  unfold scanHex
  dsimp only
  rw [hdigits.1]
  split
  · exact hdigits.2.here _
  · split <;> exact hdigits.2.here _

theorem same_scanEscape (h : v.Matches c.rest c'.rest) (bytes : Bool) (e : Char) :
    v.Same (scanEscape bytes e c) (scanEscape bytes e c') := by
  unfold scanEscape
  split
  · exact h.here _
  · split
    · exact h.here _
    · split
      · exact same_scanOctal h bytes e
      · split
        · exact same_scanHex h 'x' 2
        · split
          · exact same_scanHex h 'u' 4
          · split
            · exact same_scanHex h 'U' 8
            · split <;> exact h.here _

/-! ## Literals -/

section

variable {form : StringForm} {quote : Char} {triple : Bool} {text : List Char}

theorem Matches.atTwoQuotes (h : v.Matches c.rest c'.rest) (hquote : IsQuote quote) :
    Token.atTwoQuotes quote c' = Token.atTwoQuotes quote c := by
  have hne : quote ≠ '\n' ∧ quote ≠ '\r' := by rcases hquote with rfl | rfl <;> decide
  have hquotes := h.peek_two_iff hne.1 hne.2 hne.1 hne.2
  unfold Token.atTwoQuotes
  rw [← Bool.decide_and, ← Bool.decide_and]
  exact decide_eq_decide.mpr hquotes

theorem Matches.skip_quotes (h : v.Matches c.rest c'.rest) (hquote : IsQuote quote)
    (hquotes : Token.atTwoQuotes quote c = true) : v.Matches c.skip.skip.rest c'.skip.skip.rest := by
  have hne : quote ≠ '\n' := by rcases hquote with rfl | rfl <;> decide
  obtain ⟨hfirst, hsecond⟩ := Bool.and_eq_true_iff.mp hquotes
  have hfirst : c.peek? = some quote := of_decide_eq_true hfirst
  have hsecond : c.peekSecond? = some quote := of_decide_eq_true hsecond
  rw [peekSecond?_eq hfirst] at hsecond
  exact (h.skip hfirst hne).skip hsecond hne

/-- The end of a line in both texts, in front of the place where they part. -/
theorem Matches.next_newline (h : v.Matches c.rest c'.rest) (hx : c.next? = some ('\n', c₁))
    (hbefore : v.Before c₁.rest) : ∃ c₁', v.Matches c₁.rest c₁'.rest ∧
      (c'.next? = some ('\n', c₁') ∨
        v.returns = true ∧ ∃ c₂, c'.next? = some ('\r', c₂) ∧ c₂.next? = some ('\n', c₁')) := by
  rw [(reads_next hx).1] at h
  obtain ⟨b, hfollows, hrest | ⟨hreturns, hrest⟩⟩ := h.newline
  · exact ⟨⟨b, _⟩, hfollows.matches hbefore, .inl (by rw [Cursor.next?, hrest])⟩
  · have hreturn : c'.next? = some ('\r', ⟨'\n' :: b, c'.position.after '\r'⟩) := by
      rw [Cursor.next?, hrest]
    exact ⟨⟨b, _⟩, hfollows.matches hbefore, .inr ⟨hreturns, _, hreturn, rfl⟩⟩

theorem plain_newline (hquote : IsQuote quote) (htriple : triple = true) (c : Cursor) :
    Plain form quote triple '\n' c :=
  ⟨fun h => by rcases hquote with rfl | rfl <;> exact absurd h (by decide), fun _ => htriple,
    fun _ => by decide, by decide⟩

theorem plain_return (hquote : IsQuote quote) (c : Cursor) : Plain form quote triple '\r' c :=
  ⟨fun h => by rcases hquote with rfl | rfl <;> exact absurd h (by decide),
    fun h => absurd h (by decide), fun _ => by decide, by decide⟩

/-- Another literal can be read from `c'` as well: past what tells `part` to a place that matches `c`. -/
def ReadsOn (v : Variation) (form : StringForm) (quote : Char) (triple : Bool) (c' : Cursor)
    (part : List Char) (c : Cursor) : Prop :=
  ∃ c₁' part', v.Matches c.rest c₁'.rest ∧ v.TellsText part part' ∧
    ∀ {text' : List Char} {c₂' : Cursor}, Body form quote triple c₁' text' c₂' →
      Body form quote triple c' (part' ++ text') c₂'

theorem Matches.readsOn_char {x : Char} (hquote : IsQuote quote) (h : v.Matches c.rest c'.rest)
    (hx : c.next? = some (x, c₁)) (hplain : Plain form quote triple x c₁) (hbefore : v.Before c₁.rest) :
    v.ReadsOn form quote triple c' [x] c₁ := by
  by_cases hfeed : x = '\n'
  · subst hfeed
    have htriple := hplain.newline rfl
    obtain ⟨c₁', hmatches, hx' | ⟨hreturns, c₂, hreturn, hx'⟩⟩ := h.next_newline hx hbefore
    · exact ⟨c₁', ['\n'], hmatches, .refl v _, fun hbody =>
        .char hx' (plain_newline hquote htriple c₁') hbody⟩
    · exact ⟨c₁', ['\r', '\n'], hmatches, tellsText_lineEnd hreturns, fun hbody =>
        .char hreturn (plain_return hquote c₂) (.char hx' (plain_newline hquote htriple c₁') hbody)⟩
  · obtain ⟨c₁', hx', hmatches⟩ := h.next hx hfeed
    have hplain' : Plain form quote triple x c₁' :=
      { hplain with quote := fun h => by rw [hmatches.atTwoQuotes hquote]; exact hplain.quote h }
    exact ⟨c₁', [x], hmatches, .refl v _, fun hbody => .char hx' hplain' hbody⟩

theorem Matches.readsOn_raw {e : Char} {c₂ : Cursor} (hquote : IsQuote quote)
    (h : v.Matches c.rest c'.rest) (hx : c.next? = some ('\\', c₁)) (he : c₁.next? = some (e, c₂))
    (hraw : form.raw = true) (hbefore : v.Before c₂.rest)
    (hescape : v.returns = true → triple = false → e ≠ '\n') :
    v.ReadsOn form quote triple c' ['\\', e] c₂ := by
  obtain ⟨c₁', hx', hmatches₁⟩ := h.next hx (by decide)
  by_cases hfeed : e = '\n'
  · subst hfeed
    obtain ⟨c₂', hmatches₂, he' | ⟨hreturns, c₃, hreturn, he'⟩⟩ := hmatches₁.next_newline he hbefore
    · exact ⟨c₂', ['\\', '\n'], hmatches₂, .refl v _, fun hbody => .raw hx' he' hraw hbody⟩
    · -- the return is kept behind the backslash, and the line feed as it is
      have htriple : triple = true := by
        cases htriple : triple with
        | true => rfl
        | false => exact absurd rfl (hescape hreturns htriple)
      exact ⟨c₂', ['\\', '\r', '\n'], hmatches₂,
        (TellsText.refl v ['\\']).append (tellsText_lineEnd hreturns), fun hbody =>
        .raw hx' hreturn hraw (.char he' (plain_newline hquote htriple c₂') hbody)⟩
  · obtain ⟨c₂', he', hmatches₂⟩ := hmatches₁.next he hfeed
    exact ⟨c₂', ['\\', e], hmatches₂, .refl v _, fun hbody => .raw hx' he' hraw hbody⟩

theorem Matches.readsOn_escape {e : Char} {part : List Char} {c₂ c₃ : Cursor}
    (h : v.Matches c.rest c'.rest) (hx : c.next? = some ('\\', c₁)) (he : c₁.next? = some (e, c₂))
    (hraw : form.raw = false) (hpart : scanEscape form.bytes e c₂ = (.ok part, c₃))
    (hbefore : v.Before c₂.rest) (hescape : v.returns = true → e ≠ '\n') :
    v.ReadsOn form quote triple c' part c₃ := by
  obtain ⟨c₁', hx', hmatches₁⟩ := h.next hx (by decide)
  obtain ⟨c₂', he', hmatches₂⟩ : ∃ c₂', c₁'.next? = some (e, c₂') ∧ v.Matches c₂.rest c₂'.rest := by
    by_cases hfeed : e = '\n'
    · subst hfeed
      obtain ⟨c₂', hmatches₂, he' | ⟨hreturns, -⟩⟩ := hmatches₁.next_newline he hbefore
      · exact ⟨c₂', he', hmatches₂⟩
      · exact absurd rfl (hescape hreturns)
    · exact hmatches₁.next he hfeed
  have hsame := same_scanEscape hmatches₂ form.bytes e
  rw [hpart] at hsame
  have hpart' : scanEscape form.bytes e c₂' = (.ok part, (scanEscape form.bytes e c₂').2) :=
    Prod.ext hsame.1 rfl
  exact ⟨_, part, hsame.2, .refl v part, fun hbody => .escape hx' he' hraw hpart' hbody⟩

theorem Matches.body (hquote : IsQuote quote) (h : Body form quote triple c text c₁) :
    ∀ {c' : Cursor}, v.Matches c.rest c'.rest → v.Within c₁.rest →
      (v.returns = true → (form.raw && triple) = false → Unescaped c.rest c₁.rest) →
      ∃ text' c₁', Body form quote triple c' text' c₁' ∧ v.TellsText text text' ∧
        v.Matches c₁.rest c₁'.rest := by
  have hne : quote ≠ '\n' := by rcases hquote with rfl | rfl <;> decide
  induction h with
  | close hx htriple =>
      intro c' hmatches _ _
      obtain ⟨c₁', hx', hmatches₁⟩ := hmatches.next hx hne
      exact ⟨[], c₁', .close hx' htriple, .refl v [], hmatches₁⟩
  | closeTriple hx htriple hquotes =>
      intro c' hmatches _ _
      obtain ⟨c₁', hx', hmatches₁⟩ := hmatches.next hx hne
      rw [← hmatches₁.atTwoQuotes hquote] at hquotes
      refine ⟨[], c₁'.skip.skip, .closeTriple hx' htriple hquotes, .refl v [], ?_⟩
      rw [hmatches₁.atTwoQuotes hquote] at hquotes
      exact hmatches₁.skip_quotes hquote hquotes
  | @char c c₁ c₂ x text hx hplain hbody ih =>
      intro c' hmatches hwithin hclean
      obtain ⟨c₁', part', hmatches₁, hpart, hon⟩ :=
        hmatches.readsOn_char hquote hx hplain (hwithin.before hbody.shorter)
      obtain ⟨text', c₂', hbody', htext, hmatches₂⟩ := ih hmatches₁ hwithin fun hreturns hform => by
        have hunescaped := hclean hreturns hform
        rw [(reads_next hx).1] at hunescaped
        exact hunescaped.behind (by simpa using hplain.backslash.symm)
      exact ⟨_, c₂', hon hbody', hpart.append htext, hmatches₂⟩
  | @raw c c₁ c₂ c₃ e text hx he hraw hbody ih =>
      intro c' hmatches hwithin hclean
      obtain ⟨read, hread, -⟩ := hbody.reads
      have hescape (hreturns : v.returns = true) (hform : (form.raw && triple) = false) :=
        (hclean hreturns hform).escaped hx he hread
      obtain ⟨c₂', part', hmatches₂, hpart, hon⟩ := hmatches.readsOn_raw hquote hx he hraw
        (hwithin.before hbody.shorter) fun hreturns (htriple : triple = false) =>
          (hescape hreturns (by rw [htriple, Bool.and_false])).1
      obtain ⟨text', c₃', hbody', htext, hmatches₃⟩ := ih hmatches₂ hwithin fun hreturns hform =>
        (hescape hreturns hform).2
      exact ⟨_, c₃', hon hbody', hpart.append htext, hmatches₃⟩
  | @escape c c₁ c₂ c₃ c₄ e part text hx he hraw hpart hbody ih =>
      intro c' hmatches hwithin hclean
      have hform : (form.raw && triple) = false := by rw [hraw, Bool.false_and]
      obtain ⟨read, hread, -⟩ := hbody.reads
      obtain ⟨digits, hdigits, hplain⟩ := reads_scanEscape form.bytes e c₂
      rw [hpart] at hdigits
      have hescape (hreturns : v.returns = true) :=
        (hclean hreturns hform).escaped hx he (hdigits.trans hread)
      have hless : c₄.rest.length < c₂.rest.length :=
        Nat.lt_of_lt_of_le hbody.shorter (by rw [hdigits.length]; exact Nat.le_add_left _ _)
      obtain ⟨c₃', part', hmatches₃, hpart', hon⟩ := hmatches.readsOn_escape hx he hraw hpart
        (hwithin.before hless) fun hreturns => (hescape hreturns).1
      obtain ⟨text', c₄', hbody', htext, hmatches₄⟩ := ih hmatches₃ hwithin fun hreturns _ => by
        have hunescaped := (hescape hreturns).2
        rw [hdigits.1] at hunescaped
        exact hunescaped.behind fun hmem => absurd (hplain _ hmem) (by decide)
      exact ⟨_, c₄', hon hbody', hpart'.append htext, hmatches₄⟩

theorem Matches.opened (h : v.Matches c.rest c'.rest) (hquote : IsQuote quote) :
    v.Matches (opened quote c).rest (opened quote c').rest := by
  unfold Token.opened
  rw [h.atTwoQuotes hquote]
  split
  · next hquotes => exact h.skip_quotes hquote hquotes
  · exact h

theorem Matches.scanString (hquote : IsQuote quote) (h : v.Matches c.rest c'.rest) {kind : TokenKind}
    (hscan : Token.scanString form quote c = (.ok kind, c₁)) (hwithin : v.Within c₁.rest)
    (hclean : v.returns = true → (form.raw && Token.atTwoQuotes quote c) = false →
      Unescaped c.rest c₁.rest) :
    ∃ kind' c₁', Token.scanString form quote c' = (.ok kind', c₁') ∧ v.Tells kind kind' ∧
      v.Matches c₁.rest c₁'.rest := by
  obtain ⟨text, rfl, hbody⟩ := (scanString_eq_ok hquote).mp hscan
  obtain ⟨text', c₁', hbody', htext, hmatches⟩ := Matches.body hquote hbody (h.opened hquote) hwithin
    fun hreturns hform => by
      obtain ⟨read, hread, hplain⟩ := reads_opened quote c
      have hunescaped := hclean hreturns hform
      rw [hread.1] at hunescaped
      exact hunescaped.behind fun hmem => hquote.ne_backslash (hplain _ hmem)
  rw [← h.atTwoQuotes hquote] at hbody'
  exact ⟨_, c₁', (scanString_eq_ok hquote).mpr ⟨text', rfl, hbody'⟩, htext.token form, hmatches⟩

end

variable [Text.IdentifierTable]

/-! ## Words -/

/-- Where returns are put in, no token escapes a line end unless it is a raw literal between three
quotes. -/
def Clean (v : Variation) (text : List Char) : Prop :=
  v.returns = true → escapesLineEnd text = true → opensRawBlock text = true

section

variable {markers text : List Char} {quote : Char} {form : StringForm}

theorem not_mem_markers (hmarkers : ∀ x ∈ markers, isIdentifierChar x = true) {x : Char}
    (hx : isIdentifierChar x = false) : x ∉ markers := fun hmem => by
  rw [hmarkers x hmem] at hx
  cases hx

theorem opensRawBlock_markers (hmarkers : ∀ x ∈ markers, isIdentifierChar x = true)
    (hquote : IsQuote quote) (hform : StringForm.ofMarkers? markers = some form)
    (h : opensRawBlock (markers ++ quote :: text) = true) :
    form.raw = true ∧ ∃ more, text = quote :: quote :: more := by
  have hstop : isIdentifierChar quote = false := by rcases hquote with rfl | rfl <;> rfl
  have htake : (markers ++ quote :: text).takeWhile isIdentifierChar = markers := by
    rw [List.takeWhile_append_of_pos hmarkers, List.takeWhile_cons_of_neg (by simp [hstop]),
      List.append_nil]
  have hdrop : (markers ++ quote :: text).dropWhile isIdentifierChar = quote :: text := by
    rw [List.dropWhile_append_of_pos hmarkers, List.dropWhile_cons_of_neg (by simp [hstop])]
  unfold opensRawBlock at h
  rw [htake, hdrop, hform] at h
  obtain ⟨hraw, hquotes⟩ := Bool.and_eq_true_iff.mp h
  refine ⟨hraw, ?_⟩
  split at hquotes
  · next hsplit =>
    cases hsplit
    obtain ⟨hfirst, hsecond⟩ := Bool.and_eq_true_iff.mp hquotes
    have hfirst := of_decide_eq_true hfirst
    have hsecond := of_decide_eq_true hsecond
    subst hfirst hsecond
    exact ⟨_, rfl⟩
  · cases hquotes

/-- In a literal that is no such block no line end is escaped. -/
theorem unescaped_of_clean (markers : List Char) (hmarkers : ∀ x ∈ markers, isIdentifierChar x = true)
    (hquote : IsQuote quote) (hform : StringForm.ofMarkers? markers = some form)
    (hclean : ∀ text, c.rest = text ++ c₁.rest → v.Clean (markers ++ quote :: text))
    (hreturns : v.returns = true) (hblock : (form.raw && atTwoQuotes quote c) = false) :
    Unescaped c.rest c₁.rest := by
  intro text htext
  cases hescape : escapesLineEnd text with
  | false => rfl
  | true =>
      have hquoteNe : quote ≠ '\\' := by rcases hquote with rfl | rfl <;> decide
      rw [← escapesLineEnd_cons hquoteNe,
        ← escapesLineEnd_append (not_mem_markers hmarkers (x := '\\') rfl)] at hescape
      obtain ⟨hraw, more, rfl⟩ :=
        opensRawBlock_markers hmarkers hquote hform (hclean text htext hreturns hescape)
      have hquotes : atTwoQuotes quote c = true := by
        simp [atTwoQuotes, Cursor.peek?, Cursor.peekSecond?, htext]
      rw [hraw, hquotes] at hblock
      cases hblock

end

theorem Matches.scanWord (h : v.Matches c.rest c'.rest) {first : Char}
    (hfirst : isIdentifierChar first = true) {kind : TokenKind}
    (hscan : Lexer.scanWord first c = (.ok kind, c₁)) (hwithin : v.Within c₁.rest)
    (hclean : ∀ text, c.rest = text ++ c₁.rest → v.Clean (first :: text)) :
    ∃ kind' c₁', Lexer.scanWord first c' = (.ok kind', c₁') ∧ v.Tells kind kind' ∧
      v.Matches c₁.rest c₁'.rest := by
  obtain ⟨hmore, hmatches⟩ := h.same_takeWhile (p := isIdentifierChar) rfl rfl
  have hreads := Cursor.reads_takeWhile isIdentifierChar c
  have hmarkers : ∀ x ∈ first :: (c.takeWhile isIdentifierChar).1, isIdentifierChar x = true := by
    intro x hx
    rcases List.mem_cons.mp hx with rfl | hx
    · exact hfirst
    · exact List.all_eq_true.mp List.all_takeWhile x hx
  unfold Lexer.scanWord at hscan ⊢
  dsimp only at hscan ⊢
  rw [hmore]
  generalize (c.takeWhile isIdentifierChar).1 = more at *
  generalize (c.takeWhile isIdentifierChar).2 = c₂ at *
  generalize (c'.takeWhile isIdentifierChar).2 = c₂' at *
  have hplain {kind₁ : TokenKind} (hword : ((.ok kind₁, c₂) : Scanned) = (.ok kind, c₁)) :
      ∃ kind' c₁', ((.ok kind₁, c₂') : Scanned) = (.ok kind', c₁') ∧ v.Tells kind kind' ∧
        v.Matches c₁.rest c₁'.rest := by
    cases hword
    exact ⟨kind, c₂', rfl, .refl v kind, hmatches⟩
  rcases hmatches.peek with ⟨x, hx, hx', hskip⟩ | ⟨hx, hx'⟩ | ⟨hx, hx' | hx'⟩ <;>
    simp only [hx, hx'] at hscan ⊢
  · split at hscan
    · next hquote =>
      have hquote : IsQuote x := by simpa [IsQuote] using hquote
      split at hscan
      · next form hform =>
        rw [if_pos (by assumption)]
        refine hskip.scanString hquote hscan hwithin fun hreturns hblock => ?_
        refine unescaped_of_clean _ hmarkers hquote hform (fun text htext => ?_) hreturns hblock
        refine hclean (more ++ x :: text) ?_
        rw [hreads.1, (Cursor.reads_skip hx).1, htext]
        simp
      · next hform =>
        rw [if_pos (by assumption)]
        exact hplain hscan
    · next hquote =>
      rw [if_neg hquote]
      exact hplain hscan
  · exact hplain hscan
  · exact hplain hscan
  · exact hplain hscan

end Variation

end MysToCpp
