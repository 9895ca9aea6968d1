/-
# Underscores in floating-point numbers

A floating-point number is refused if one of its underscores is the last character or stands beside
another underscore or a point.  Nothing is said there about the exponent, so an underscore stands between
two digits, in front of the exponent's mark, or behind its mark or sign (`tokenize_float_underscores`).
-/
import Mathlib.Data.List.Chain
import Mathlib.Data.List.TakeDrop
import MysToCpp.Proofs.Token.Numerals
import MysToCpp.Proofs.Token.Written
import MysToCpp.Text.Unicode

namespace MysToCpp

open Text (isDigit isIdentifierChar)

/-! ## The characters of decimals -/

namespace Decimal

/-- The characters that decimals are written with. -/
def IsPart (x : Char) : Prop := isDigit x = true ∨ x ∈ ['.', 'e', 'E', '+', '-']

theorem parts_of_splitSign {cs : List Char} (h : ∀ x ∈ (splitSign cs).2, IsPart x) :
    ∀ x ∈ cs, IsPart x := by
  unfold splitSign at h
  split at h
  · exact List.forall_mem_cons.mpr ⟨.inr (by decide), h⟩
  · exact List.forall_mem_cons.mpr ⟨.inr (by decide), h⟩
  · exact h

theorem parts_of_span {cs : List Char} (h : ∀ x ∈ (cs.span isDigit).2, IsPart x) :
    ∀ x ∈ cs, IsPart x := by
  intro x hx
  rw [List.span_eq_takeWhile_dropWhile] at h
  rw [← List.takeWhile_append_dropWhile (p := isDigit) (l := cs), List.mem_append] at hx
  rcases hx with hx | hx
  · exact .inl (List.all_eq_true.mp List.all_takeWhile x hx)
  · exact h x hx

theorem parts_of_splitFraction {cs : List Char} (h : ∀ x ∈ (splitFraction cs).2, IsPart x) :
    ∀ x ∈ cs, IsPart x := by
  unfold splitFraction at h
  split at h
  · exact List.forall_mem_cons.mpr ⟨.inr (by decide), parts_of_span h⟩
  · exact h

theorem parts_of_readExponent {cs : List Char} {e : Int} (h : readExponent? cs = some e) :
    ∀ x ∈ cs, IsPart x := by
  unfold readExponent? at h
  split at h
  · exact nofun
  · split at h
    · next mark cs hmark =>
      dsimp only at h
      split at h
      · cases h
      · next hdigits =>
        have hmark : IsPart mark := by
          rcases (Bool.or_eq_true _ _).mp hmark with hm | hm <;> simp [IsPart, of_decide_eq_true hm]
        refine List.forall_mem_cons.mpr ⟨hmark, parts_of_splitSign fun x hx => .inl ?_⟩
        simp only [Bool.or_eq_true, Bool.not_eq_true', not_or, Bool.not_eq_false] at hdigits
        exact List.all_eq_true.mp hdigits.2 x hx
    · cases h

theorem parts_of_readDecimal {cs : List Char} {v : Binary64} (h : readDecimal? cs = some v) :
    ∀ x ∈ cs, IsPart x := by
  unfold readDecimal? at h
  dsimp only at h
  split at h
  · cases h
  · obtain ⟨e, he, -⟩ := Option.map_eq_some_iff.mp h
    exact parts_of_splitSign (parts_of_span (parts_of_splitFraction (parts_of_readExponent he)))

end Decimal

namespace Token

open Cursor (reads_takeWhile)
open Decimal (IsPart readDecimal? parts_of_readDecimal)

/-! ## Neighbours -/

theorem hasPair_eq_false_iff {a b : Char} {cs : List Char} :
    hasPair a b cs = false ↔ cs.IsChain fun x y => x = a → y ≠ b := by
  induction cs with
  | nil => simp [hasPair]
  | cons x cs ih =>
      cases cs with
      | nil => simp [hasPair]
      | cons y cs =>
          rw [hasPair_cons_cons, List.isChain_cons_cons, ← ih, Bool.or_eq_false_iff,
            Bool.and_eq_false_imp]
          simp

/-- A sign has a mark of an exponent in front of it. -/
def SignsBehindMarks (text : List Char) : Prop :=
  text.IsChain fun x y => y ∈ ['+', '-'] → x ∈ ['e', 'E']

def Signless (text : List Char) : Prop := ∀ x ∈ text, x ∉ ['+', '-']

theorem signless_of_class {p : Char → Bool} {text : List Char} (h : ∀ x ∈ text, p x = true)
    (hp : ['+', '-'].any p = false) : Signless text := by
  intro x hx hsign
  exact List.any_eq_false.mp hp x hsign (h x hx)

theorem signless_takeWhile {p : Char → Bool} (hp : ['+', '-'].any p = false) (c : Cursor) :
    Signless (c.takeWhile p).1 :=
  signless_of_class (fun x hx => List.all_eq_true.mp List.all_takeWhile x hx) hp

theorem Signless.append {xs ys : List Char} (hx : Signless xs) (hy : Signless ys) :
    Signless (xs ++ ys) := by
  intro x hmem
  rcases List.mem_append.mp hmem with h | h
  · exact hx x h
  · exact hy x h

/-- Only the first character of a text that has no other sign can be one. -/
theorem Signless.signsBehindMarks {x : Char} {text : List Char} (h : Signless text) :
    SignsBehindMarks (x :: text) := by
  induction text generalizing x with
  | nil => exact .singleton x
  | cons y text ih =>
      obtain ⟨hy, htext⟩ := List.forall_mem_cons.mp h
      exact List.isChain_cons_cons.mpr ⟨fun hsign => absurd hsign hy, ih htext⟩

theorem SignsBehindMarks.append_signless {xs ys : List Char} (hx : SignsBehindMarks xs)
    (hy : Signless ys) : SignsBehindMarks (xs ++ ys) := by
  have hys : SignsBehindMarks ys := by
    cases ys with
    | nil => exact .nil
    | cons y ys => exact Signless.signsBehindMarks (List.forall_mem_cons.mp hy).2
  refine List.isChain_append.mpr ⟨hx, hys, fun x _ y hhead hsign => ?_⟩
  exact absurd hsign (hy y (List.mem_of_head? hhead))

/-! ## The scanners -/

theorem signless_scanFraction (c : Cursor) : Signless (scanFraction c).1 := by
  unfold scanFraction
  split
  · have hdigits := signless_takeWhile (p := isDigitOrUnderscore) rfl c.skip
    exact List.forall_mem_cons.mpr ⟨by decide, hdigits⟩
  · exact nofun

theorem scanSign_cases (c : Cursor) : (scanSign c).1 = [] ∨ ∃ sign, (scanSign c).1 = [sign] := by
  unfold scanSign
  split
  · split
    · exact .inr ⟨_, rfl⟩
    · exact .inl rfl
  · exact .inl rfl

/-- An exponent starts with its mark, and has no sign but behind it. -/
theorem signs_scanExponent (c : Cursor) : SignsBehindMarks (scanExponent c).1 ∧
    ∀ x ∈ (scanExponent c).1.head?, x ∉ ['+', '-'] := by
  unfold scanExponent
  split
  · next mark _ =>
    split
    · next hmark =>
      have hmark : mark ∈ ['e', 'E'] := by simpa using hmark
      have hdigits := signless_takeWhile (p := isDigitOrUnderscore) rfl (scanSign c.skip).2
      constructor
      · rcases scanSign_cases c.skip with hsign | ⟨sign, hsign⟩
        · simp only [hsign, List.cons_append, List.nil_append]
          exact hdigits.signsBehindMarks
        · simp only [hsign, List.cons_append, List.nil_append]
          exact List.isChain_cons_cons.mpr ⟨fun _ => hmark, hdigits.signsBehindMarks⟩
      · rintro x ⟨⟩
        intro hsign
        simp only [List.mem_cons, List.not_mem_nil, or_false] at hmark hsign
        rcases hmark with rfl | rfl <;> revert hsign <;> decide
    · exact ⟨.nil, nofun⟩
  · exact ⟨.nil, nofun⟩

/-- Every underscore has a digit or a part of an exponent on both sides. -/
def ScoredFloat (text : List Char) : Prop :=
  ∀ before after, text = before ++ '_' :: after →
    ∃ a b, before.getLast? = some a ∧ after.head? = some b ∧
      (isDigit a = true ∨ a ∈ ['e', 'E', '+', '-']) ∧ (isDigit b = true ∨ b ∈ ['e', 'E'])

theorem decimalValue_float {text : List Char} {isFloat : Bool} {x : Binary64}
    (h : decimalValue text isFloat = .ok (.float x)) :
    misplacesUnderscore text = false ∧ readDecimal? (withoutUnderscores text) = some x := by
  unfold decimalValue badNumber at h
  grind

/-- What is checked of the text of a floating-point number leaves its underscores these neighbours. -/
theorem scoredFloat_of_value {text : List Char} {isFloat : Bool} {x : Binary64}
    (h : decimalValue text isFloat = .ok (.float x)) (hsigns : SignsBehindMarks text)
    (hfirst : text.head? ≠ some '_') : ScoredFloat text := by
  intro before after htext
  obtain ⟨hplaced, hread⟩ := decimalValue_float h
  simp only [misplacesUnderscore, Bool.or_eq_false_iff, decide_eq_false_iff_not,
    hasPair_eq_false_iff] at hplaced
  obtain ⟨⟨⟨hlast, hdoubled⟩, hpoint⟩, hpoint'⟩ := hplaced
  obtain rfl | ⟨front, a, rfl⟩ := List.eq_nil_or_concat' before
  · rw [htext] at hfirst
    exact absurd rfl hfirst
  cases after with
  | nil =>
      rw [htext, List.getLast?_concat] at hlast
      exact absurd rfl hlast
  | cons b back =>
      have hpart {y : Char} (hy : y ∈ text) (hne : y ≠ '_') : IsPart y :=
        parts_of_readDecimal hread y (mem_withoutUnderscores.mpr ⟨hy, hne⟩)
      have ha : a ∈ text := by simp [htext]
      have hb : b ∈ text := by simp [htext]
      have hneighbours {R : Char → Char → Prop} (h : text.IsChain R) : R a '_' ∧ R '_' b := by
        rw [htext, List.append_assoc, List.singleton_append, List.isChain_append_cons_cons,
          List.isChain_cons_cons] at h
        exact ⟨h.2.1, h.2.2.1⟩
      obtain ⟨ha_score, hb_score⟩ := hneighbours hdoubled
      have hb_point := (hneighbours hpoint).2
      have ha_point := (hneighbours hpoint').1
      have hb_sign := (hneighbours hsigns).2
      have ha_part := hpart ha fun h => ha_score h rfl
      have hb_part := hpart hb (hb_score rfl)
      refine ⟨a, b, List.getLast?_concat, rfl, ?_, ?_⟩
      · refine ha_part.imp_right fun hmem => ?_
        rcases List.mem_cons.mp hmem with hdot | hmem
        · exact absurd rfl (ha_point hdot)
        · exact hmem
      · refine hb_part.imp_right fun hmem => ?_
        rcases List.mem_cons.mp hmem with hdot | hmem
        · exact absurd hdot (hb_point rfl)
        · have hmem : b ∈ ['e', 'E'] ++ ['+', '-'] := hmem
          rcases List.mem_append.mp hmem with hmark | hsign
          · exact hmark
          · exact absurd (hb_sign hsign) (by decide)

variable [Text.IdentifierTable]

theorem finishDecimal_float {start : List Char} {isFloat : Bool} {c c' : Cursor} {x : Binary64}
    (h : finishDecimal (start ++ (scanExponent c).1) isFloat (scanExponent c).2 = (.ok (.float x), c'))
    (hsigns : Signless start) {first : Char} (hfirst : start.head? = some first) (hne : first ≠ '_') :
    ∃ read, c.Reads read c' ∧ ScoredFloat (start ++ read) := by
  obtain ⟨hvalue, rfl⟩ := Prod.mk.inj h
  have hread := (reads_scanExponent c).trans (reads_takeWhile isIdentifierChar (scanExponent c).2)
  obtain ⟨hexponent, hmark⟩ := signs_scanExponent c
  have hstart : SignsBehindMarks (start ++ (scanExponent c).1) := by
    have hnone : SignsBehindMarks start := SignsBehindMarks.append_signless .nil hsigns
    exact List.isChain_append.mpr ⟨hnone, hexponent, fun _ _ y hy hsign => absurd hsign (hmark y hy)⟩
  have hglued := signless_takeWhile (p := isIdentifierChar) rfl (scanExponent c).2
  refine ⟨_, hread, ?_⟩
  rw [← List.append_assoc]
  refine scoredFloat_of_value hvalue (hstart.append_signless hglued) ?_
  rw [List.append_assoc, List.head?_append, hfirst]
  simpa using hne

theorem scanNumber_float {first : Char} {c c' : Cursor} {x : Binary64} (hfirst : isDigit first = true)
    (h : scanNumber first c = (.ok (.float x), c')) :
    ∃ text, c.Reads text c' ∧ ScoredFloat (first :: text) := by
  unfold scanNumber at h
  split at h
  · next base marker _ =>
    obtain ⟨hvalue, -⟩ := Prod.mk.inj h
    rcases radixValue_cases base marker (c.skip.takeWhile fun x => x.isAlphanum || x = '_').1 with
      ⟨n, hn⟩ | hbad
    · cases hn.symm.trans hvalue
    · cases hbad.symm.trans hvalue
  · have hwhole := reads_takeWhile isDigitOrUnderscore c
    have hfraction := reads_scanFraction (c.takeWhile isDigitOrUnderscore).2
    have hsigns : Signless (first :: (c.takeWhile isDigitOrUnderscore).1 ++
        (scanFraction (c.takeWhile isDigitOrUnderscore).2).1) := by
      have hdigits := signless_takeWhile (p := isDigitOrUnderscore) rfl c
      have hfirst : first ∉ ['+', '-'] := fun hmem => by
        simp only [List.mem_cons, List.not_mem_nil, or_false] at hmem
        rcases hmem with rfl | rfl <;> cases hfirst
      exact Signless.append (List.forall_mem_cons.mpr ⟨hfirst, hdigits⟩) (signless_scanFraction _)
    obtain ⟨read, hread, hscored⟩ :=
      finishDecimal_float h hsigns rfl (Lexer.ne_of_class hfirst rfl)
    refine ⟨_, (hwhole.trans hfraction).trans hread, ?_⟩
    rwa [List.cons_append, List.cons_append] at hscored

theorem scanLeadingDot_float {c c' : Cursor} {x : Binary64}
    (h : scanLeadingDot c = (.ok (.float x), c')) :
    ∃ text, c.Reads text c' ∧ ScoredFloat ('.' :: text) := by
  have hdigits := reads_takeWhile isDigitOrUnderscore c
  have hpoint : Signless ['0', '.'] :=
    signless_of_class (p := fun x => x = '0' || x = '.') (List.all_eq_true.mp rfl) rfl
  have hsigns : Signless (['0', '.'] ++ (c.takeWhile isDigitOrUnderscore).1) :=
    hpoint.append (signless_takeWhile rfl c)
  obtain ⟨read, hread, hscored⟩ := finishDecimal_float h hsigns rfl (by decide)
  refine ⟨_, hdigits.trans hread, fun before after htext => ?_⟩
  have hzero : ['0', '.'] ++ (c.takeWhile isDigitOrUnderscore).1 ++ read =
      ('0' :: before) ++ '_' :: after := by
    show '0' :: '.' :: ((c.takeWhile isDigitOrUnderscore).1 ++ read) = '0' :: (before ++ '_' :: after)
    rw [htext]
  obtain ⟨a, b, ha, hrest⟩ := hscored _ _ hzero
  refine ⟨a, b, ?_, hrest⟩
  cases before with
  | nil => cases htext
  | cons y before => rwa [List.getLast?_cons_cons] at ha

end Token

open Token (ScoredFloat)

/-! ## Whole texts -/

/-- Where a text has tokens, every underscore under a floating-point number stands between two digits, in
front of the mark of its exponent, or behind this mark or its sign. -/
theorem tokenize_float_underscores [Text.IdentifierTable] {source : String} {ts : List Token}
    {t : Token} {x : Binary64}
    (h : tokenize source = .ok ts) (ht : t ∈ ts) (hkind : t.kind = .float x) :
    ∃ text, t.textIn source = some text ∧ ScoredFloat text := by
  have hlayout : t.kind.isLayout = false := by
    rw [hkind]
    rfl
  obtain ⟨first, text, lx, lx', hscan, hread, htext⟩ := tokenize_written h ht hlayout
  have hscored : ∃ read, lx.cursor.Reads read lx'.cursor ∧ ScoredFloat (first :: read) := by
    have hnumber : t.kind.isNumber = true := by
      rw [hkind]
      rfl
    rcases Lexer.scanToken_number hscan hnumber with ⟨hdigit, hfloat⟩ | ⟨rfl, hfloat⟩
    · rw [hkind] at hfloat
      exact Token.scanNumber_float hdigit hfloat
    · rw [hkind] at hfloat
      exact Token.scanLeadingDot_float hfloat
  obtain ⟨read, hread', hscored⟩ := hscored
  rw [hread.unique hread'] at htext
  exact ⟨_, htext, hscored⟩

/-- A number with underscores before and behind its point, and one that starts with a point. -/
theorem tokenize_float_underscores_sample :
    ∃ t u rest, tokenize "1_0.2_5 .0_1e1_0" = .ok (t :: u :: rest) ∧
      (∃ text, t.textIn "1_0.2_5 .0_1e1_0" = some text ∧ ScoredFloat text) ∧
      ∃ text, u.textIn "1_0.2_5 .0_1e1_0" = some text ∧ ScoredFloat text := by
  have hscored {t : Token} {ts : List Token} {x : Binary64} (ht : t ∈ ts) (hkind : t.kind = .float x)
      (h : tokenize "1_0.2_5 .0_1e1_0" = .ok ts) :
      ∃ text, t.textIn "1_0.2_5 .0_1e1_0" = some text ∧ ScoredFloat text :=
    tokenize_float_underscores h ht hkind
  exact ⟨_, _, _, rfl, hscored List.mem_cons_self rfl rfl,
    hscored (.tail _ List.mem_cons_self) rfl rfl⟩

/-- In front of the mark of an exponent an underscore separates nothing. -/
theorem tokenize_float_underscore_mark :
    ∃ t x rest, tokenize "1_e5" = .ok (t :: rest) ∧ t.kind = .float x ∧
      t.textIn "1_e5" = some (['1'] ++ '_' :: ['e', '5']) ∧ isDigit 'e' = false :=
  ⟨_, _, _, rfl, rfl, rfl, rfl⟩

end MysToCpp
