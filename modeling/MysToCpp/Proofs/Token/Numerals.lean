/-
# Whole numbers

`Numeral` is the grammar of whole numbers: zeros, decimals that do not start with a zero, and digits
behind a marker for base sixteen, eight or two, with underscores between the digits.  The checks that are
made of the text of a number allow underscores just where the grammar has them, so that a number has a
value by its grammar or none (`radixValue_eq_ok`, `decimalValue_eq_int`).
-/
import MysToCpp.Proofs.Text.Digits
import MysToCpp.Proofs.Token.Reading

namespace MysToCpp

namespace Token

open Lexer (ne_of_class)
open Text (isDigit isHexDigit digitValue digitValue_eq isDigit_iff isHexDigit_iff ofDigits ofDigits_zeros)

/-! ## Underscores between digits -/

theorem hasPair_eq_false {a b : Char} {cs : List Char} (h : a ∉ cs ∨ b ∉ cs) :
    hasPair a b cs = false := by
  rw [hasPair, List.any_eq_false]
  rintro ⟨x, y⟩ hmem
  obtain ⟨hx, hy⟩ := List.of_mem_zip hmem
  have hy := List.mem_of_mem_tail hy
  rcases h with h | h
  · have hne : x ≠ a := fun hxa => h (hxa ▸ hx)
    simp [hne]
  · have hne : y ≠ b := fun hyb => h (hyb ▸ hy)
    simp [hne]

theorem hasPair_cons_cons (a b x y : Char) (cs : List Char) :
    hasPair a b (x :: y :: cs) = ((decide (x = a) && decide (y = b)) || hasPair a b (y :: cs)) := by
  simp [hasPair]

theorem hasPair_cons_of_ne {a x : Char} (hx : x ≠ a) (b : Char) (cs : List Char) :
    hasPair a b (x :: cs) = hasPair a b cs := by
  cases cs with
  | nil => rfl
  | cons y cs => simp [hasPair_cons_cons, hx]

theorem getLast?_cons_of_ne {a x : Char} (hx : x ≠ a) (cs : List Char) :
    (x :: cs).getLast? = some a ↔ cs.getLast? = some a := by
  cases cs with
  | nil => simp [hx]
  | cons y cs => rw [List.getLast?_cons_cons]

theorem mem_withoutUnderscores {x : Char} {cs : List Char} :
    x ∈ withoutUnderscores cs ↔ x ∈ cs ∧ x ≠ '_' := by
  simp [withoutUnderscores]

/-- Digits of a kind; in front of each there may be an underscore. -/
inductive Scored (p : Char → Bool) : List Char → Prop
  | nil : Scored p []
  | digit {x : Char} {cs : List Char} : p x = true → Scored p cs → Scored p (x :: cs)
  | underscore {x : Char} {cs : List Char} : p x = true → Scored p cs → Scored p ('_' :: x :: cs)

section Scored

variable {p q : Char → Bool} {cs : List Char}

theorem Scored.imp (h : Scored p cs) (hpq : ∀ x, p x = true → q x = true) : Scored q cs := by
  induction h with
  | nil => exact .nil
  | digit hx _ ih => exact .digit (hpq _ hx) ih
  | underscore hx _ ih => exact .underscore (hpq _ hx) ih

theorem scored_of_class (h : ∀ x ∈ cs, p x = true) : Scored p cs := by
  induction cs with
  | nil => exact .nil
  | cons x cs ih =>
      obtain ⟨hx, hcs⟩ := List.forall_mem_cons.mp h
      exact .digit hx (ih hcs)

theorem withoutUnderscores_of_class (h : ∀ x ∈ cs, p x = true) (hp : p '_' = false) :
    withoutUnderscores cs = cs := by
  rw [withoutUnderscores, List.filter_eq_self]
  intro x hx
  exact decide_eq_true (ne_of_class (h x hx) hp)

theorem Scored.chars (h : Scored p cs) : ∀ x ∈ cs, p x = true ∨ x = '_' := by
  induction h with
  | nil => exact nofun
  | digit hx _ ih => simpa [hx] using ih
  | underscore hx _ ih => simpa [hx] using ih

theorem Scored.digits (h : Scored p cs) : ∀ x ∈ withoutUnderscores cs, p x = true := by
  intro x hx
  obtain ⟨hmem, hne⟩ := mem_withoutUnderscores.mp hx
  exact (h.chars x hmem).resolve_right hne

theorem Scored.eq_nil_of_digits (h : Scored p cs) (hp : p '_' = false)
    (hnone : withoutUnderscores cs = []) : cs = [] := by
  cases h with
  | nil => rfl
  | digit hx | underscore hx =>
      have hne := ne_of_class hx hp
      simp [withoutUnderscores, hne] at hnone

/-- No underscore is the last character or in front of another. -/
theorem Scored.separates (h : Scored p cs) (hp : p '_' = false) :
    cs.getLast? ≠ some '_' ∧ hasPair '_' '_' cs = false := by
  have hne {x : Char} (hx : p x = true) : x ≠ '_' := ne_of_class hx hp
  induction h with
  | nil => exact ⟨nofun, rfl⟩
  | digit hx _ ih => rwa [Ne, getLast?_cons_of_ne (hne hx), hasPair_cons_of_ne (hne hx)]
  | underscore hx _ ih =>
      rw [Ne, List.getLast?_cons_cons, getLast?_cons_of_ne (hne hx), hasPair_cons_cons,
        hasPair_cons_of_ne (hne hx)]
      simpa [hne hx] using ih

/-- And it is only this that keeps underscores and digits from being digits with underscores. -/
theorem scored_of_separates : ∀ {cs : List Char}, cs.getLast? ≠ some '_' → hasPair '_' '_' cs = false →
    (∀ x ∈ cs, x ≠ '_' → p x = true) → Scored p cs
  | [], _, _, _ => .nil
  | [x], hlast, _, hdigits => by
      have hne : x ≠ '_' := by simpa using hlast
      exact .digit (hdigits x List.mem_cons_self hne) .nil
  | x :: y :: cs, hlast, hpair, hdigits => by
      obtain ⟨hx, hmore⟩ := List.forall_mem_cons.mp hdigits
      obtain ⟨hy, hrest⟩ := List.forall_mem_cons.mp hmore
      rw [hasPair_cons_cons, Bool.or_eq_false_iff] at hpair
      rw [Ne, List.getLast?_cons_cons] at hlast
      by_cases hscore : x = '_'
      · -- no second underscore follows, so that a digit does
        have hne : y ≠ '_' := by simpa [hscore] using hpair.1
        rw [getLast?_cons_of_ne hne] at hlast
        rw [hasPair_cons_of_ne hne] at hpair
        subst hscore
        exact .underscore (hy hne) (scored_of_separates hlast hpair.2 hrest)
      · exact .digit (hx hscore) (scored_of_separates hlast hpair.2 hmore)

end Scored

/-! ## The grammar -/

def isBinaryDigit (x : Char) : Bool := x = '0' || x = '1'

/-- The markers behind a leading zero, with the base and the digits that each asks for. -/
inductive Radix : Char → Nat → (Char → Bool) → Prop
  | hexadecimal {marker : Char} : marker ∈ ['x', 'X'] → Radix marker 16 isHexDigit
  | octal {marker : Char} : marker ∈ ['o', 'O'] → Radix marker 8 isOctalDigit
  | binary {marker : Char} : marker ∈ ['b', 'B'] → Radix marker 2 isBinaryDigit

/-- How a whole number is written, and its value. -/
inductive Numeral : List Char → Nat → Prop
  | zeros {more : List Char} : Scored (· = '0') more → Numeral ('0' :: more) 0
  | decimal {first : Char} {more : List Char} : isDigit first = true → first ≠ '0' →
      Scored isDigit more → Numeral (first :: more) (ofDigits 10 (withoutUnderscores (first :: more)))
  | radix {marker : Char} {base : Nat} {p : Char → Bool} {digits : List Char} : Radix marker base p →
      digits ≠ [] → Scored p digits →
        Numeral ('0' :: marker :: digits) (ofDigits base (withoutUnderscores digits))

section Grammar

variable {first marker x : Char} {base n : Nat} {p : Char → Bool} {more digits : List Char}

theorem isOctalDigit_iff : isOctalDigit x = true ↔ digitValue x < 8 := by
  have hoctal : '0' ≤ x ∧ x ≤ '7' ↔ 48 ≤ x.toNat ∧ x.toNat ≤ 55 := Iff.rfl
  simp only [isOctalDigit, Bool.and_eq_true, decide_eq_true_eq, hoctal, digitValue_eq]
  grind

theorem isBinaryDigit_iff : isBinaryDigit x = true ↔ digitValue x < 2 := by
  have hzero : x = '0' ↔ x.toNat = 48 := Char.toNat_inj.symm
  have hone : x = '1' ↔ x.toNat = 49 := Char.toNat_inj.symm
  simp only [isBinaryDigit, Bool.or_eq_true, decide_eq_true_eq, hzero, hone, digitValue_eq]
  grind

theorem Radix.digit_iff (h : Radix marker base p) : p x = true ↔ digitValue x < base := by
  cases h with
  | hexadecimal => exact isHexDigit_iff
  | octal => exact isOctalDigit_iff
  | binary => exact isBinaryDigit_iff

theorem Radix.underscore (h : Radix marker base p) : p '_' = false := by
  cases h <;> decide

/-- A marker asks for its base behind a zero, and nothing else asks for one. -/
theorem radixOf?_eq_some {second : Option Char} : radixOf? first second = some (base, marker) ↔
    first = '0' ∧ second = some marker ∧ ∃ p, Radix marker base p := by
  constructor
  · intro h
    cases second with
    | none => cases h
    | some y =>
        simp only [radixOf?, ne_eq, ite_not] at h
        split at h
        · next hfirst =>
          refine ⟨hfirst, ?_⟩
          split at h
          · next hy => cases h; exact ⟨rfl, _, .hexadecimal (by simpa using hy)⟩
          · split at h
            · next hy => cases h; exact ⟨rfl, _, .octal (by simpa using hy)⟩
            · split at h
              · next hy => cases h; exact ⟨rfl, _, .binary (by simpa using hy)⟩
              · cases h
        · cases h
  · rintro ⟨rfl, rfl, p, hradix⟩
    cases hradix with
    | hexadecimal hm | octal hm | binary hm =>
        simp only [List.mem_cons, List.not_mem_nil, or_false] at hm
        rcases hm with rfl | rfl <;> rfl

/-! ## Values -/

theorem readInt?_eq_some {cs : List Char} : readInt? base cs = some n ↔
    cs ≠ [] ∧ (∀ x ∈ cs, digitValue x < base) ∧ n = ofDigits base cs ∧ n < Nat.pow 2 128 := by
  have hlimit : intLimit = Nat.pow 2 128 := rfl
  unfold readInt?
  rw [hlimit]
  dsimp only
  grind

theorem radixValue_eq_ok (h : Radix marker base p) : radixValue base marker digits = .ok (.int n) ↔
    digits ≠ [] ∧ Scored p digits ∧ n = ofDigits base (withoutUnderscores digits) ∧
      n < Nat.pow 2 128 := by
  have hvalue : radixValue base marker digits = .ok (.int n) ↔ digits.getLast? ≠ some '_' ∧
      hasPair '_' '_' digits = false ∧ readInt? base (withoutUnderscores digits) = some n := by
    unfold radixValue badNumber
    dsimp only
    grind
  rw [hvalue, readInt?_eq_some]
  constructor
  · rintro ⟨hlast, hpair, hne, hdigits, hn⟩
    have hscored := scored_of_separates hlast hpair fun x hx hscore =>
      h.digit_iff.mpr (hdigits x (mem_withoutUnderscores.mpr ⟨hx, hscore⟩))
    refine ⟨?_, hscored, hn⟩
    rintro rfl
    exact hne rfl
  · rintro ⟨hne, hscored, hn⟩
    obtain ⟨hlast, hpair⟩ := hscored.separates h.underscore
    exact ⟨hlast, hpair, fun hnone => hne (hscored.eq_nil_of_digits h.underscore hnone),
      fun x hx => h.digit_iff.mp (hscored.digits x hx), hn⟩

theorem dropPlus_of_digit (hfirst : isDigit first = true) : dropPlus (first :: more) = first :: more := by
  unfold dropPlus
  split
  · next heq =>
    obtain ⟨rfl, -⟩ := List.cons.inj heq
    cases hfirst
  · rfl

theorem ofDigits_of_zeros {cs : List Char} (h : ∀ x ∈ cs, x = '0') : ofDigits 10 cs = 0 := by
  have hzeros := ofDigits_zeros 10 cs.length []
  rwa [← List.eq_replicate_iff.mpr ⟨rfl, h⟩, List.append_nil] at hzeros

theorem misplacesUnderscore_of_scored (hfirst : isDigit first = true) (h : Scored isDigit more) :
    misplacesUnderscore (first :: more) = false := by
  have hscored : Scored isDigit (first :: more) := .digit hfirst h
  obtain ⟨hlast, hpair⟩ := hscored.separates rfl
  have hpoint : '.' ∉ first :: more := fun hmem => by
    rcases hscored.chars _ hmem with hdigit | heq
    · cases hdigit
    · cases heq
  simp only [misplacesUnderscore, hlast, hpair, hasPair_eq_false (.inl hpoint),
    hasPair_eq_false (.inr hpoint), decide_false, Bool.or_self]

/-- A decimal is a whole number where its underscores stand between digits and it does not start with a zero
in vain. -/
theorem decimalValue_eq_int (hfirst : isDigit first = true) :
    decimalValue (first :: more) false = .ok (.int n) ↔
      Scored isDigit more ∧ (first = '0' → ∀ x ∈ withoutUnderscores more, x = '0') ∧
        n = ofDigits 10 (withoutUnderscores (first :: more)) ∧ n < Nat.pow 2 128 := by
  have hne : first ≠ '_' := ne_of_class hfirst rfl
  have hdigits : withoutUnderscores (first :: more) = first :: withoutUnderscores more := by
    simp [withoutUnderscores, hne]
  have hvalue : decimalValue (first :: more) false = .ok (.int n) ↔
      misplacesUnderscore (first :: more) = false ∧
        (first = '0' → ∀ x ∈ withoutUnderscores more, x = '0') ∧
          readInt? 10 (withoutUnderscores (first :: more)) = some n := by
    unfold decimalValue badNumber
    dsimp only
    rw [hdigits, dropPlus_of_digit hfirst]
    grind
  rw [hvalue, readInt?_eq_some]
  constructor
  · rintro ⟨hplaced, hzero, -, hvalues, hn⟩
    simp only [misplacesUnderscore, Bool.or_eq_false_iff, decide_eq_false_iff_not] at hplaced
    obtain ⟨⟨⟨hlast, hpair⟩, -⟩, -⟩ := hplaced
    rw [getLast?_cons_of_ne hne] at hlast
    rw [hasPair_cons_of_ne hne] at hpair
    have hscored := scored_of_separates hlast hpair fun x hx hscore =>
      isDigit_iff.mpr (hvalues x (mem_withoutUnderscores.mpr ⟨.tail _ hx, hscore⟩))
    exact ⟨hscored, hzero, hn⟩
  · rintro ⟨hscored, hzero, hn⟩
    refine ⟨misplacesUnderscore_of_scored hfirst hscored, hzero, ?_, fun x hx => ?_, hn⟩
    · rw [hdigits]
      exact List.cons_ne_nil _ _
    · have hall : Scored isDigit (first :: more) := .digit hfirst hscored
      exact isDigit_iff.mp (hall.digits x hx)

end Grammar

end Token

end MysToCpp
