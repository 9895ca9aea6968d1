/-
# What decimals are written with

The text of a floating-point number has digits, a point, an exponent mark, a minus sign and the letters of
its values without digits, and no other character, whatever its digits turn out to be.
-/
import MysToCpp.Decimal.Style
import MysToCpp.Proofs.Text.Digits

namespace MysToCpp.Decimal

/-- The characters of decimals in the plain style. -/
def decimalChars : List Char := "0123456789.-einfNa".toList

theorem digitChar_mem : ∀ d < 10, Nat.digitChar d ∈ decimalChars := by decide

theorem toDigits_subset (n : Nat) : Nat.toDigits 10 n ⊆ decimalChars := by
  intro c hc
  obtain ⟨d, hd, rfl⟩ := Text.exists_digit_of_mem (by decide) hc
  exact digitChar_mem d hd

theorem literal_subset {cs : List Char} (h : cs.all (decimalChars.contains ·) = true) :
    cs ⊆ decimalChars := by
  intro c hc
  exact List.contains_iff_mem.mp (List.all_eq_true.mp h c hc)

theorem zeros_subset (count : Nat) : List.replicate count '0' ⊆ decimalChars := by
  intro c hc
  rw [(List.mem_replicate.mp hc).2]
  decide

/-- The digits that are found are digits, however many of them were tried. -/
theorem search_subset (r : Rounding) (magnitude : Int) (fuel : Nat) :
    ∀ count, (r.search magnitude fuel count).digits ⊆ decimalChars := by
  induction fuel with
  | zero =>
      intro count
      exact literal_subset rfl
  | succ fuel ih =>
      intro count
      unfold Rounding.search
      dsimp only
      split
      · next n _ =>
        intro c hc
        have hdrop := List.mem_reverse.mp hc
        have hkept := List.mem_reverse.mp ((List.dropWhile_sublist _).subset hdrop)
        exact toDigits_subset n hkept
      · exact ih _

section

variable {n : Scientific} (hdigits : n.digits ⊆ decimalChars)

include hdigits

theorem positional_subset : plain.positional n ⊆ decimalChars := by
  have htake (width : Nat) : n.digits.take width ⊆ decimalChars :=
    fun c hc => hdigits (List.mem_of_mem_take hc)
  have hdrop (width : Nat) : n.digits.drop width ⊆ decimalChars :=
    fun c hc => hdigits (List.mem_of_mem_drop hc)
  have hpoint : ['.'] ⊆ decimalChars := literal_subset rfl
  have hzero : ['0', '.'] ⊆ decimalChars := literal_subset rfl
  have hwhole : plain.wholeEnd ⊆ decimalChars := literal_subset rfl
  unfold Style.positional
  dsimp only
  split
  · exact List.append_subset.mpr ⟨List.append_subset.mpr ⟨hzero, zeros_subset _⟩, hdigits⟩
  · split
    · exact List.append_subset.mpr ⟨List.append_subset.mpr ⟨htake _, zeros_subset _⟩, hwhole⟩
    · exact List.append_subset.mpr ⟨List.append_subset.mpr ⟨htake _, hpoint⟩, hdrop _⟩

theorem scientific_subset : plain.scientific n ⊆ decimalChars := by
  have htake : n.digits.take 1 ⊆ decimalChars := fun c hc => hdigits (List.mem_of_mem_take hc)
  have hdrop : n.digits.drop 1 ⊆ decimalChars := fun c hc => hdigits (List.mem_of_mem_drop hc)
  have htail : (if (n.digits.drop 1).isEmpty then [] else '.' :: n.digits.drop 1) ⊆ decimalChars := by
    split
    · exact List.nil_subset _
    · exact List.cons_subset.mpr ⟨by decide, hdrop⟩
  have hmark : [plain.exponentMark] ⊆ decimalChars := literal_subset rfl
  have hsign : (if n.exponent < 0 then ['-'] else []) ⊆ decimalChars := by
    split <;> exact literal_subset rfl
  have hexponent : Nat.toDigits 10 n.exponent.natAbs ⊆ decimalChars := toDigits_subset _
  have hmantissa := List.append_subset.mpr ⟨List.append_subset.mpr ⟨htake, htail⟩, hmark⟩
  exact List.append_subset.mpr ⟨List.append_subset.mpr ⟨hmantissa, hsign⟩, hexponent⟩

end

theorem write_subset (x : Binary64) : plain.write x ⊆ decimalChars := by
  have hdigits : (shortest x).digits ⊆ decimalChars := search_subset _ _ _ _
  have hsign : (if x.isNegative then ['-'] else []) ⊆ decimalChars := by
    split <;> exact literal_subset rfl
  unfold Style.write
  split
  · exact literal_subset rfl
  · refine List.append_subset.mpr ⟨hsign, ?_⟩
    split
    · exact literal_subset rfl
    · split
      · exact literal_subset rfl
      · dsimp only
        split
        · exact positional_subset hdigits
        · exact scientific_subset hdigits

end MysToCpp.Decimal
