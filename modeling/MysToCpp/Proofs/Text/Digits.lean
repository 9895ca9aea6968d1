/-
# Digits of numbers

The digits that a number is written with are read back as the number, in every base up to sixteen:
`ofDigits` undoes `Nat.toDigits`, and zeros in front count nothing.
-/
import MysToCpp.Text.Identifier

namespace MysToCpp.Text

/-- Where the digits and letters stand among the characters. -/
theorem ascii_ranges (x : Char) : (x.isDigit = true ↔ 48 ≤ x.toNat ∧ x.toNat ≤ 57) ∧
    (x.isLower = true ↔ 97 ≤ x.toNat ∧ x.toNat ≤ 122) ∧
    (x.isUpper = true ↔ 65 ≤ x.toNat ∧ x.toNat ≤ 90) := by
  have hrange (low high : UInt32) : (decide (low ≤ x.val) && decide (x.val ≤ high)) = true ↔
      low.toNat ≤ x.toNat ∧ x.toNat ≤ high.toNat := by
    rw [Bool.and_eq_true, decide_eq_true_eq, decide_eq_true_eq]
    exact Iff.rfl
  have hupper : x.isUpper = true ↔ 65 ≤ x.toNat ∧ x.toNat ≤ 90 := decide_eq_true_iff
  exact ⟨hrange 48 57, hrange 97 122, hupper⟩

theorem isAlpha_iff {x : Char} : x.isAlpha = true ↔
    (97 ≤ x.toNat ∧ x.toNat ≤ 122) ∨ (65 ≤ x.toNat ∧ x.toNat ≤ 90) := by
  obtain ⟨-, hlower, hupper⟩ := ascii_ranges x
  rw [← hlower, ← hupper, ← Bool.or_eq_true, Bool.or_comm]
  exact Iff.rfl

theorem digitValue_eq (x : Char) : digitValue x =
    if 48 ≤ x.toNat ∧ x.toNat ≤ 57 then x.toNat - 48
    else if 97 ≤ x.toNat ∧ x.toNat ≤ 122 then x.toNat - 87
    else if 65 ≤ x.toNat ∧ x.toNat ≤ 90 then x.toNat - 55
    else 36 := by
  obtain ⟨hdigit, hlower, hupper⟩ := ascii_ranges x
  have hbases : '0'.toNat = 48 ∧ 'a'.toNat = 97 ∧ 'A'.toNat = 65 := ⟨rfl, rfl, rfl⟩
  simp only [digitValue, hdigit, hlower, hupper, hbases]
  grind

theorem isDigit_iff {x : Char} : isDigit x = true ↔ digitValue x < 10 := by
  rw [isDigit, (ascii_ranges x).1, digitValue_eq]
  grind

theorem isHexDigit_iff {x : Char} : isHexDigit x = true ↔ digitValue x < 16 := by
  have hlower : 'a' ≤ x ∧ x ≤ 'f' ↔ 97 ≤ x.toNat ∧ x.toNat ≤ 102 := Iff.rfl
  have hupper : 'A' ≤ x ∧ x ≤ 'F' ↔ 65 ≤ x.toNat ∧ x.toNat ≤ 70 := Iff.rfl
  simp only [isHexDigit, Bool.or_eq_true, Bool.and_eq_true, decide_eq_true_eq, hlower, hupper,
    (ascii_ranges x).1, digitValue_eq]
  grind

theorem digitValue_digitChar {d : Nat} (h : d < 16) : digitValue (Nat.digitChar d) = d := by
  revert d
  decide

theorem ofDigits_concat (base : Nat) (cs : List Char) (c : Char) :
    ofDigits base (cs ++ [c]) = ofDigits base cs * base + digitValue c := by
  simp [ofDigits, List.foldl_append]

/-- So many digits of a base go so far. -/
theorem ofDigits_lt {base : Nat} (cs : List Char) (h : ∀ x ∈ cs, digitValue x < base) :
    ofDigits base cs < Nat.pow base cs.length := by
  rcases List.eq_nil_or_concat cs with rfl | ⟨front, x, rfl⟩
  · exact Nat.one_pos
  · have hfront := ofDigits_lt front fun y hy => h y (by simp [hy])
    have hx := h x (by simp)
    rw [List.concat_eq_append, ofDigits_concat, List.length_append, List.length_singleton]
    calc ofDigits base front * base + digitValue x
        < ofDigits base front * base + base := Nat.add_lt_add_left hx _
      _ = (ofDigits base front + 1) * base := (Nat.succ_mul _ _).symm
      _ ≤ Nat.pow base front.length * base := Nat.mul_le_mul_right base hfront
termination_by cs.length

theorem ofDigits_toDigits {base : Nat} (hlow : 1 < base) (hhigh : base ≤ 16) (n : Nat) :
    ofDigits base (Nat.toDigits base n) = n := by
  induction n using Nat.strongRecOn with
  | ind n ih =>
      by_cases hn : n < base
      · have hdigit := digitValue_digitChar (Nat.lt_of_lt_of_le hn hhigh)
        simp [Nat.toDigits_of_lt_base hn, ofDigits, hdigit]
      · have hle : base ≤ n := Nat.le_of_not_lt hn
        have hless : n / base < n := Nat.div_lt_self (by omega) hlow
        have hmod : n % base < 16 := Nat.lt_of_lt_of_le (Nat.mod_lt n (by omega)) hhigh
        rw [Nat.toDigits_of_base_le hlow hle, ofDigits_concat, ih _ hless, digitValue_digitChar hmod]
        exact Nat.div_add_mod' n base

theorem ofDigits_zeros (base count : Nat) (cs : List Char) :
    ofDigits base (List.replicate count '0' ++ cs) = ofDigits base cs := by
  induction count with
  | zero => rfl
  | succ count ih =>
      have hzero : digitValue '0' = 0 := by decide
      rw [List.replicate_succ, List.cons_append]
      simpa [ofDigits, hzero] using ih

theorem exists_digit_of_mem {base n : Nat} {c : Char} (hbase : 1 < base)
    (h : c ∈ Nat.toDigits base n) : ∃ d, d < base ∧ c = Nat.digitChar d := by
  induction n using Nat.strongRecOn with
  | ind n ih =>
      by_cases hn : n < base
      · rw [Nat.toDigits_of_lt_base hn, List.mem_singleton] at h
        exact ⟨n, hn, h⟩
      · have hless : n / base < n := Nat.div_lt_self (by omega) hbase
        rw [Nat.toDigits_of_base_le hbase (Nat.le_of_not_lt hn), List.mem_append,
          List.mem_singleton] at h
        rcases h with h | h
        · exact ih _ hless h
        · exact ⟨n % base, Nat.mod_lt n (by omega), h⟩

theorem head?_toDigits_ne_zero {base n : Nat} (hbase : 1 < base) (hn : n ≠ 0) :
    (Nat.toDigits base n).head? ≠ some '0' := by
  induction n using Nat.strongRecOn with
  | ind n ih =>
      by_cases hlt : n < base
      · simpa [Nat.toDigits_of_lt_base hlt, Nat.digitChar_eq_zero] using hn
      · have hle : base ≤ n := Nat.le_of_not_lt hlt
        have hless : n / base < n := Nat.div_lt_self (by omega) hbase
        have hpos : n / base ≠ 0 := Nat.ne_of_gt (Nat.div_pos hle (by omega))
        have hhead := ih _ hless hpos
        rw [Nat.toDigits_of_base_le hbase hle]
        cases hdigits : Nat.toDigits base (n / base) with
        | nil => exact absurd hdigits Nat.toDigits_ne_nil
        | cons c cs =>
            rw [hdigits] at hhead
            exact hhead

end MysToCpp.Text
