/-
# Words and literals in a line

What code takes over from a program stands in a line: a name that is an identifier, a number by its
digits, and a string written with escapes.  None of them has a bracket outside of quotes, the end of a
line in it, or a blank in front.
-/
import MysToCpp.Proofs.Cpp.Quoted
import MysToCpp.Proofs.Cpp.Tidy
import MysToCpp.Proofs.Text.Decimals
import MysToCpp.Proofs.Token.Spelling

namespace MysToCpp.Cpp

open Lexer (IsIdentifier)

/-! ## Names and numbers -/

theorem isSolid_of_identifier [Text.IdentifierTable] {c : Char} (h : Text.isIdentifierChar c = true) :
    isSolid c = true := by
  have hne (y : Char) (hy : Text.isIdentifierChar y = false) : c ≠ y := by
    rintro rfl
    exact Bool.false_ne_true (hy.symm.trans h)
  simp [isSolid, isPlain, isOpening, Layout.opening?, hne '(' rfl, hne ')' rfl, hne '[' rfl,
    hne ']' rfl, hne '\x7b' rfl, hne '\x7d' rfl, hne '"' rfl, hne '\n' rfl, hne '\r' rfl,
    hne ' ' rfl]

theorem snug_identifier [Text.IdentifierTable] {id : String} (h : IsIdentifier id) : Snug id := by
  refine .of_solid ?_ ?_
  · obtain ⟨first, more, hid, -⟩ := h
    rw [hid]
    exact List.cons_ne_nil _ _
  · refine List.all_eq_true.mpr ?_
    intro c hc
    exact isSolid_of_identifier (h.chars c hc)

theorem isSolid_of_decimal {c : Char} (h : c ∈ Decimal.decimalChars) : isSolid c = true := by
  have hall : Decimal.decimalChars.all isSolid = true := by decide
  exact List.all_eq_true.mp hall c h

theorem snug_nat (n : Nat) : Snug (toString n) := by
  rw [Nat.toString_eq_ofList_toDigits]
  refine .of_solid ?_ ?_
  · rw [String.toList_ofList]
    exact Nat.toDigits_ne_nil
  · rw [String.toList_ofList]
    refine List.all_eq_true.mpr ?_
    intro c hc
    exact isSolid_of_decimal (Decimal.toDigits_subset n hc)

theorem snug_float (x : Binary64) : Snug (floatLiteral x) := by
  refine .of_solid ?_ ?_
  · simp [floatLiteral]
  · refine List.all_eq_true.mpr ?_
    intro c hc
    rw [floatLiteral, String.toList_append, Decimal.render, String.toList_ofList] at hc
    rcases List.mem_append.mp hc with hc | hc
    · exact isSolid_of_decimal (Decimal.write_subset x hc)
    · rw [List.mem_singleton.mp hc]
      decide

/-! ## String literals -/

/-- A text that can stand between the quotes of a literal. -/
structure Quotable (cs : List Char) : Prop where
  read : ∀ opened, Reader.read ⟨opened, .quoted⟩ cs = some ⟨opened, .quoted⟩
  unbroken : Text.Unbroken cs

theorem Quotable.append {cs cs' : List Char} (h : Quotable cs) (h' : Quotable cs') :
    Quotable (cs ++ cs') where
  read opened := by
    rw [Reader.read_append, h.read]
    exact h'.read opened
  unbroken := h.unbroken.append h'.unbroken

theorem quotable_nil : Quotable [] := ⟨fun _ => rfl, Text.unbroken_nil⟩

theorem quotable_flatMap {α : Type} {f : α → List Char} {xs : List α}
    (h : ∀ x ∈ xs, Quotable (f x)) : Quotable (xs.flatMap f) := by
  induction xs with
  | nil => exact quotable_nil
  | cons x xs ih =>
      obtain ⟨hx, hxs⟩ := List.forall_mem_cons.mp h
      rw [List.flatMap_cons]
      exact hx.append (ih hxs)

theorem quotable_single {c : Char} (hslash : c ≠ '\\') (hquote : c ≠ '"') (hline : c ≠ '\n')
    (hreturn : c ≠ '\r') : Quotable [c] where
  read opened := by simp [Reader.read, Reader.step, hslash, hquote]
  unbroken := by simp [Text.Unbroken, hline, hreturn]

/-- Behind a backslash stands anything but the end of a line. -/
theorem quotable_escape {c : Char} (hline : c ≠ '\n') (hreturn : c ≠ '\r') :
    Quotable ['\\', c] where
  read _ := rfl
  unbroken := by simp [Text.Unbroken, hline, hreturn]

theorem quotable_digit {d : Nat} (hd : d < 16) : Quotable [Nat.digitChar d] := by
  have hdigit : ∀ d < 16, Nat.digitChar d ≠ '\\' ∧ Nat.digitChar d ≠ '"' ∧
      Nat.digitChar d ≠ '\n' ∧ Nat.digitChar d ≠ '\r' := by decide
  obtain ⟨hslash, hquote, hline, hreturn⟩ := hdigit d hd
  exact quotable_single hslash hquote hline hreturn

theorem quotable_of_each {cs : List Char} (h : ∀ c ∈ cs, Quotable [c]) : Quotable cs := by
  have hall := quotable_flatMap h
  rwa [List.flatMap_singleton'] at hall

theorem quotable_octalEscape (b : UInt8) : Quotable (octalEscape b) := by
  obtain ⟨first, more, htext, -, hdigits, -⟩ := exists_octalDigits b
  have hquotable (y : Char) (hy : y ∈ first :: more) : Quotable [y] := by
    obtain ⟨d, hd, rfl⟩ := hdigits y hy
    exact quotable_digit (Nat.lt_of_lt_of_le hd (by decide))
  obtain ⟨hfirst, hmore⟩ := List.forall_mem_cons.mp hquotable
  obtain ⟨hline, hreturn⟩ := hfirst.unbroken first List.mem_cons_self
  rw [htext]
  exact (quotable_escape hline hreturn).append (quotable_of_each hmore)

/-- Every character of a string is written so that the literal goes on behind it. -/
theorem quotable_escapeChar (c : Char) : Quotable (escapeChar c) := by
  have hcode (mark : Char) (hmark : mark ≠ '\n' ∧ mark ≠ '\r') (width : Nat) :
      Quotable ('\\' :: mark :: padded width (Nat.toDigits 16 c.toNat)) :=
    (quotable_escape hmark.1 hmark.2).append (quotable_of_each fun y hy => by
      obtain ⟨d, hd, rfl⟩ := digit_of_mem_padded (by decide) hy
      exact quotable_digit hd)
  have hescapes := escapes_escapeChar c
  generalize escapeChar c = text at hescapes ⊢
  cases hescapes with
  | letter hletter =>
      have hunbroken : ∀ p ∈ lettered, p.1 ≠ '\n' ∧ p.1 ≠ '\r' := by decide
      exact quotable_escape (hunbroken _ hletter).1 (hunbroken _ hletter).2
  | octal => exact quotable_flatMap fun b _ => quotable_octalEscape b
  | plain hlow _ hslash hquote =>
      exact quotable_single hslash hquote (ne_lineEnd hlow).1 (ne_lineEnd hlow).2
  | short => exact hcode 'u' (by decide) 4
  | long => exact hcode 'U' (by decide) 8

theorem snug_quote (s : String) : Snug (quote s) := by
  have hbody : Quotable (s.toList.flatMap escapeChar) :=
    quotable_flatMap fun c _ => quotable_escapeChar c
  have htext : (quote s).toList = ['"'] ++ s.toList.flatMap escapeChar ++ ['"'] := by simp [quote]
  have hquote : Text.Unbroken ['"'] := by simp [Text.Unbroken]
  refine ⟨⟨?_, ?_⟩, '"', _, htext, by decide, by decide⟩
  · intro outer
    have hopen : Reader.read ⟨outer, .code⟩ ['"'] = some ⟨outer, .quoted⟩ := rfl
    rw [htext, Reader.read_append, Reader.read_append, List.nil_append, hopen, Option.bind_some,
      hbody.read, Option.bind_some]
    rfl
  · rw [htext]
    exact (hquote.append hbody.unbroken).append hquote

end MysToCpp.Cpp
