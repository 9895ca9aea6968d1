/-
# Positions while reading and positions looked up

A lexer counts lines and columns as it moves over characters; a file looks an offset up in its table of
line starts.  Wherever a lexer comes to, the file says the same of the offset there, and the positions of
offsets stand in the order of the offsets (`positionAt_agrees`).  Both rest on one fact: the file's answer
for an offset between two characters is where one comes to over the characters before it.
-/
import Mathlib.Logic.Function.Iterate
import MysToCpp.Proofs.Source.Place
import MysToCpp.Proofs.Token.Cursor
import MysToCpp.Token.Lexer

namespace MysToCpp

/-! ## The order of positions -/

namespace Position

/-- On an earlier line, or on the same line at an earlier column. -/
def Precedes (p q : Position) : Prop := p.line < q.line ∨ p.line = q.line ∧ p.column < q.column

theorem Precedes.trans {p q r : Position} (hpq : p.Precedes q) (hqr : q.Precedes r) : p.Precedes r := by
  unfold Precedes at *
  omega

theorem precedes_after (p : Position) (x : Char) : p.Precedes (p.after x) := by
  by_cases hx : x = '\n'
  · rw [hx, after_newline]
    exact .inl (Nat.lt_succ_self _)
  · rw [after_other p hx]
    exact .inr ⟨rfl, Nat.lt_succ_self _⟩

theorem precedes_afterAll (p : Position) (x : Char) (text : List Char) :
    p.Precedes (p.afterAll (x :: text)) := by
  induction text generalizing p x with
  | nil => exact p.precedes_after x
  | cons y text ih => exact (p.precedes_after x).trans (ih (p.after x) y)

end Position

/-! ## Moving over characters one by one -/

namespace Lexer

def advance (lx : Lexer) : Lexer := lx.moveTo lx.cursor.skip

theorem reads_advance (lx : Lexer) : lx.cursor.Reads (lx.cursor.rest.take 1) lx.advance.cursor := by
  cases hpeek : lx.cursor.peek? with
  | none =>
      have hrest := Cursor.rest_eq_nil_of_peek hpeek
      have hstay : lx.advance.cursor = lx.cursor := Cursor.skip_of_peek_none hpeek
      rw [hrest, hstay]
      exact .refl _
  | some x =>
      have hreads : lx.cursor.Reads [x] lx.advance.cursor := Cursor.reads_skip hpeek
      have hfirst : lx.cursor.rest.take 1 = [x] := by rw [hreads.1]; rfl
      rw [hfirst]
      exact hreads

/-- Moves pass over the characters from the first on, one each, up to the end of the text. -/
theorem reads_iterate_advance (lx : Lexer) (k : Nat) :
    lx.cursor.Reads (lx.cursor.rest.take k) (advance^[k] lx).cursor := by
  induction k with
  | zero => exact .refl _
  | succ k ih =>
      have hbehind : (advance^[k] lx).cursor.rest = lx.cursor.rest.drop k := by
        have hsplit := (List.take_append_drop k lx.cursor.rest).trans ih.1
        exact (List.append_cancel_left hsplit).symm
      have hstep := reads_advance (advance^[k] lx)
      rw [hbehind, ← Function.iterate_succ_apply' advance] at hstep
      rw [List.take_add]
      exact ih.trans hstep

end Lexer

/-! ## Offsets of a file -/

namespace SourceFile

open Position (origin)

/-- An offset between two characters of a file, or at one of its ends. -/
def Boundary (file : SourceFile) (offset : Nat) : Prop :=
  ∃ before after, file.chars = before ++ after ∧ offset = byteLength before

theorem exists_between {text a b c d : List Char} (hab : text = a ++ b) (hcd : text = c ++ d)
    (h : byteLength a < byteLength c) : ∃ x between, c = a ++ x :: between := by
  have ha : a <+: text := ⟨b, hab.symm⟩
  have hc : c <+: text := ⟨d, hcd.symm⟩
  rcases List.prefix_or_prefix_of_prefix ha hc with ⟨between, rfl⟩ | ⟨between, rfl⟩
  · cases between with
    | nil => exact absurd h (by simp)
    | cons x between => exact ⟨x, between, rfl⟩
  · rw [byteLength_append] at h
    omega

theorem positionAt_precedes {file : SourceFile} {o₁ o₂ : Nat} (h₁ : file.Boundary o₁)
    (h₂ : file.Boundary o₂) (hlt : o₁ < o₂) : (file.positionAt o₁).Precedes (file.positionAt o₂) := by
  obtain ⟨a, b, hab, rfl⟩ := h₁
  obtain ⟨c, d, hcd, rfl⟩ := h₂
  rw [positionAt_place file hab, positionAt_place file hcd]
  obtain ⟨x, between, rfl⟩ := exists_between hab hcd hlt
  rw [Position.afterAll_append]
  exact Position.precedes_afterAll _ x between

/-- After any number of moves over characters a lexer stands behind as many of them, or at the end of the
text, and where it stands is what the file says of the offset there.  The positions of two offsets between
characters are in the order of the offsets. -/
theorem positionAt_agrees (name source : String) :
    let file : SourceFile := ⟨name, source⟩
    (∀ k, (Lexer.advance^[k] (.ofText source)).cursor.rest = source.toList.drop k ∧
      (Lexer.advance^[k] (.ofText source)).position =
        file.positionAt (Lexer.advance^[k] (.ofText source)).position.offset) ∧
    ∀ o₁ o₂, file.Boundary o₁ → file.Boundary o₂ → o₁ < o₂ →
      (file.positionAt o₁).Precedes (file.positionAt o₂) := by
  intro file
  refine ⟨?_, fun o₁ o₂ => positionAt_precedes⟩
  intro k
  obtain ⟨hrest, hposition⟩ := Lexer.reads_iterate_advance (.ofText source) k
  generalize Lexer.advance^[k] (.ofText source) = lx at hrest hposition ⊢
  have hchars : file.chars = source.toList.take k ++ lx.cursor.rest := hrest
  have hplace : lx.position = origin.afterAll (source.toList.take k) := hposition
  constructor
  · have hsplit := hchars.symm.trans (List.take_append_drop k source.toList).symm
    exact List.append_cancel_left hsplit
  · rw [hplace, Position.offset_origin, positionAt_place file hchars]

/-- Behind `é`, a line feed and `😀` a lexer is in column two of line two, at the offset seven, and the
offset three of that text, at the start of the line, comes before it. -/
theorem positionAt_agrees_sample :
    let source := "é\n😀x"
    let file : SourceFile := ⟨"a.mys", source⟩
    let lx := Lexer.advance^[3] (.ofText source)
    lx.cursor.rest = ['x'] ∧ lx.position = ⟨2, 2, 7⟩ ∧ file.positionAt 7 = ⟨2, 2, 7⟩ ∧
      file.Boundary 3 ∧ file.Boundary 7 ∧ 3 < 7 ∧ (file.positionAt 3).Precedes (file.positionAt 7) := by
  intro source file lx
  obtain ⟨hread, horder⟩ := positionAt_agrees "a.mys" source
  have hline : file.Boundary 3 := ⟨['é', '\n'], ['😀', 'x'], by decide, by decide⟩
  have hlast : file.Boundary 7 := ⟨['é', '\n', '😀'], ['x'], by decide, by decide⟩
  have hposition : lx.position = ⟨2, 2, 7⟩ := by decide
  have hagrees : lx.position = file.positionAt lx.position.offset := (hread 3).2
  rw [hposition] at hagrees
  have hrest : lx.cursor.rest = ['x'] := (hread 3).1.trans (by decide)
  exact ⟨hrest, hposition, hagrees.symm, hline, hlast, by decide, horder 3 7 hline hlast (by decide)⟩

end SourceFile

end MysToCpp
