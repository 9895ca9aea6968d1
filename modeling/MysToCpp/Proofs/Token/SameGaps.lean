/-
# The same gaps are passed

Blanks, comments and, inside of brackets, line ends are passed alike in two texts that match.  Behind them
both texts go on with the same character (`Variation.Level`): a return in front of a line feed counts as a
blank, so that it is passed even where the line feed is not.
-/
import MysToCpp.Proofs.Token.Reading
import MysToCpp.Proofs.Token.Variation

namespace MysToCpp.Variation

open Cursor (reads_next reads_skip rest_skip peek?_of_rest)
open Lexer (isGap)

variable {v : Variation} {c c' c₁ : Cursor} {x : Char}

theorem Follows.newline {a b : List Char} (h : v.Follows a b) : v.Matches ('\n' :: a) ('\n' :: b) := by
  rcases h with h | hcut
  · exact .same '\n' (fun _ => by decide) h
  · exact .cut hcut

/-- The cursors stand in front of the same character, a return in front of a line feed being passed. -/
structure Level (v : Variation) (c c' : Cursor) : Prop where
  rest : v.Matches c.rest c'.rest
  peek : c'.peek? = c.peek?

theorem Level.next (h : v.Level c c') (hx : c.next? = some (x, c₁)) :
    ∃ c₁', c'.next? = some (x, c₁') ∧ v.Follows c₁.rest c₁'.rest ∧
      (x ≠ '\n' → v.Matches c₁.rest c₁'.rest) := by
  by_cases hfeed : x = '\n'
  · subst hfeed
    have hmatches := h.rest
    rw [(reads_next hx).1] at hmatches
    obtain ⟨b, hfollows, hrest | ⟨-, hrest⟩⟩ := hmatches.newline
    · exact ⟨⟨b, _⟩, by rw [Cursor.next?, hrest], hfollows, fun hne => absurd rfl hne⟩
    · have hpeek := h.peek
      rw [Cursor.peek_of_next hx, peek?_of_rest hrest] at hpeek
      exact absurd (Option.some.inj hpeek) (by decide)
  · obtain ⟨c₁', hx', hmatches⟩ := h.rest.next hx hfeed
    exact ⟨c₁', hx', .inl hmatches, fun _ => hmatches⟩

theorem Level.next_none (h : v.Level c c') (hend : c.next? = none) : c'.rest = [] ∧ v.cut = none := by
  have hmatches := h.rest
  rw [Cursor.rest_eq_nil_of_next hend] at hmatches
  exact hmatches.eq_nil

theorem Level.skip (h : v.Level c c') : v.Follows c.skip.rest c'.skip.rest := by
  cases hx : c.next? with
  | none =>
      have hx' : c'.next? = none := by rw [Cursor.next?, (h.next_none hx).1]
      rw [Cursor.skip, Cursor.skip, hx, hx']
      exact .inl h.rest
  | some next =>
      obtain ⟨x, c₁⟩ := next
      obtain ⟨c₁', hx', hfollows, -⟩ := h.next hx
      rw [Cursor.skip, Cursor.skip, hx, hx']
      exact hfollows

theorem Matches.dropComment {a b : List Char} (h : v.Matches a b) :
    v.Matches (a.dropWhile (· ≠ '\n')) (b.dropWhile (· ≠ '\n')) ∧
      (b.dropWhile (· ≠ '\n')).head? = (a.dropWhile (· ≠ '\n')).head? := by
  induction h with
  | nil hcut => exact ⟨.nil hcut, rfl⟩
  | same x hx hmatches ih =>
      rw [List.dropWhile_cons, List.dropWhile_cons]
      split
      · exact ih
      · exact ⟨.same x hx hmatches, rfl⟩
  | lineEnd _ hmatches => exact ⟨Follows.newline (.inl hmatches), rfl⟩
  | cut hcut => exact ⟨.cut hcut, rfl⟩

/-- Comments end with their line. -/
theorem Matches.skipComment (h : v.Matches c.rest c'.rest) :
    v.Level (Lexer.skipComment c) (Lexer.skipComment c') :=
  ⟨h.dropComment.1, h.dropComment.2⟩

theorem skipGaps_at_end (inBrackets : Bool) (fuel : Nat) (hend : c.peek? = none) :
    Lexer.skipGaps inBrackets fuel c = c := by
  cases fuel with
  | zero => rfl
  | succ fuel => simp [Lexer.skipGaps, hend]

theorem skipGaps_gap {inBrackets : Bool} {fuel : Nat} (hx : c.peek? = some x)
    (hgap : (isGap x || (x = '\n' && inBrackets)) = true) :
    Lexer.skipGaps inBrackets (fuel + 1) c = Lexer.skipGaps inBrackets fuel c.skip := by
  simp only [Lexer.skipGaps, hx, hgap, if_true]

theorem skipGaps_newline (fuel : Nat) (hx : c.peek? = some '\n') : Lexer.skipGaps false fuel c = c := by
  cases fuel with
  | zero => rfl
  | succ fuel => simp [Lexer.skipGaps, hx, isGap]

theorem length_skipGaps_le (inBrackets : Bool) (fuel : Nat) (c : Cursor) :
    (Lexer.skipGaps inBrackets fuel c).rest.length ≤ c.rest.length :=
  (Lexer.passes_skipGaps inBrackets fuel c).1.length_le

/-- A return in front of a line feed is a blank like others. -/
theorem skipGaps_return {b : List Char} {inBrackets : Bool} {fuel : Nat}
    (hrest : c.rest = '\n' :: b ∨ v.returns = true ∧ c.rest = '\r' :: '\n' :: b)
    (hlen : c.rest.length ≤ fuel) : ∃ c₁ fuel₁, c₁.rest = '\n' :: b ∧ b.length < fuel₁ ∧
      Lexer.skipGaps inBrackets fuel c = Lexer.skipGaps inBrackets fuel₁ c₁ := by
  rcases hrest with hrest | ⟨-, hrest⟩
  · exact ⟨c, fuel, hrest, by rw [hrest, List.length_cons] at hlen; omega, rfl⟩
  · rw [hrest, List.length_cons, List.length_cons] at hlen
    obtain ⟨fuel, rfl⟩ : ∃ k, fuel = k + 1 := ⟨fuel - 1, by omega⟩
    exact ⟨c.skip, fuel, rest_skip hrest, by omega, skipGaps_gap (peek?_of_rest hrest) rfl⟩

/-- The same gaps are passed, as long as the place where the texts part is not passed with them. -/
theorem Matches.skipGaps (inBrackets : Bool) (fuel : Nat) : ∀ {c c' : Cursor},
    v.Matches c.rest c'.rest → c.rest.length ≤ fuel →
    (inBrackets = true → v.Before (Lexer.skipGaps inBrackets fuel c).rest) →
    ∀ fuel', c'.rest.length ≤ fuel' →
      v.Level (Lexer.skipGaps inBrackets fuel c) (Lexer.skipGaps inBrackets fuel' c') := by
  induction fuel with
  | zero =>
      intro c c' h hlen _ fuel' _
      have hrest : c.rest = [] := List.eq_nil_of_length_eq_zero (Nat.le_zero.mp hlen)
      have hrest' : c'.rest = [] := by
        rw [hrest] at h
        exact h.eq_nil.1
      rw [skipGaps_at_end inBrackets fuel' (by rw [Cursor.peek?, hrest']; rfl)]
      exact ⟨h, by rw [Lexer.skipGaps, Cursor.peek?, Cursor.peek?, hrest, hrest']⟩
  | succ fuel ih =>
      intro c c' h hlen hbefore fuel' hlen'
      rcases hrest : c.rest with - | ⟨x, a⟩
      · rw [hrest] at h
        have hend : c.peek? = none := by rw [Cursor.peek?, hrest]; rfl
        have hend' : c'.peek? = none := by rw [Cursor.peek?, h.eq_nil.1]; rfl
        rw [skipGaps_at_end inBrackets _ hend, skipGaps_at_end inBrackets _ hend']
        exact ⟨by rw [hrest]; exact h, by rw [hend, hend']⟩
      · have hx := peek?_of_rest hrest
        have hskip := rest_skip hrest
        have hlen₁ : c.skip.rest.length ≤ fuel := by
          rw [hrest, List.length_cons] at hlen
          rw [hskip]
          omega
        have hboth := h
        rw [hrest] at h
        by_cases hfeed : x = '\n'
        · subst hfeed
          obtain ⟨b, hfollows, hright⟩ := h.newline
          obtain ⟨c₂, fuel₂, hrest₂, hlen₂, hsame⟩ := skipGaps_return hright hlen'
          have hx₂ := peek?_of_rest hrest₂
          rw [hsame]
          cases inBrackets with
          | false =>
              rw [skipGaps_newline _ hx, skipGaps_newline _ hx₂]
              exact ⟨by rw [hrest, hrest₂]; exact hfollows.newline, by rw [hx, hx₂]⟩
          | true =>
              have hbefore₁ := hbefore rfl
              have hskip₂ := rest_skip hrest₂
              obtain ⟨fuel₂, rfl⟩ : ∃ k, fuel₂ = k + 1 := ⟨fuel₂ - 1, by omega⟩
              rw [skipGaps_gap hx rfl] at hbefore₁
              rw [skipGaps_gap hx rfl, skipGaps_gap hx₂ rfl]
              rw [← hskip, ← hskip₂] at hfollows
              exact ih (hfollows.matches (hbefore₁.mono (length_skipGaps_le true fuel c.skip))) hlen₁
                (fun _ => hbefore₁) fuel₂ (by rw [hskip₂]; omega)
        · obtain ⟨b, hrest', hmatches⟩ := h.cons hfeed
          have hx' := peek?_of_rest hrest'
          have hskip' := rest_skip hrest'
          have hlen₁' := hlen'
          rw [hrest', List.length_cons] at hlen₁'
          obtain ⟨fuel', rfl⟩ : ∃ k, fuel' = k + 1 := ⟨fuel' - 1, by omega⟩
          simp only [Lexer.skipGaps, hx, hx'] at hbefore ⊢
          split
          · next hgap =>
            rw [if_pos hgap] at hbefore
            exact ih (by rw [hskip, hskip']; exact hmatches) hlen₁ hbefore fuel'
              (by rw [hskip']; omega)
          · next hgap =>
            rw [if_neg hgap] at hbefore
            split
            · next hhash =>
              subst hhash
              rw [if_pos rfl] at hbefore
              have hcomment := hboth.skipComment
              have hless := (Lexer.passes_comment hx).2
              have hless' := (Lexer.passes_comment hx').2
              exact ih hcomment.rest (by omega) hbefore fuel' (by omega)
            · exact ⟨hboth, by rw [hx, hx']⟩

end MysToCpp.Variation
