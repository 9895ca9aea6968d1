/-
# Texts that are read alike

The lexer reads two texts alike if they differ only in how their lines end, or only behind some line.
A `Variation` says which of this is allowed, and `Variation.Matches` relates what is still to be read of
the one to what is still to be read of the other.

* With `returns` every line of the second text ends with a return and a line feed.
* With `cut` the texts agree up to the end of some line, and go on with the two texts it gives.
* With neither they are equal, and only the positions in them may be different.

A run of characters without line ends is the same in both texts; so whatever a scanner looks at, it finds
the same in both, until it comes to a line end.
-/
import MysToCpp.Proofs.Token.Cursor

namespace MysToCpp

/-- How two texts may differ. -/
structure Variation where
  /-- Whether the lines of the second text end with a return and a line feed. -/
  returns : Bool := false
  /-- What follows the line behind which the texts are different. -/
  cut : Option (List Char × List Char) := none

namespace Variation

/-- What is to be read of the two texts, as long as they do not part. -/
inductive Matches (v : Variation) : List Char → List Char → Prop
  | nil : v.cut = none → Matches v [] []
  | same {a b : List Char} (x : Char) : (v.returns = true → x ≠ '\r') → Matches v a b →
      Matches v (x :: a) (x :: b)
  | lineEnd {a b : List Char} : v.returns = true → Matches v a b →
      Matches v ('\n' :: a) ('\r' :: '\n' :: b)
  | cut {a b : List Char} : v.cut = some (a, b) → Matches v ('\n' :: a) ('\n' :: b)

/-- What is to be read of the two texts, also where they part. -/
def Follows (v : Variation) (a b : List Char) : Prop := v.Matches a b ∨ v.cut = some (a, b)

/-- The place where the texts part is not passed. -/
def Within (v : Variation) (cs : List Char) : Prop := ∀ a b, v.cut = some (a, b) → a.length ≤ cs.length

/-- The place where the texts part is not reached. -/
def Before (v : Variation) (cs : List Char) : Prop := ∀ a b, v.cut = some (a, b) → a.length < cs.length

variable {v : Variation} {a b cs ds : List Char}

theorem Before.within (h : v.Before cs) : v.Within cs := fun a b hcut => Nat.le_of_lt (h a b hcut)

theorem Within.mono (h : v.Within cs) (hle : cs.length ≤ ds.length) : v.Within ds :=
  fun a b hcut => Nat.le_trans (h a b hcut) hle

theorem Within.before (h : v.Within cs) (hlt : cs.length < ds.length) : v.Before ds :=
  fun a b hcut => Nat.lt_of_le_of_lt (h a b hcut) hlt

theorem Before.mono (h : v.Before cs) (hle : cs.length ≤ ds.length) : v.Before ds :=
  fun a b hcut => Nat.lt_of_lt_of_le (h a b hcut) hle

theorem Matches.before (h : v.Matches a b) : v.Before a := by
  intro c d hcut
  induction h with
  | nil hnone => exact absurd (hnone.symm.trans hcut) nofun
  | same _ _ _ ih => exact Nat.lt_succ_of_lt ih
  | lineEnd _ _ ih => exact Nat.lt_succ_of_lt ih
  | cut hcut' =>
      cases hcut'.symm.trans hcut
      exact Nat.lt_succ_self _

/-- Before they part, the texts match. -/
theorem Follows.matches (h : v.Follows a b) (hbefore : v.Before a) : v.Matches a b := by
  rcases h with h | hcut
  · exact h
  · exact absurd (hbefore a b hcut) (Nat.lt_irrefl _)

theorem Matches.eq_nil (h : v.Matches [] b) : b = [] ∧ v.cut = none := by
  cases h with
  | nil hcut => exact ⟨rfl, hcut⟩

theorem Matches.refl (hreturns : v.returns = false) (hcut : v.cut = none) (cs : List Char) :
    v.Matches cs cs := by
  induction cs with
  | nil => exact .nil hcut
  | cons x cs ih => exact .same x (fun h => absurd (hreturns.symm.trans h) Bool.false_ne_true) ih

theorem Matches.cons {x : Char} (h : v.Matches (x :: a) cs) (hx : x ≠ '\n') :
    ∃ b, cs = x :: b ∧ v.Matches a b := by
  cases h with
  | same _ _ hmatches => exact ⟨_, rfl, hmatches⟩
  | lineEnd => exact absurd rfl hx
  | cut => exact absurd rfl hx

theorem Matches.newline (h : v.Matches ('\n' :: a) cs) :
    ∃ b, v.Follows a b ∧ (cs = '\n' :: b ∨ v.returns = true ∧ cs = '\r' :: '\n' :: b) := by
  cases h with
  | same _ _ hmatches => exact ⟨_, .inl hmatches, .inl rfl⟩
  | lineEnd hreturns hmatches => exact ⟨_, .inl hmatches, .inr ⟨hreturns, rfl⟩⟩
  | cut hcut => exact ⟨_, .inr hcut, .inl rfl⟩

/-! ## Runs of characters -/

section

variable {p : Char → Bool}

theorem Matches.takeWhile (h : v.Matches a b) (hfeed : p '\n' = false) (hreturn : p '\r' = false) :
    b.takeWhile p = a.takeWhile p ∧ v.Matches (a.dropWhile p) (b.dropWhile p) := by
  induction h with
  | nil hcut => exact ⟨rfl, .nil hcut⟩
  | same x hx hmatches ih =>
      rw [List.takeWhile_cons, List.takeWhile_cons, List.dropWhile_cons, List.dropWhile_cons]
      split
      · exact ⟨congrArg (x :: ·) ih.1, ih.2⟩
      · exact ⟨rfl, .same x hx hmatches⟩
  | lineEnd hr hmatches =>
      simp only [List.takeWhile_cons, List.dropWhile_cons, hfeed, hreturn, Bool.false_eq_true, if_false]
      exact ⟨trivial, .lineEnd hr hmatches⟩
  | cut hcut =>
      simp only [List.takeWhile_cons, List.dropWhile_cons, hfeed, Bool.false_eq_true, if_false]
      exact ⟨trivial, .cut hcut⟩

theorem Matches.takeAtMost (h : v.Matches a b) (hfeed : p '\n' = false) (hreturn : p '\r' = false)
    (n : Nat) : (b.take n).takeWhile p = (a.take n).takeWhile p ∧
      v.Matches (a.drop ((a.take n).takeWhile p).length) (b.drop ((a.take n).takeWhile p).length) := by
  induction h generalizing n with
  | nil hcut =>
      rw [List.take_nil]
      exact ⟨rfl, .nil hcut⟩
  | @same a b x hx hmatches ih =>
      cases n with
      | zero => exact ⟨rfl, .same x hx hmatches⟩
      | succ n =>
          obtain ⟨hrun, hrest⟩ := ih n
          rw [List.take_succ_cons, List.take_succ_cons, List.takeWhile_cons, List.takeWhile_cons]
          split
          · exact ⟨congrArg (x :: ·) hrun, hrest⟩
          · exact ⟨rfl, .same x hx hmatches⟩
  | lineEnd hr hmatches =>
      cases n with
      | zero => exact ⟨rfl, .lineEnd hr hmatches⟩
      | succ n =>
          simp only [List.take_succ_cons, List.takeWhile_cons, hfeed, hreturn, Bool.false_eq_true,
            if_false]
          exact ⟨trivial, .lineEnd hr hmatches⟩
  | cut hcut =>
      cases n with
      | zero => exact ⟨rfl, .cut hcut⟩
      | succ n =>
          simp only [List.take_succ_cons, List.takeWhile_cons, hfeed, Bool.false_eq_true, if_false]
          exact ⟨trivial, .cut hcut⟩

end

/-! ## Cursors -/

section

variable {c c' : Cursor} {x : Char}

/-- The next characters are the same, or there is none, or a line ends. -/
theorem Matches.peek (h : v.Matches c.rest c'.rest) :
    (∃ x, c.peek? = some x ∧ c'.peek? = some x ∧ v.Matches c.skip.rest c'.skip.rest) ∨
    (c.peek? = none ∧ c'.peek? = none) ∨
    (c.peek? = some '\n' ∧ (c'.peek? = some '\n' ∨ c'.peek? = some '\r')) := by
  obtain ⟨rest, position⟩ := c
  obtain ⟨rest', position'⟩ := c'
  cases h with
  | nil => exact .inr (.inl ⟨rfl, rfl⟩)
  | same x _ hmatches => exact .inl ⟨x, rfl, rfl, hmatches⟩
  | lineEnd => exact .inr (.inr ⟨rfl, .inr rfl⟩)
  | cut => exact .inr (.inr ⟨rfl, .inl rfl⟩)

theorem Matches.peek_iff (h : v.Matches c.rest c'.rest) (hfeed : x ≠ '\n') (hreturn : x ≠ '\r') :
    c'.peek? = some x ↔ c.peek? = some x := by
  rcases h.peek with ⟨y, hy, hy', -⟩ | ⟨hnone, hnone'⟩ | ⟨hy, hy' | hy'⟩
  · rw [hy, hy']
  · rw [hnone, hnone']
  · rw [hy, hy']
  · rw [hy, hy']
    simp [hfeed.symm, hreturn.symm]

theorem Matches.skip (h : v.Matches c.rest c'.rest) (hx : c.peek? = some x) (hne : x ≠ '\n') :
    v.Matches c.skip.rest c'.skip.rest := by
  rcases h.peek with ⟨-, -, -, hskip⟩ | ⟨hnone, -⟩ | ⟨hnewline, -⟩
  · exact hskip
  · rw [hx] at hnone
    cases hnone
  · rw [hx] at hnewline
    exact absurd (Option.some.inj hnewline) hne

theorem Matches.next (h : v.Matches c.rest c'.rest) {c₁ : Cursor} (hx : c.next? = some (x, c₁))
    (hne : x ≠ '\n') : ∃ c₁', c'.next? = some (x, c₁') ∧ v.Matches c₁.rest c₁'.rest := by
  have hreads := Cursor.reads_next hx
  rw [hreads.1] at h
  obtain ⟨b, hrest, hmatches⟩ := h.cons hne
  exact ⟨⟨b, c'.position.after x⟩, by rw [Cursor.next?, hrest], hmatches⟩

/-- Two readings with the same answer, and the same in front of them. -/
def Same (v : Variation) {α : Type} (r r' : α × Cursor) : Prop :=
  r'.1 = r.1 ∧ v.Matches r.2.rest r'.2.rest

variable {p : Char → Bool}

theorem Matches.same_takeWhile (h : v.Matches c.rest c'.rest) (hfeed : p '\n' = false)
    (hreturn : p '\r' = false) : v.Same (c.takeWhile p) (c'.takeWhile p) :=
  h.takeWhile hfeed hreturn

theorem Matches.same_takeAtMost (h : v.Matches c.rest c'.rest) (hfeed : p '\n' = false)
    (hreturn : p '\r' = false) (n : Nat) : v.Same (c.takeAtMost n p) (c'.takeAtMost n p) := by
  obtain ⟨hrun, hrest⟩ := h.takeAtMost hfeed hreturn n
  refine ⟨hrun, ?_⟩
  show v.Matches (c.rest.drop _) (c'.rest.drop ((c'.rest.take n).takeWhile p).length)
  rw [hrun]
  exact hrest

end

end Variation

end MysToCpp
