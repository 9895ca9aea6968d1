/-
# What cursors read

`Cursor.Reads c text c'` says that `text` stands between two places of a text.  Everything that moves a
cursor reads some text in this sense, so that no character is passed over without being accounted for.
-/
import MysToCpp.Token.Cursor

namespace MysToCpp.Cursor

/-- `text` stands between `c` and `c'`. -/
def Reads (c : Cursor) (text : List Char) (c' : Cursor) : Prop :=
  c.rest = text ++ c'.rest ∧ c'.position = c.position.afterAll text

theorem Reads.refl (c : Cursor) : c.Reads [] c := ⟨rfl, rfl⟩

theorem Reads.trans {c c₁ c₂ : Cursor} {a b : List Char} (h₁ : c.Reads a c₁)
    (h₂ : c₁.Reads b c₂) : c.Reads (a ++ b) c₂ := by
  refine ⟨?_, ?_⟩
  · rw [h₁.1, h₂.1, List.append_assoc]
  · rw [h₂.2, h₁.2, Position.afterAll_append]

theorem Reads.unique {c c' : Cursor} {a b : List Char} (ha : c.Reads a c') (hb : c.Reads b c') : a = b :=
  List.append_cancel_right (ha.1.symm.trans hb.1)

theorem Reads.length {c c' : Cursor} {text : List Char} (h : c.Reads text c') :
    c.rest.length = text.length + c'.rest.length := by
  rw [h.1, List.length_append]

theorem reads_next {c c' : Cursor} {x : Char} (h : c.next? = some (x, c')) : c.Reads [x] c' := by
  unfold next? at h
  split at h
  · cases h
  · next y ys hr =>
    cases h
    exact ⟨hr, rfl⟩

theorem next?_of_peek {c : Cursor} {x : Char} (h : c.peek? = some x) :
    c.next? = some (x, c.skip) := by
  unfold peek? at h
  cases hr : c.rest with
  | nil =>
      rw [hr] at h
      cases h
  | cons y ys =>
      rw [hr] at h
      cases h
      simp [skip, next?, hr]

theorem reads_skip {c : Cursor} {x : Char} (h : c.peek? = some x) : c.Reads [x] c.skip :=
  reads_next (next?_of_peek h)

theorem rest_eq_nil_of_peek {c : Cursor} (h : c.peek? = none) : c.rest = [] :=
  List.head?_eq_none_iff.mp h

theorem rest_eq_nil_of_next {c : Cursor} (h : c.next? = none) : c.rest = [] := by
  unfold next? at h
  split at h
  · assumption
  · cases h

theorem peek_of_next {c c' : Cursor} {x : Char} (h : c.next? = some (x, c')) : c.peek? = some x := by
  rw [peek?, (reads_next h).1]
  rfl

theorem skip_of_next {c c' : Cursor} {x : Char} (h : c.next? = some (x, c')) : c.skip = c' := by
  rw [skip, h]

theorem skip_of_peek_none {c : Cursor} (h : c.peek? = none) : c.skip = c := by
  simp [skip, next?, rest_eq_nil_of_peek h]

/-- Two characters that were both seen are read by two moves. -/
theorem reads_skip_skip {c : Cursor} {x y : Char} (hx : c.peek? = some x)
    (hy : c.peekSecond? = some y) : c.Reads [x, y] c.skip.skip := by
  have hfirst := reads_skip hx
  have hsecond : c.skip.peek? = some y := by
    have hr := hfirst.1
    unfold peekSecond? at hy
    rw [hr] at hy
    cases hc : c.skip.rest with
    | nil =>
        rw [hc] at hy
        cases hy
    | cons z zs =>
        rw [hc] at hy
        simpa [peek?, hc] using hy
  exact hfirst.trans (reads_skip hsecond)

theorem reads_takeWhile (p : Char → Bool) (c : Cursor) :
    c.Reads (c.takeWhile p).1 (c.takeWhile p).2 :=
  ⟨List.takeWhile_append_dropWhile.symm, rfl⟩

theorem reads_takeAtMost (n : Nat) (p : Char → Bool) (c : Cursor) :
    c.Reads (c.takeAtMost n p).1 (c.takeAtMost n p).2 := by
  refine ⟨?_, rfl⟩
  have htaken : (c.rest.take n).takeWhile p <+: c.rest :=
    (List.takeWhile_prefix p).trans (List.take_prefix n c.rest)
  exact (List.prefix_iff_eq_append.mp htaken).symm

theorem peek?_takeWhile (p : Char → Bool) (c : Cursor) {x : Char}
    (h : (c.takeWhile p).2.peek? = some x) : p x = false := by
  have hx : (c.rest.dropWhile p).head? = some x := h
  have hnot := List.head?_dropWhile_not p c.rest
  rw [hx] at hnot
  simpa using hnot

end MysToCpp.Cursor
