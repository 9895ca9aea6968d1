/-
# Cutting texts at byte offsets

`slice?` cuts a text where the byte offsets of its parts say, and positions count the bytes that they
have moved over.
-/
import MysToCpp.Source.File

namespace MysToCpp

theorem byteLength_append (a b : List Char) :
    byteLength (a ++ b) = byteLength a + byteLength b := by
  induction a with
  | nil => exact (Nat.zero_add _).symm
  | cons x a ih =>
      show x.utf8Size + byteLength (a ++ b) = x.utf8Size + byteLength a + byteLength b
      rw [ih, Nat.add_assoc]

theorem byteLength_cons (x : Char) (a : List Char) :
    ∃ n, byteLength (x :: a) = n + 1 ∧ x.utf8Size ≤ n + 1 ∧
      n + 1 - x.utf8Size = byteLength a := by
  have hpos := x.utf8Size_pos
  refine ⟨x.utf8Size - 1 + byteLength a, ?_, by omega, by omega⟩
  show x.utf8Size + byteLength a = _
  omega

theorem dropBytes?_append (a b : List Char) : dropBytes? (byteLength a) (a ++ b) = some b := by
  induction a with
  | nil => cases b <;> rfl
  | cons x a ih =>
      obtain ⟨n, hn, hle, hrest⟩ := byteLength_cons x a
      rw [hn, List.cons_append, dropBytes?, if_pos hle, hrest, ih]

theorem takeBytes?_append (a b : List Char) : takeBytes? (byteLength a) (a ++ b) = some a := by
  induction a with
  | nil => cases b <;> rfl
  | cons x a ih =>
      obtain ⟨n, hn, hle, hrest⟩ := byteLength_cons x a
      rw [hn, List.cons_append, takeBytes?, if_pos hle, hrest, ih]
      rfl

theorem prefix_of_takeBytes {n : Nat} {cs a : List Char} (h : takeBytes? n cs = some a) : a <+: cs := by
  induction cs generalizing n a with
  | nil =>
      cases n with
      | zero =>
          cases h
          exact List.nil_prefix
      | succ n => cases h
  | cons x cs ih =>
      cases n with
      | zero =>
          cases h
          exact List.nil_prefix
      | succ n =>
          rw [takeBytes?] at h
          split at h
          · obtain ⟨more, hmore, rfl⟩ := Option.map_eq_some_iff.mp h
            exact List.cons_prefix_cons.mpr ⟨rfl, ih hmore⟩
          · cases h

/-- What stands at an offset stands at the start of the text behind it. -/
theorem prefix_of_slice {lo hi : Nat} {cs a behind : List Char} (h : slice? lo hi cs = some a)
    (hbehind : dropBytes? lo cs = some behind) : a <+: behind := by
  unfold slice? at h
  split at h
  · rw [hbehind, Option.bind_some] at h
    exact prefix_of_takeBytes h
  · cases h

theorem slice?_append (a b c : List Char) :
    slice? (byteLength a) (byteLength (a ++ b)) (a ++ (b ++ c)) = some b := by
  have hle : byteLength a ≤ byteLength (a ++ b) := by
    rw [byteLength_append]
    exact Nat.le_add_right _ _
  have hlen : byteLength (a ++ b) - byteLength a = byteLength b := by
    rw [byteLength_append, Nat.add_sub_cancel_left]
  rw [slice?, if_pos hle, dropBytes?_append, Option.bind_some, hlen, takeBytes?_append]

theorem Position.offset_after (p : Position) (x : Char) :
    (p.after x).offset = p.offset + x.utf8Size := by
  unfold Position.after
  split
  · next h => rw [h]; rfl
  · rfl

theorem Position.offset_afterAll (p : Position) (cs : List Char) :
    (p.afterAll cs).offset = p.offset + byteLength cs := by
  induction cs generalizing p with
  | nil => rfl
  | cons x cs ih =>
      rw [afterAll_cons, ih, offset_after, Nat.add_assoc]
      rfl

end MysToCpp
