/-
# Places of a text

A position is a place of a text if it is where one comes to over some of its characters.  A file knows
the same position in another way: it looks up the byte offset in its table of line starts and counts the
characters behind the start of the line.  The two agree at every place (`SourceFile.positionAt_place`),
so that a span between two places of a file points into it.  Spans that follow each other are `InOrder`.
-/
import Mathlib.Data.List.DropRight
import MysToCpp.Proofs.Source.Slice

namespace MysToCpp

def lastLine (text : List Char) : List Char := text.rtakeWhile (· ≠ '\n')

theorem lastLine_newline (text : List Char) : lastLine (text ++ ['\n']) = [] :=
  List.rtakeWhile_concat_neg _ _ _ (by decide)

theorem lastLine_snoc (text : List Char) {x : Char} (h : x ≠ '\n') :
    lastLine (text ++ [x]) = lastLine text ++ [x] :=
  List.rtakeWhile_concat_pos _ _ _ (decide_eq_true h)

namespace Position

/-- `p` is where one comes to over some characters of a text. -/
def IsPlace (text : List Char) (p : Position) : Prop :=
  ∃ before after, text = before ++ after ∧ p = origin.afterAll before

theorem after_newline (p : Position) : p.after '\n' = ⟨p.line + 1, 1, p.offset + 1⟩ := rfl

theorem after_other (p : Position) {x : Char} (h : x ≠ '\n') :
    p.after x = ⟨p.line, p.column + 1, p.offset + x.utf8Size⟩ := if_neg h

theorem offset_origin (text : List Char) : (origin.afterAll text).offset = byteLength text := by
  rw [offset_afterAll]
  exact Nat.zero_add _

theorem column_origin (text : List Char) :
    (origin.afterAll text).column = (lastLine text).length + 1 := by
  induction text using List.reverseRecOn with
  | nil => rfl
  | append_singleton text x ih =>
      rw [afterAll_append, afterAll_cons, afterAll_nil]
      by_cases hx : x = '\n'
      · rw [hx, after_newline, lastLine_newline]
        rfl
      · rw [after_other _ hx, lastLine_snoc _ hx, List.length_append, ih]
        rfl

end Position

namespace SourceFile

open Position (origin)

/-! ## The table of line starts -/

theorem startsAfter_append (offset : Nat) (a b : List Char) :
    startsAfter offset (a ++ b) = startsAfter offset a ++ startsAfter (offset + byteLength a) b := by
  induction a generalizing offset with
  | nil => rfl
  | cons x a ih =>
      have hoffset : offset + x.utf8Size + byteLength a = offset + byteLength (x :: a) := by
        rw [Nat.add_assoc]
        rfl
      simp only [List.cons_append, startsAfter, ih, hoffset]
      split <;> rfl

/-- The line starts in a text are behind its first byte and not behind its last. -/
theorem startsAfter_bounds {offset start : Nat} {text : List Char}
    (h : start ∈ startsAfter offset text) :
    offset < start ∧ start ≤ offset + byteLength text := by
  induction text generalizing offset with
  | nil => exact absurd h List.not_mem_nil
  | cons x text ih =>
      have hpos := x.utf8Size_pos
      have hlen : byteLength (x :: text) = x.utf8Size + byteLength text := rfl
      have hrest (hr : start ∈ startsAfter (offset + x.utf8Size) text) :
          offset < start ∧ start ≤ offset + byteLength (x :: text) := by
        have := ih hr
        omega
      simp only [startsAfter] at h
      split at h
      · rcases List.mem_cons.mp h with rfl | hr
        · omega
        · exact hrest hr
      · exact hrest h

/-- The lines that start in a text or before it are those of the text alone. -/
theorem takeWhile_starts (before after : List Char) :
    (0 :: startsAfter 0 (before ++ after)).takeWhile (· ≤ byteLength before) =
      0 :: startsAfter 0 before := by
  have hbefore : ∀ start ∈ startsAfter 0 before, decide (start ≤ byteLength before) = true := by
    intro start hs
    have := (startsAfter_bounds hs).2
    exact decide_eq_true (by omega)
  have hafter : (startsAfter (0 + byteLength before) after).takeWhile
      (· ≤ byteLength before) = [] := by
    cases hs : startsAfter (0 + byteLength before) after with
    | nil => rfl
    | cons start more =>
        have hmem : start ∈ startsAfter (0 + byteLength before) after := hs ▸ List.mem_cons_self
        have := (startsAfter_bounds hmem).1
        exact List.takeWhile_cons_of_neg (by simp only [decide_eq_true_eq]; omega)
  have hzero (starts : List Nat) : (0 :: starts).takeWhile (· ≤ byteLength before) =
      0 :: starts.takeWhile (· ≤ byteLength before) :=
    List.takeWhile_cons_of_pos (decide_eq_true (Nat.zero_le _))
  rw [hzero, startsAfter_append, List.takeWhile_append_of_pos hbefore, hafter, List.append_nil]

theorem last_start (text : List Char) :
    ∃ head, text = head ++ lastLine text ∧
      (0 :: startsAfter 0 text).getLast? = some (byteLength head) := by
  induction text using List.reverseRecOn with
  | nil => exact ⟨[], rfl, rfl⟩
  | append_singleton text x ih =>
      obtain ⟨head, htext, hlast⟩ := ih
      rw [startsAfter_append]
      by_cases hx : x = '\n'
      · refine ⟨text ++ [x], ?_, ?_⟩
        · rw [hx, lastLine_newline, List.append_nil]
        · rw [← List.cons_append, List.getLast?_append, byteLength_append, hx, Nat.zero_add]
          rfl
      · refine ⟨head, ?_, ?_⟩
        · rw [lastLine_snoc _ hx, ← List.append_assoc, ← htext]
        · have hnone : startsAfter (0 + byteLength text) [x] = [] := if_neg hx
          rw [hnone, List.append_nil, hlast]

theorem line_afterAll (p : Position) (offset : Nat) (text : List Char) :
    (p.afterAll text).line = p.line + (startsAfter offset text).length := by
  induction text generalizing p offset with
  | nil => rfl
  | cons x text ih =>
      rw [Position.afterAll_cons, ih (p.after x) (offset + x.utf8Size)]
      simp only [startsAfter]
      by_cases hx : x = '\n'
      · rw [if_pos hx, hx, Position.after_newline, List.length_cons]
        exact Nat.succ_add _ _
      · rw [if_neg hx, Position.after_other p hx]

/-! ## Looking positions up -/

/-- What a file says about an offset is where one comes to over the characters before it. -/
theorem positionAt_place (file : SourceFile) {before after : List Char}
    (h : file.chars = before ++ after) :
    file.positionAt (byteLength before) = origin.afterAll before := by
  obtain ⟨head, hbefore, hlast⟩ := last_start before
  have hslice : slice? (byteLength head) (byteLength before) file.chars = some (lastLine before) := by
    have hcut := slice?_append head (lastLine before) after
    rwa [← hbefore, ← List.append_assoc, ← hbefore, ← h] at hcut
  have hline := line_afterAll origin 0 before
  have hcolumn := Position.column_origin before
  have hoffset := Position.offset_origin before
  unfold positionAt lineStarts
  rw [h, takeWhile_starts, ← h]
  simp only [hlast, Option.getD_some, hslice]
  generalize origin.afterAll before = p at hline hcolumn hoffset
  cases p
  simp only at hline hcolumn hoffset
  rw [hline, hcolumn, hoffset, List.length_cons]
  show Position.mk _ _ _ = Position.mk (1 + _) _ _
  rw [Nat.add_comm]

end SourceFile

/-! ## Spans that point into a file -/

/-- A position that a file has: an offset between two characters, with the line and the column that
the file gives it.  The column counts the characters of the line up to it. -/
structure Position.PointsInto (file : SourceFile) (p : Position) : Prop where
  boundary : ∃ before after, file.chars = before ++ after ∧ p.offset = byteLength before ∧
    p.column = (lastLine before).length + 1
  lookedUp : p = file.positionAt p.offset
  line : 1 ≤ p.line ∧ p.line ≤ file.lineCount

/-- A span that can be shown in a file. -/
structure Span.PointsInto (file : SourceFile) (x : Span) : Prop where
  somewhere : x.isNowhere = false
  ordered : x.start.offset ≤ x.stop.offset
  inside : x.stop.offset ≤ byteLength file.chars
  start : x.start.PointsInto file
  stop : x.stop.PointsInto file

theorem Position.IsPlace.pointsInto {file : SourceFile} {p : Position}
    (h : p.IsPlace file.chars) : p.PointsInto file := by
  obtain ⟨before, after, hchars, rfl⟩ := h
  have hoffset := offset_origin before
  have hline := SourceFile.line_afterAll origin 0 before
  have horigin : origin.line = 1 := rfl
  refine ⟨⟨before, after, hchars, hoffset, column_origin before⟩, ?_, ?_, ?_⟩
  · rw [hoffset, SourceFile.positionAt_place file hchars]
  · omega
  · have hcount : file.lineCount = (SourceFile.startsAfter 0 before).length +
        (SourceFile.startsAfter (0 + byteLength before) after).length + 1 := by
      rw [SourceFile.lineCount, SourceFile.lineStarts, hchars, SourceFile.startsAfter_append,
        List.length_cons, List.length_append]
    omega

/-- A span between two places in order. -/
structure Span.Between (place : Position → Prop) (x : Span) : Prop where
  start : place x.start
  stop : place x.stop
  ordered : x.start.offset ≤ x.stop.offset

theorem Span.Between.pointsInto {file : SourceFile} {x : Span}
    (h : x.Between (Position.IsPlace file.chars)) : x.PointsInto file := by
  have hstart := h.start.pointsInto
  have hstop := h.stop.pointsInto
  refine ⟨?_, h.ordered, ?_, hstart, hstop⟩
  · have hline := hstart.line.1
    exact beq_eq_false_iff_ne.mpr (by omega)
  · obtain ⟨before, after, hchars, hoffset, -⟩ := hstop.boundary
    rw [hoffset, hchars, byteLength_append]
    exact Nat.le_add_right _ _

/-! ## Spans one behind the other -/

namespace Span

/-- Between two offsets stand spans one behind the other. -/
inductive InOrder : Nat → Nat → List Span → Prop
  | nil {lo hi : Nat} : lo ≤ hi → InOrder lo hi []
  | cons {lo hi : Nat} {x : Span} {xs : List Span} : lo ≤ x.start.offset →
      x.start.offset ≤ x.stop.offset → InOrder x.stop.offset hi xs → InOrder lo hi (x :: xs)

variable {lo mid hi : Nat} {xs ys : List Span}

theorem InOrder.le (h : InOrder lo hi xs) : lo ≤ hi := by
  induction h with
  | nil hle => exact hle
  | cons hlo hx _ ih => exact Nat.le_trans hlo (Nat.le_trans hx ih)

theorem InOrder.from {lo' : Nat} (h : InOrder lo hi xs) (hle : lo' ≤ lo) : InOrder lo' hi xs := by
  cases h with
  | nil hlo => exact .nil (Nat.le_trans hle hlo)
  | cons hlo hx hxs => exact .cons (Nat.le_trans hle hlo) hx hxs

theorem InOrder.append (h₁ : InOrder lo mid xs) (h₂ : InOrder mid hi ys) :
    InOrder lo hi (xs ++ ys) := by
  induction h₁ with
  | nil hle => exact h₂.from hle
  | cons hlo hx _ ih => exact .cons hlo hx (ih h₂)

theorem InOrder.upto {hi' : Nat} (h : InOrder lo hi xs) (hle : hi ≤ hi') : InOrder lo hi' xs := by
  rw [← List.append_nil xs]
  exact h.append (.nil hle)

theorem InOrder.bounds {x : Span} (h : InOrder lo hi xs) (hx : x ∈ xs) :
    lo ≤ x.start.offset ∧ x.stop.offset ≤ hi := by
  induction h with
  | nil => exact absurd hx List.not_mem_nil
  | cons hlo hy hys ih =>
      rcases List.mem_cons.mp hx with rfl | hmem
      · exact ⟨hlo, hys.le⟩
      · have hbounds := ih hmem
        omega

/-- Nothing has to be known of what comes behind the last span. -/
theorem InOrder.upto_last {x : Span} (h : InOrder lo hi (xs ++ [x])) :
    InOrder lo x.stop.offset (xs ++ [x]) := by
  induction xs generalizing lo with
  | nil =>
      cases h with
      | cons hlo hx _ => exact .cons hlo hx (.nil (Nat.le_refl _))
  | cons y xs ih =>
      cases h with
      | cons hlo hy hrest => exact .cons hlo hy (ih hrest)

theorem InOrder.pairwise (h : InOrder lo hi xs) :
    xs.Pairwise fun x y => x.stop.offset ≤ y.start.offset := by
  induction h with
  | nil => exact .nil
  | cons _ _ hxs ih => exact .cons (fun y hy => (hxs.bounds hy).1) ih

end Span

end MysToCpp
