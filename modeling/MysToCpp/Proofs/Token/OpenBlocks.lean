/-
# The blocks that are open

A layout is asked four things: what the width of a line means, to close all blocks, and to open and to
close a bracket.  Whatever it is asked, one after the other, the widths of its open blocks grow from zero
on (`Layout.Stacked`), also behind a line that fits no block.  That is why closing blocks from the inside
finds the right one: the blocks wider than a line are the innermost ones, so that the answer to a line can
be told from the widths as a set (`LineMeaning`).  And no block is lost: those that were opened were
closed since, or are open still.
-/
import Mathlib.Algebra.GroupWithZero.Nat
import Mathlib.Data.List.TakeDrop
import MysToCpp.Proofs.Token.Next

namespace MysToCpp

/-- What can be asked of a layout. -/
inductive LayoutCall where
  /-- What a line of this width means. -/
  | line (width : Nat)
  | closeAll
  | openBracket (c : Char)
  | closeBracket (c : Char)
  deriving DecidableEq, Repr

/-- What a layout answers. -/
inductive LayoutAnswer where
  | line (change : IndentChange)
  | closed (count : Nat)
  | opened
  | bracket (isMatched : Bool)
  deriving DecidableEq, Repr

/-- The number of blocks that an answer says to be closed. -/
def LayoutAnswer.closedBlocks : LayoutAnswer → Nat
  | line (.dedent count) | closed count => count
  | _ => 0

namespace Layout

/-- What the width `w` of a line means where the open blocks have the widths `stack`, the innermost one
`top`, and which widths are left. -/
structure LineMeaning (stack : List Nat) (top w : Nat) (change : IndentChange) (left : List Nat) :
    Prop where
  same : change = .same ↔ w = top
  kept : change = .same → left = stack
  indent : change = .indent ↔ top < w
  opened : change = .indent → left = stack ++ [w]
  dedent : ∀ k, change = .dedent k ↔ w < top ∧ w ∈ stack ∧ 1 ≤ k ∧ k = stack.countP (w < ·)
  closed : ∀ k, change = .dedent k → left = stack.filter (· ≤ w)
  inconsistent : change = .inconsistent ↔ w < top ∧ w ∉ stack

/-- The answer to a call, and the layout behind it.  A bracket that does not match stays where it is. -/
def answer (layout : Layout) : LayoutCall → LayoutAnswer × Layout
  | .line w => let (change, next) := layout.changeIndent w; (.line change, next)
  | .closeAll => let (count, next) := layout.closeAll; (.closed count, next)
  | .openBracket c => (.opened, layout.openBracket c)
  | .closeBracket c =>
    match layout.closeBracket? c with
    | some next => (.bracket true, next)
    | none => (.bracket false, layout)

/-- The answers to calls one after the other, and the layout behind the last of them. -/
def answers (layout : Layout) : List LayoutCall → List LayoutAnswer × Layout
  | [] => ([], layout)
  | call :: rest =>
    let (first, next) := layout.answer call
    let (more, last) := next.answers rest
    (first :: more, last)

/-- The widths of the open blocks, the outermost first. -/
def stack (layout : Layout) : List Nat := layout.widths.reverse

/-- The widths of the open blocks grow from zero on. -/
structure Stacked (layout : Layout) : Prop where
  nonempty : layout.stack ≠ []
  outermost : layout.stack.head? = some 0
  ascending : layout.stack.Pairwise (· < ·)

/-! ## Widths from the inside -/

section Widths

variable {widths : List Nat} {w : Nat}

/-- Taken from the inside, the blocks wider than `w` come first. -/
theorem dropWhile_eq_filter (h : widths.Pairwise (· > ·)) (w : Nat) :
    widths.dropWhile (w < ·) = widths.filter (· ≤ w) := by
  induction widths with
  | nil => rfl
  | cons x widths ih =>
      obtain ⟨hx, hwidths⟩ := List.pairwise_cons.mp h
      by_cases hw : w < x
      · rw [List.dropWhile_cons_of_pos (by simpa using hw), ih hwidths,
          List.filter_cons_of_neg (by simpa using hw)]
      · have hall : ∀ y ∈ x :: widths, decide (y ≤ w) = true := by
          intro y hy
          rcases List.mem_cons.mp hy with rfl | hy
          · exact decide_eq_true (Nat.le_of_not_lt hw)
          · exact decide_eq_true (Nat.le_trans (Nat.le_of_lt (hx y hy)) (Nat.le_of_not_lt hw))
        rw [List.dropWhile_cons_of_neg (by simpa using hw), List.filter_eq_self.mpr hall]

theorem head?_filter_le (h : widths.Pairwise (· > ·)) :
    (widths.filter (· ≤ w)).head? = some w ↔ w ∈ widths := by
  constructor
  · intro hhead
    exact (List.mem_filter.mp (List.mem_of_mem_head? hhead)).1
  · intro hmem
    have hfound : w ∈ widths.filter (· ≤ w) := List.mem_filter.mpr ⟨hmem, by simp⟩
    have hsorted := h.filter (· ≤ w)
    cases hfiltered : widths.filter (· ≤ w) with
    | nil =>
        rw [hfiltered] at hfound
        cases hfound
    | cons x rest =>
        rw [hfiltered] at hfound hsorted
        have hx : x ≤ w := by
          have hxmem : x ∈ widths.filter (· ≤ w) := by rw [hfiltered]; exact List.mem_cons_self
          exact of_decide_eq_true (List.mem_filter.mp hxmem).2
        rcases List.mem_cons.mp hfound with rfl | hrest
        · rfl
        · have := (List.pairwise_cons.mp hsorted).1 w hrest
          omega

theorem length_filter_le (widths : List Nat) (w : Nat) :
    widths.length = (widths.filter (· ≤ w)).length + widths.countP (w < ·) := by
  induction widths with
  | nil => rfl
  | cons x widths ih =>
      by_cases hx : w < x
      · rw [List.filter_cons_of_neg (by simpa using hx), List.countP_cons_of_pos (by simpa using hx),
          List.length_cons, ih]
        rfl
      · rw [List.filter_cons_of_pos (by simpa using hx), List.countP_cons_of_neg (by simpa using hx),
          List.length_cons, List.length_cons, ih]
        omega

end Widths

/-! ## One call -/

section Call

variable {layout : Layout}

theorem stacked_of_widths {layout : Layout} (hlast : layout.widths.getLast? = some 0)
    (hsorted : layout.widths.Pairwise (· > ·)) : layout.Stacked where
  nonempty := by
    intro hnil
    rw [List.reverse_eq_nil_iff.mp hnil] at hlast
    cases hlast
  outermost := by rw [stack, List.head?_reverse, hlast]
  ascending := List.pairwise_reverse.mpr hsorted

theorem Stacked.descending (h : layout.Stacked) : layout.widths.Pairwise (· > ·) :=
  List.pairwise_reverse.mp h.ascending

theorem Stacked.getLast?_widths (h : layout.Stacked) : layout.widths.getLast? = some 0 := by
  rw [← List.head?_reverse]
  exact h.outermost

theorem Stacked.zero_mem (h : layout.Stacked) : 0 ∈ layout.widths :=
  List.mem_of_getLast? h.getLast?_widths

theorem Stacked.congr {next : Layout} (h : layout.Stacked) (hwidths : next.widths = layout.widths) :
    next.Stacked :=
  stacked_of_widths (hwidths ▸ h.getLast?_widths) (hwidths ▸ h.descending)

theorem Stacked.width_filter_le (h : layout.Stacked) (w : Nat) :
    ({ layout with widths := layout.widths.filter (· ≤ w) } : Layout).width = w ↔
      w ∈ layout.widths := by
  rw [← head?_filter_le h.descending, width]
  cases hleft : layout.widths.filter (· ≤ w) with
  | nil =>
      have hzero : 0 ∈ layout.widths.filter (· ≤ w) := List.mem_filter.mpr ⟨h.zero_mem, by simp⟩
      rw [hleft] at hzero
      cases hzero
  | cons x rest => simp

/-- All that a line can do to the blocks. -/
theorem Stacked.changeIndent_eq (h : layout.Stacked) {top : Nat}
    (htop : layout.stack.getLast? = some top) (w : Nat) :
    layout.changeIndent w =
      if w = top then (.same, layout)
      else if top < w then (.indent, { layout with widths := w :: layout.widths })
      else (if w ∈ layout.widths then .dedent (layout.widths.countP (w < ·)) else .inconsistent,
        { layout with widths := layout.widths.filter (· ≤ w) }) := by
  have hwidth : layout.width = top := by
    rw [width, ← List.getLast?_reverse]
    exact congrArg (·.getD 0) htop
  unfold changeIndent
  have hclosed : layout.widths.length - (layout.widths.filter (· ≤ w)).length =
      layout.widths.countP (w < ·) := by
    have := length_filter_le layout.widths w
    omega
  rw [hwidth, dropWhile_eq_filter h.descending]
  dsimp only
  rw [hclosed]
  by_cases hmem : w ∈ layout.widths
  · rw [if_pos ((h.width_filter_le w).mpr hmem), if_pos hmem]
  · rw [if_neg (mt (h.width_filter_le w).mp hmem), if_neg hmem]

theorem Stacked.widths_le (h : layout.Stacked) {top : Nat} (htop : layout.stack.getLast? = some top) :
    ∀ x ∈ layout.widths, x ≤ top := by
  have hsorted := h.descending
  rw [stack, List.getLast?_reverse] at htop
  obtain ⟨rest, hwidths⟩ := List.head?_eq_some_iff.mp htop
  rw [hwidths] at hsorted ⊢
  intro x hx
  rcases List.mem_cons.mp hx with rfl | hx
  · exact Nat.le_refl _
  · exact Nat.le_of_lt ((List.pairwise_cons.mp hsorted).1 x hx)

theorem Stacked.lineMeaning (h : layout.Stacked) {top : Nat}
    (htop : layout.stack.getLast? = some top) (w : Nat) :
    LineMeaning layout.stack top w (layout.changeIndent w).1 (layout.changeIndent w).2.stack := by
  have hmem : w ∈ layout.stack ↔ w ∈ layout.widths := List.mem_reverse
  have hcount : layout.stack.countP (w < ·) = layout.widths.countP (w < ·) := List.countP_reverse
  rw [h.changeIndent_eq htop]
  rcases Nat.lt_trichotomy w top with hlt | hsame | hindent
  · have hne : w ≠ top := Nat.ne_of_lt hlt
    have hnot : ¬ top < w := Nat.lt_asymm hlt
    have hpos : 1 ≤ layout.stack.countP (w < ·) :=
      List.countP_pos_iff.mpr ⟨top, List.mem_of_getLast? htop, decide_eq_true hlt⟩
    rw [if_neg hne, if_neg hnot]
    by_cases hfound : w ∈ layout.widths
    · rw [if_pos hfound]
      refine ⟨by simp [hne], nofun, by simp [hnot], nofun, fun k => ?_, fun k _ => ?_, by simp [hmem, hfound]⟩
      · rw [hmem, hcount, IndentChange.dedent.injEq]
        rw [hcount] at hpos
        exact ⟨fun hk => ⟨hlt, hfound, hk ▸ hpos, hk.symm⟩, fun hk => hk.2.2.2.symm⟩
      · exact (List.filter_reverse ..).symm
    · rw [if_neg hfound]
      exact ⟨by simp [hne], nofun, by simp [hnot], nofun, by simp [hmem, hfound], nofun,
        by simp [hmem, hfound, hlt]⟩
  · rw [if_pos hsame]
    exact ⟨by simp [hsame], fun _ => rfl, by simp [hsame], nofun, by simp [hsame], nofun,
      by simp [hsame]⟩
  · have hne : w ≠ top := Nat.ne_of_gt hindent
    have hnot : ¬ w < top := Nat.lt_asymm hindent
    rw [if_neg hne, if_pos hindent]
    exact ⟨by simp [hne], nofun, by simp [hindent], fun _ => List.reverse_cons, by simp [hnot], nofun,
      by simp [hnot]⟩

theorem Stacked.changeIndent (h : layout.Stacked) (w : Nat) :
    (layout.changeIndent w).2.Stacked := by
  obtain ⟨top, htop⟩ : ∃ top, layout.stack.getLast? = some top :=
    ⟨_, List.getLast?_eq_some_getLast h.nonempty⟩
  rw [h.changeIndent_eq htop]
  split
  · exact h
  · split
    · next hlt =>
      refine stacked_of_widths ?_ (List.pairwise_cons.mpr ⟨fun x hx => ?_, h.descending⟩)
      · rw [List.getLast?_cons, h.getLast?_widths]
        rfl
      · exact Nat.lt_of_le_of_lt (h.widths_le htop x hx) hlt
    · refine stacked_of_widths ?_ (h.descending.filter _)
      -- no line is less wide than the outermost block
      rw [← dropWhile_eq_filter h.descending]
      exact Lexer.getLast?_dropWhile h.getLast?_widths (by simp)

theorem Stacked.widths_closeAll (h : layout.Stacked) : layout.closeAll.2.widths = [0] := by
  have hne : layout.widths ≠ [] := fun hnil => h.nonempty (by rw [stack, hnil]; rfl)
  have hlast : layout.widths.getLast hne = 0 :=
    Option.some.inj ((List.getLast?_eq_some_getLast hne).symm.trans h.getLast?_widths)
  show layout.widths.drop (layout.widths.length - 1) = [0]
  rw [List.drop_length_sub_one hne, hlast]

theorem widths_closeBracket? {next : Layout} {c : Char} (h : layout.closeBracket? c = some next) :
    next.widths = layout.widths := by
  obtain ⟨y, stack, -, -, rfl⟩ := Lexer.closeBracket?_cases h
  rfl

/-- Every call keeps the widths growing from zero on. -/
theorem Stacked.answer (h : layout.Stacked) (call : LayoutCall) : (layout.answer call).2.Stacked := by
  cases call with
  | line w => exact h.changeIndent w
  | closeAll =>
      refine stacked_of_widths ?_ ?_
      · show layout.closeAll.2.widths.getLast? = some 0
        rw [h.widths_closeAll]
        rfl
      · show layout.closeAll.2.widths.Pairwise (· > ·)
        rw [h.widths_closeAll]
        exact List.pairwise_singleton _ _
  | openBracket c => exact h.congr rfl
  | closeBracket c =>
      simp only [Layout.answer]
      split
      · next hclose => exact h.congr (widths_closeBracket? hclose)
      · exact h

/-- The blocks before a line, and the one that it opens, are closed by it or open behind it. -/
theorem LineMeaning.accounted {stack left : List Nat} {top w : Nat} {change : IndentChange}
    (h : LineMeaning stack top w change left) (hchange : change ≠ .inconsistent) :
    (if change = .indent then 1 else 0) + stack.length =
      (LayoutAnswer.line change).closedBlocks + left.length := by
  cases change with
  | same => simp [h.kept rfl, LayoutAnswer.closedBlocks]
  | indent =>
      rw [h.opened rfl, List.length_append]
      simp [LayoutAnswer.closedBlocks, Nat.add_comm]
  | dedent k =>
      obtain ⟨-, -, -, hk⟩ := (h.dedent k).mp rfl
      have hlength := length_filter_le stack w
      rw [h.closed k rfl]
      simp only [LayoutAnswer.closedBlocks, reduceCtorEq, if_false]
      omega
  | inconsistent => exact absurd rfl hchange

theorem Stacked.accounted (h : layout.Stacked) (call : LayoutCall)
    (hanswer : (layout.answer call).1 ≠ .line .inconsistent) :
    (if (layout.answer call).1 = .line .indent then 1 else 0) + layout.stack.length =
      (layout.answer call).1.closedBlocks + (layout.answer call).2.stack.length := by
  cases call with
  | line w =>
      have hmeaning := h.lineMeaning (List.getLast?_eq_some_getLast h.nonempty) w
      have hchange : (layout.changeIndent w).1 ≠ .inconsistent := fun heq => hanswer (congrArg _ heq)
      simpa [Layout.answer] using hmeaning.accounted hchange
  | closeAll =>
      have hpos : 0 < layout.widths.length := List.length_pos_of_mem h.zero_mem
      have hwidths := h.widths_closeAll
      simp only [Layout.answer, stack, hwidths, List.length_reverse, LayoutAnswer.closedBlocks,
        reduceCtorEq, if_false, List.length_singleton]
      show 0 + layout.widths.length = layout.widths.length - 1 + 1
      omega
  | openBracket c => simp [Layout.answer, LayoutAnswer.closedBlocks, stack, Layout.openBracket]
  | closeBracket c =>
      cases hclose : layout.closeBracket? c with
      | some next =>
          simp [Layout.answer, hclose, LayoutAnswer.closedBlocks, stack, widths_closeBracket? hclose]
      | none => simp [Layout.answer, hclose, LayoutAnswer.closedBlocks]

end Call

/-! ## Calls one after the other -/

theorem Stacked.answers {layout : Layout} (h : layout.Stacked) (calls : List LayoutCall) :
    (layout.answers calls).2.Stacked := by
  induction calls generalizing layout with
  | nil => exact h
  | cons call rest ih => exact ih (h.answer call)

theorem Stacked.answers_accounted {layout : Layout} (h : layout.Stacked) (calls : List LayoutCall)
    (hanswers : .line .inconsistent ∉ (layout.answers calls).1) :
    (layout.answers calls).1.count (.line .indent) + layout.stack.length =
      ((layout.answers calls).1.map (·.closedBlocks)).sum + (layout.answers calls).2.stack.length := by
  induction calls generalizing layout with
  | nil => rfl
  | cons call rest ih =>
      obtain ⟨hfirst, hmore⟩ := not_or.mp (mt List.mem_cons.mpr hanswers)
      have hstep := h.accounted call (Ne.symm hfirst)
      have hrest := ih (h.answer call) hmore
      simp only [Layout.answers, List.count_cons, beq_iff_eq, List.map_cons, List.sum_cons]
      omega

/-- Whatever a layout is asked from the start on, the widths of its open blocks grow from zero, and the
answer to a line is told by them.  If every line fitted a block, then as many blocks were opened as were
closed or, but for the outermost one, are open still. -/
theorem blocks_of_calls (calls : List LayoutCall) :
    let run := answers {} calls
    run.2.Stacked ∧
      (∀ w top, run.2.stack.getLast? = some top →
        LineMeaning run.2.stack top w (run.2.changeIndent w).1 (run.2.changeIndent w).2.stack) ∧
      (.line .inconsistent ∉ run.1 → run.1.count (.line .indent) =
        (run.1.map (·.closedBlocks)).sum + (run.2.stack.length - 1)) := by
  have hstart : ({} : Layout).Stacked := stacked_of_widths rfl (List.pairwise_singleton _ _)
  have hstacked := hstart.answers calls
  refine ⟨hstacked, fun w top htop => hstacked.lineMeaning htop w, fun hanswers => ?_⟩
  have haccount := hstart.answers_accounted calls hanswers
  have hone : ({} : Layout).stack.length = 1 := rfl
  have hpos : 0 < (answers {} calls).2.stack.length := List.length_pos_iff.mpr hstacked.nonempty
  omega

/-- A line in a bracket, two blocks closed at once and one by the end; and a line that fits no block, behind
which the next ones are measured with what is left. -/
theorem blocks_of_calls_samples :
    let fitting := answers {} [.line 4, .openBracket '(', .line 8, .closeBracket ')', .line 0, .line 2]
    let unfitting := answers {} [.line 4, .line 8, .line 6]
    fitting.1 = [.line .indent, .opened, .line .indent, .bracket true, .line (.dedent 2), .line .indent] ∧
      fitting.1.count (.line .indent) =
        (fitting.1.map (·.closedBlocks)).sum + (fitting.2.stack.length - 1) ∧
      unfitting.2.stack = [0, 4] ∧ unfitting.2.Stacked ∧
      LineMeaning [0, 4] 4 2 (unfitting.2.changeIndent 2).1 (unfitting.2.changeIndent 2).2.stack :=
  ⟨by decide, (blocks_of_calls _).2.2 (by decide), by decide, (blocks_of_calls _).1,
    (blocks_of_calls [.line 4, .line 8, .line 6]).2.1 2 4 (by decide)⟩

end Layout

end MysToCpp
