/-
# Gaps between tokens

What the lexer passes over without giving a token: blanks, comments up to the end of their line, and
the ends of continued lines.
-/
import MysToCpp.Proofs.Token.Cursor
import MysToCpp.Token.Lexer

namespace MysToCpp

/-- Text in which no token is written. -/
inductive Gap : List Char → Prop
  | nil : Gap []
  | blank {x : Char} {rest : List Char} : x ∈ [' ', '\t', '\x0c', '\r', '\n'] → Gap rest →
      Gap (x :: rest)
  | comment {body rest : List Char} : (∀ x ∈ body, x ≠ '\n') → Gap rest →
      Gap ('#' :: (body ++ rest))
  | continued {rest : List Char} : Gap rest → Gap ('\\' :: '\n' :: rest)
  | continuedReturn {rest : List Char} : Gap rest → Gap ('\\' :: '\r' :: '\n' :: rest)

theorem Gap.append {a b : List Char} (ha : Gap a) (hb : Gap b) : Gap (a ++ b) := by
  induction ha with
  | nil => exact hb
  | blank hx _ ih => exact .blank hx ih
  | comment hbody _ ih =>
      rw [List.cons_append, List.append_assoc]
      exact .comment hbody ih
  | continued _ ih => exact .continued ih
  | continuedReturn _ ih => exact .continuedReturn ih

theorem Gap.singleton {x : Char} (h : x ∈ [' ', '\t', '\x0c', '\r', '\n']) : Gap [x] := .blank h .nil

theorem Gap.of_blanks {text : List Char} (h : ∀ x ∈ text, x ∈ [' ', '\t', '\x0c', '\r', '\n']) :
    Gap text := by
  induction text with
  | nil => exact .nil
  | cons x text ih => exact .blank (h x List.mem_cons_self) (ih fun y hy => h y (.tail _ hy))

namespace Cursor

/-- Only a gap stands between `c` and `c'`. -/
def Passes (c c' : Cursor) : Prop := ∃ gap, Gap gap ∧ c.Reads gap c'

theorem Passes.refl (c : Cursor) : c.Passes c := ⟨[], .nil, .refl c⟩

theorem Passes.trans {c c₁ c₂ : Cursor} (h₁ : c.Passes c₁) (h₂ : c₁.Passes c₂) : c.Passes c₂ := by
  obtain ⟨a, ha, hreads⟩ := h₁
  obtain ⟨b, hb, hreads₂⟩ := h₂
  exact ⟨a ++ b, ha.append hb, hreads.trans hreads₂⟩

theorem Passes.length_le {c c' : Cursor} (h : c.Passes c') : c'.rest.length ≤ c.rest.length := by
  obtain ⟨gap, -, hreads⟩ := h
  rw [hreads.length]
  exact Nat.le_add_left _ _

theorem passes_blank {c : Cursor} {x : Char} (h : c.peek? = some x)
    (hx : x ∈ [' ', '\t', '\x0c', '\r', '\n']) : c.Passes c.skip :=
  ⟨[x], .singleton hx, reads_skip h⟩

end Cursor

namespace Lexer

open Cursor (Passes passes_blank reads_skip reads_takeWhile peek?_takeWhile skip_of_peek_none)

theorem mem_of_isIndentation {x : Char} (h : isIndentation x = true) :
    x ∈ [' ', '\t', '\x0c', '\r', '\n'] := by
  simp only [isIndentation, Bool.or_eq_true, decide_eq_true_eq] at h
  rcases h with (rfl | rfl) | rfl <;> decide

theorem mem_of_isGap {x : Char} (h : isGap x = true) : x ∈ [' ', '\t', '\x0c', '\r', '\n'] := by
  simp only [isGap, Bool.or_eq_true, decide_eq_true_eq] at h
  rcases h with ((rfl | rfl) | rfl) | rfl <;> decide

theorem passes_indentation (c : Cursor) : c.Passes (c.takeWhile isIndentation).2 := by
  refine ⟨_, .of_blanks fun x hx => mem_of_isIndentation ?_, reads_takeWhile _ _⟩
  exact List.all_eq_true.mp List.all_takeWhile x hx

theorem passes_comment {c : Cursor} (h : c.peek? = some '#') :
    c.Passes (skipComment c) ∧ (skipComment c).rest.length < c.rest.length := by
  have hreads := reads_takeWhile (fun x => decide (x ≠ '\n')) c
  obtain ⟨rest, hrest⟩ : ∃ rest, c.rest = '#' :: rest := List.head?_eq_some_iff.mp h
  have htext : (c.takeWhile fun x => decide (x ≠ '\n')).1 =
      '#' :: rest.takeWhile fun x => decide (x ≠ '\n') := by
    show c.rest.takeWhile _ = _
    rw [hrest, List.takeWhile_cons_of_pos (by decide)]
  refine ⟨⟨_, ?_, hreads⟩, ?_⟩
  · rw [htext, ← List.append_nil (List.takeWhile _ rest)]
    refine .comment (fun x hx => ?_) .nil
    simpa using List.all_eq_true.mp List.all_takeWhile x hx
  · rw [hreads.length, htext, List.length_cons]
    show (c.takeWhile fun x => decide (x ≠ '\n')).2.rest.length < _
    omega

theorem passes_commentLine {c : Cursor} (h : c.peek? = some '#') :
    c.Passes (skipComment c).skip ∧ (skipComment c).skip.rest.length < c.rest.length := by
  obtain ⟨hcomment, hlen⟩ := passes_comment h
  have hend : (skipComment c).Passes (skipComment c).skip := by
    cases hx : (skipComment c).peek? with
    | none =>
        rw [skip_of_peek_none hx]
        exact .refl _
    | some x =>
        have hnewline : x = '\n' := by simpa using peek?_takeWhile _ c hx
        exact passes_blank hx (by rw [hnewline]; decide)
  exact ⟨hcomment.trans hend, Nat.lt_of_le_of_lt hend.length_le hlen⟩

/-- Gaps are passed, and in brackets up to something that ends no line. -/
theorem passes_skipGaps (inBrackets : Bool) (fuel : Nat) :
    ∀ c : Cursor, c.Passes (skipGaps inBrackets fuel c) ∧
      (c.rest.length ≤ fuel → inBrackets = true →
        (skipGaps inBrackets fuel c).peek? ≠ some '\n') := by
  induction fuel with
  | zero =>
      refine fun c => ⟨.refl c, fun hlen _ => ?_⟩
      have hnil : c.rest = [] := List.eq_nil_of_length_eq_zero (Nat.le_zero.mp hlen)
      show c.rest.head? ≠ _
      rw [hnil]
      exact nofun
  | succ fuel ih =>
      intro c
      unfold skipGaps
      split
      · next x hx =>
        split
        · next hgap =>
          have hblank : x ∈ [' ', '\t', '\x0c', '\r', '\n'] := by
            rcases Bool.or_eq_true_iff.mp hgap with h | h
            · exact mem_of_isGap h
            · rw [of_decide_eq_true (Bool.and_eq_true_iff.mp h).1]
              decide
          have hlen := (reads_skip hx).length
          obtain ⟨hpass, hstop⟩ := ih c.skip
          exact ⟨(passes_blank hx hblank).trans hpass, fun h => hstop (by simp at hlen; omega)⟩
        · split
          · next hhash =>
            subst hhash
            obtain ⟨hcomment, hlen⟩ := passes_comment hx
            obtain ⟨hpass, hstop⟩ := ih (skipComment c)
            exact ⟨hcomment.trans hpass, fun h => hstop (by omega)⟩
          · next hgap _ =>
            refine ⟨.refl c, fun _ hin => ?_⟩
            rw [hx]
            rintro ⟨⟩
            exact hgap (by simp [hin])
      · next hnone => exact ⟨.refl c, fun _ _ => by rw [hnone]; nofun⟩

end Lexer

end MysToCpp
