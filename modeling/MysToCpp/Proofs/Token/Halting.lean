/-
# The lexer comes to a halt

A lexer is asked for one token after the other.  Every token it gives makes it lighter, so that it gives no
more than twice as many as there are characters, and then none.  The first answer without a token means
what it should mean: an error was found, or all characters are read and no token is owed any more, which
is also when the lexer has halted (`Lexer.Halted`).  From there on every answer is the same, and the lexer
stays as it is.
-/
import Mathlib.Logic.Function.Iterate
import MysToCpp.Proofs.Token.Run
import MysToCpp.Text.Unicode

namespace MysToCpp.Lexer

open Cursor (rest_eq_nil_of_next rest_eq_nil_of_peek)
open Token (Scanned)

section

variable [Text.IdentifierTable]

/-- The tokens that are owed without any character for them: those that wait, and the ends of the line
and of the blocks that are open. -/
def owed (lx : Lexer) : Nat := lx.openBlocks + if lx.lineHasTokens then 1 else 0

/-- All characters are read, and nothing is owed. -/
structure Exhausted (lx : Lexer) : Prop where
  rest : lx.cursor.rest = []
  owed : lx.owed = 0

/-- There is nothing to give, because of an error or because the text is exhausted. -/
structure Halted (lx : Lexer) : Prop where
  pending : lx.pending = []
  cause : lx.error ≠ none ∨ lx.finished = true ∧ lx.Exhausted

/-- The lexer behind an answer. -/
def behind (lx : Lexer) : Lexer := lx.next.2

/-- The lexer of a text behind its first `k` answers. -/
def afterCalls (source : String) (k : Nat) : Lexer := behind^[k] (ofText source)

/-- The answer to call `k` on the lexer of a text, counted from zero. -/
def answerAt (source : String) (k : Nat) : Option Token := (afterCalls source k).next.1

/-! ## Answers without a token -/

theorem Halted.next {lx : Lexer} (h : lx.Halted) : lx.next = (none, lx) := by
  have hstop : (lx.finished || lx.error.isSome) = true := by
    rcases h.cause with herror | ⟨hfinished, -⟩
    · rw [Option.isSome_iff_ne_none.mpr herror, Bool.or_true]
    · rw [hfinished, Bool.true_or]
  unfold Lexer.next
  rw [h.pending]
  dsimp only
  rw [if_pos hstop]

theorem Halted.iterate {lx : Lexer} (h : lx.Halted) (k : Nat) : behind^[k] lx = lx :=
  Function.iterate_fixed (congrArg Prod.snd h.next) k

end

/-- An answer without a token leaves a halted lexer. -/
def Halts : Option Token × Lexer → Prop
  | (some _, _) => True
  | (none, lx) => lx.Halted

theorem halts_finish {lx : Lexer} (hpending : lx.pending = []) (hend : lx.cursor.rest = []) :
    Halts lx.finish := by
  unfold finish
  dsimp only
  split
  · exact ⟨hpending, .inl nofun⟩
  · split
    · refine ⟨hpending, .inr ⟨rfl, hend, ?_⟩⟩
      -- of the open blocks only the outermost is left
      show (lx.layout.widths.drop (lx.layout.widths.length - 1)).length - 1 + lx.pending.length + 0 = 0
      rw [hpending, List.length_drop, List.length_nil]
      omega
    · trivial

theorem pending_accept (lx : Lexer) (scanned : Scanned) :
    (lx.accept scanned).2.pending = lx.pending := by
  obtain ⟨fault | kind, c⟩ := scanned <;> rfl

theorem pending_scanToken [Text.IdentifierTable] (x : Char) (lx : Lexer) :
    (lx.scanToken x).2.pending = lx.pending := by
  unfold scanToken
  split
  · exact pending_accept lx _
  · split
    · exact pending_accept lx _
    · split
      · exact pending_accept lx _
      · split
        · exact pending_accept lx _
        · split
          · rfl
          · split
            · split <;> rfl
            · split <;> rfl

/-- The same of a step behind the start of a line. -/
def StepHalts : LexStep → Prop
  | .skipped _ => True
  | .answer token lx => Halts (token, lx)

theorem stepHalts_endLine (lx : Lexer) : StepHalts lx.endLine := by
  unfold endLine
  dsimp only
  split <;> trivial

theorem stepHalts_continueLine {lx : Lexer} (hpending : lx.pending = []) :
    StepHalts lx.continueLine := by
  unfold continueLine
  generalize (if lx.cursor.peek? = some '\r' then lx.cursor.skip else lx.cursor) = c
  dsimp only
  split
  · trivial
  · exact ⟨hpending, .inl nofun⟩

theorem stepHalts_readOn [Text.IdentifierTable] {lx : Lexer} (hpending : lx.pending = []) :
    StepHalts lx.readOn := by
  unfold readOn
  generalize skipGaps lx.layout.inBrackets lx.cursor.rest.length lx.cursor = c
  dsimp only
  split
  · next hend => exact halts_finish hpending (rest_eq_nil_of_next hend)
  · next x c₁ hnext =>
    split
    · exact stepHalts_endLine _
    · split
      · exact stepHalts_continueLine hpending
      · have hscan := scanToken_outcome x ((lx.moveTo c).markStart.moveTo c₁)
        have hkept := pending_scanToken x ((lx.moveTo c).markStart.moveTo c₁)
        split
        · trivial
        · next lx' hanswer =>
          rw [hanswer] at hscan hkept
          exact ⟨hkept.trans hpending, .inl hscan⟩

/-- Where a line starts without a token, no token waits. -/
def KeepsPending (lx : Lexer) : LineStart → Prop
  | .code none lx' => lx'.pending = lx.pending
  | _ => True

theorem keepsPending_beginLine (lx : Lexer) : KeepsPending lx lx.beginLine := by
  unfold beginLine
  dsimp only
  split
  · trivial
  · split
    · trivial
    · split
      · trivial
      · unfold changeBlocks
        dsimp only
        split <;> trivial

section

variable [Text.IdentifierTable]

theorem halts_search (fuel : Nat) : ∀ {lx : Lexer}, lx.Valid → lx.pending = [] →
    lx.finished = false → lx.cursor.rest.length < fuel → Halts (search fuel lx) := by
  induction fuel with
  | zero => exact fun _ _ _ hlen => absurd hlen (Nat.not_lt_zero _)
  | succ fuel ih =>
      intro lx hv hpending hfinished hlen
      have hbegun := lineStart_outcome hv hpending hfinished
      have hkept : KeepsPending lx (if lx.atLineStart && !lx.layout.inBrackets then lx.beginLine
          else .code none lx) := by
        split
        · exact keepsPending_beginLine lx
        · rfl
      have hagain {lx₁ : Lexer} (hv₁ : lx₁.Valid) (hskips : lx.Skips lx₁)
          (hless : lx₁.cursor.rest.length < lx.cursor.rest.length) : Halts (search fuel lx₁) :=
        ih hv₁ (hskips.pending.trans hpending) (hskips.finished.trans hfinished) (by omega)
      unfold search
      dsimp only
      generalize (if lx.atLineStart && !lx.layout.inBrackets then lx.beginLine
        else .code none lx) = begun at hbegun hkept
      cases begun with
      | blank lx₁ =>
          obtain ⟨hv₁, hskips, hless⟩ := hbegun
          exact hagain hv₁ hskips hless
      | atEnd lx₁ =>
          obtain ⟨-, hskips, hend⟩ := hbegun
          exact halts_finish (hskips.pending.trans hpending) hend
      | code layoutToken lx₁ =>
          cases layoutToken with
          | some t => trivial
          | none =>
              have hpending₁ : lx₁.pending = [] := hkept.trans hpending
              dsimp only
              split
              · next herror => exact ⟨hpending₁, .inl (Option.isSome_iff_ne_none.mp herror)⟩
              · next herror =>
                rcases hbegun with h | ⟨hv₁, hskips, hstart⟩
                · exact absurd (Option.isSome_iff_ne_none.mpr h) herror
                · have hread := readOn_outcome hv₁ hpending₁ (hskips.finished.trans hfinished) hstart
                  have hhalts := stepHalts_readOn hpending₁
                  cases hstep : lx₁.readOn with
                  | skipped lx₂ =>
                      rw [hstep] at hread
                      obtain ⟨hv₂, hskips₂, hless⟩ := hread
                      exact hagain hv₂ (hskips.trans hskips₂)
                        (Nat.lt_of_lt_of_le hless hskips.passes.length_le)
                  | answer token lx₂ =>
                      rw [hstep] at hhalts
                      exact hhalts

theorem halts_next {lx : Lexer} (hv : lx.Valid) : Halts lx.next := by
  unfold next
  split
  · trivial
  · next hpending =>
    cases hfinished : lx.finished with
    | true =>
        obtain ⟨hend, hline, hwidths⟩ := hv.finished hfinished
        refine ⟨hpending, .inr ⟨hfinished, hend, ?_⟩⟩
        rw [owed, openBlocks_of_pending hpending, hwidths, hline]
        rfl
    | false =>
        rw [hv.noError]
        exact halts_search _ hv hpending hfinished (Nat.lt_succ_self _)

theorem halted_of_next {lx : Lexer} (hv : lx.Valid) (h : lx.next.1 = none) : lx.behind.Halted := by
  have hhalts := halts_next hv
  rw [show lx.next = (none, lx.behind) from Prod.ext h rfl] at hhalts
  exact hhalts

end

/-! ## When no token is given -/

theorem Ends.owed {lx lx' : Lexer} (h : lx.Ends lx') : lx.owed = 0 := by
  rw [Lexer.owed, h.blocks, h.line]
  rfl

/-- A token is owed before it is given, or leaves something owed. -/
theorem LayoutStep.owed_pos {lx lx' : Lexer} {kind : TokenKind} (h : LayoutStep lx lx' kind) :
    0 < lx.owed + lx'.owed := by
  unfold Lexer.owed
  cases h with
  | written _ hline _ _ =>
      rw [hline, if_pos rfl]
      omega
  | newline hline _ _ _ _ =>
      rw [hline, if_pos rfl]
      omega
  | indent _ _ _ _ hblocks | dedent _ _ _ _ hblocks => omega

section

variable [Text.IdentifierTable]

/-- A valid lexer gives no token just when it comes upon an error or upon the end of the text, with nothing
owed before or then. -/
theorem next_eq_none_iff {lx : Lexer} (hv : lx.Valid) :
    lx.next.1 = none ↔ lx.behind.error ≠ none ∨ lx.owed = 0 ∧ lx.behind.Exhausted := by
  have hout := next_outcome hv
  constructor
  · intro hnone
    rw [show lx.next = (none, lx.behind) from Prod.ext hnone rfl] at hout
    rcases hout with herror | hends
    · exact .inl herror
    · exact (halted_of_next hv hnone).cause.imp_right fun hcause => ⟨hends.owed, hcause.2⟩
  · intro hcause
    cases hnext : lx.next.1 with
    | none => rfl
    | some t =>
        rw [show lx.next = (some t, lx.behind) from Prod.ext hnext rfl] at hout
        obtain ⟨hvalid, hemits⟩ := hout
        rcases hcause with herror | ⟨howed, hexhausted⟩
        · exact absurd hvalid.noError herror
        · have hpos := hemits.layout.owed_pos
          have := hexhausted.owed
          omega

theorem Halted.next_eq_none_iff {lx : Lexer} (h : lx.Halted) :
    lx.next.1 = none ↔ lx.behind.error ≠ none ∨ lx.owed = 0 ∧ lx.behind.Exhausted := by
  have hstay : lx.behind = lx := congrArg Prod.snd h.next
  rw [hstay]
  exact iff_of_true (congrArg Prod.fst h.next)
    (h.cause.imp_right fun ⟨_, hexhausted⟩ => ⟨hexhausted.owed, hexhausted⟩)

/-! ## One call after the other -/

/-- A lexer gives no more tokens than its weight says, and is valid until it gives none. -/
theorem exists_last_call {n : Nat} : ∀ {lx : Lexer}, lx.Valid → lx.weight ≤ n →
    ∃ count ≤ n, (∀ k < count, (behind^[k] lx).next.1.isSome) ∧ (∀ k ≤ count, (behind^[k] lx).Valid) ∧
      (behind^[count] lx).next.1 = none := by
  induction n with
  | zero =>
      intro lx hv hweight
      refine ⟨0, Nat.le_refl _, fun k hk => absurd hk (Nat.not_lt_zero _), ?_, ?_⟩
      · intro k hk
        obtain rfl := Nat.le_zero.mp hk
        exact hv
      · cases hnext : lx.next.1 with
        | none => exact hnext
        | some t =>
            have hless := (next_emits hv (Prod.ext hnext rfl : lx.next = (some t, lx.behind))).2.lighter
            omega
  | succ n ih =>
      intro lx hv hweight
      cases hnext : lx.next.1 with
      | none =>
          refine ⟨0, Nat.zero_le _, fun k hk => absurd hk (Nat.not_lt_zero _), ?_, hnext⟩
          intro k hk
          obtain rfl := Nat.le_zero.mp hk
          exact hv
      | some t =>
          obtain ⟨hv', hemits⟩ := next_emits hv (Prod.ext hnext rfl : lx.next = (some t, lx.behind))
          have hless := hemits.lighter
          obtain ⟨count, hcount, hsome, hvalid, hnone⟩ := ih hv' (by omega)
          refine ⟨count + 1, by omega, ?_, ?_, hnone⟩
          · rintro (_ | k) hk
            · show lx.next.1.isSome = true
              rw [hnext]
              rfl
            · exact hsome k (Nat.lt_of_succ_lt_succ hk)
          · rintro (_ | k) hk
            · exact hv
            · exact hvalid k (Nat.le_of_succ_le_succ hk)

theorem readAll_eq_answers {count : Nat} : ∀ {lx : Lexer} {fuel : Nat},
    (∀ k < count, (behind^[k] lx).next.1.isSome) → (behind^[count] lx).next.1 = none → count < fuel →
      readAll fuel lx =
        ((List.range count).filterMap fun k => (behind^[k] lx).next.1, behind^[count + 1] lx) := by
  induction count with
  | zero =>
      intro lx fuel _ hnone hfuel
      obtain ⟨fuel, rfl⟩ := Nat.exists_eq_add_one.mpr hfuel
      have hnext : lx.next = (none, lx.behind) := Prod.ext hnone rfl
      simp only [readAll, hnext]
      rfl
  | succ count ih =>
      intro lx fuel hsome hnone hfuel
      obtain ⟨fuel, rfl⟩ : ∃ k, fuel = k + 1 := ⟨fuel - 1, by omega⟩
      obtain ⟨t, ht⟩ := Option.isSome_iff_exists.mp (hsome 0 (Nat.succ_pos _))
      have hnext : lx.next = (some t, lx.behind) := Prod.ext ht rfl
      have hmore := @ih lx.behind fuel (fun k hk => hsome (k + 1) (by omega)) hnone (by omega)
      rw [List.range_succ_eq_map,
        List.filterMap_cons_some (f := fun k => (behind^[k] lx).next.1) ht, List.filterMap_map]
      simp only [readAll, hnext, hmore]
      rfl

/-- On a text of `n` characters at most `2 * n` calls give a token before the first that gives none.  A call
gives none just when it comes upon an error, or upon the end of the text with no token owed before or
then.  The first such call leaves a halted lexer, which gives nothing ever after and stays as it is, and
the tokens before it are all that a run collects. -/
theorem calls_halt (source : String) :
    ∃ count ≤ 2 * source.length,
      (∀ k < count, (answerAt source k).isSome) ∧ answerAt source count = none ∧
      (afterCalls source (count + 1)).Halted ∧
      (∀ k, answerAt source k = none ↔ (afterCalls source (k + 1)).error ≠ none ∨
        (afterCalls source k).owed = 0 ∧ (afterCalls source (k + 1)).Exhausted) ∧
      (∀ k > count, answerAt source k = none ∧ afterCalls source k = afterCalls source (count + 1)) ∧
      run source = ((List.range count).filterMap (answerAt source), afterCalls source (count + 1)) := by
  obtain ⟨count, hcount, hsome, hvalid, hnone⟩ :=
    exists_last_call (valid_ofText source) (Nat.le_of_eq (weight_ofText source))
  have hstep (k : Nat) : afterCalls source (k + 1) = (afterCalls source k).behind :=
    Function.iterate_succ_apply' behind k _
  have hhalted : (afterCalls source (count + 1)).Halted := by
    rw [hstep]
    exact halted_of_next (hvalid count (Nat.le_refl _)) hnone
  have hstays (k : Nat) (hk : count < k) : afterCalls source k = afterCalls source (count + 1) := by
    obtain ⟨more, rfl⟩ : ∃ more, k = more + (count + 1) := ⟨k - (count + 1), by omega⟩
    exact (Function.iterate_add_apply behind more (count + 1) _).trans (hhalted.iterate more)
  refine ⟨count, hcount, hsome, hnone, hhalted, fun k => ?_, fun k hk => ?_, ?_⟩
  · rw [hstep]
    by_cases hk : k ≤ count
    · exact next_eq_none_iff (hvalid k hk)
    · have hk' : (afterCalls source k).Halted := hstays k (by omega) ▸ hhalted
      exact hk'.next_eq_none_iff
  · refine ⟨?_, hstays k hk⟩
    rw [answerAt, hstays k hk, hhalted.next]
  · exact readAll_eq_answers hsome hnone (by omega)

end

/-- The bound is reached: a blank and a name are a block, the name, and the ends of the line and of the
block. -/
example : (run " a").1.length = 2 * " a".length := by decide

end MysToCpp.Lexer
