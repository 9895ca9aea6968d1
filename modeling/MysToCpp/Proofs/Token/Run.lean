/-
# Runs of the lexer

A `Lexer.Trace` is a run of the lexer with the tokens that it has given so far.  The tokens of a text
are those of a run that comes to the end of it, with `endOfFile` behind them, so that what holds along
every run holds in front of every token of every text (`tokenize_before`).
-/
import MysToCpp.Proofs.Token.Next

namespace MysToCpp

namespace Lexer

/-- The lexer has come from `lx₀` to `lx` and has given `ts` on its way. -/
inductive Trace (lx₀ : Lexer) : List Token → Lexer → Prop
  | nil : Trace lx₀ [] lx₀
  | snoc {ts : List Token} {lx lx' : Lexer} {t : Token} : Trace lx₀ ts lx → lx.Emits t lx' →
      Trace lx₀ (ts ++ [t]) lx'

theorem Trace.eq_start {lx₀ lx : Lexer} (h : Trace lx₀ [] lx) : lx = lx₀ := by
  generalize hts : ([] : List Token) = ts at h
  cases h with
  | nil => rfl
  | snoc => exact absurd hts.symm (List.append_ne_nil_of_right_ne_nil _ (List.cons_ne_nil _ _))

theorem Trace.before {lx₀ lx : Lexer} {ts : List Token} (h : Trace lx₀ ts lx) :
    ∀ {before after : List Token} {t : Token}, ts = before ++ t :: after →
      ∃ lx₁ lx₂, Trace lx₀ before lx₁ ∧ lx₁.Emits t lx₂ := by
  induction h with
  | nil =>
      intro before after t hts
      exact absurd hts.symm (List.append_ne_nil_of_right_ne_nil _ (List.cons_ne_nil _ _))
  | @snoc ts lx lx' u htrace hemits ih =>
      intro before after t hts
      rcases List.eq_nil_or_concat after with rfl | ⟨after', v, rfl⟩
      · obtain ⟨rfl, hu⟩ := List.append_inj' hts rfl
        cases hu
        exact ⟨lx, lx', htrace, hemits⟩
      · have hsplit : ts ++ [u] = (before ++ t :: after') ++ [v] := by simpa using hts
        obtain ⟨hinit, -⟩ := List.append_inj' hsplit rfl
        exact ih hinit

theorem Trace.last {lx₀ lx : Lexer} {ts : List Token} {t : Token}
    (h : Trace lx₀ (ts ++ [t]) lx) : ∃ lx₁, Trace lx₀ ts lx₁ ∧ lx₁.Emits t lx := by
  generalize hall : ts ++ [t] = all at h
  cases h with
  | nil => exact absurd hall (List.append_ne_nil_of_right_ne_nil _ (List.cons_ne_nil _ _))
  | @snoc ts' lx₁ _ u htrace hemits =>
      obtain ⟨rfl, hu⟩ := List.append_inj' hall rfl
      cases hu
      exact ⟨lx₁, htrace, hemits⟩

/-! ## Whole texts -/

theorem valid_ofText (source : String) : (ofText source).Valid :=
  valid_of_reading rfl rfl rfl (fun _ => rfl) nofun rfl

theorem weight_ofText (source : String) : (ofText source).weight = 2 * source.length := by
  show 2 * source.toList.length + 0 + 0 = 2 * source.length
  rw [String.length_toList]
  rfl

variable [Text.IdentifierTable]

/-- Every token makes the lexer lighter, so the fuel is enough to come to the end or to an error. -/
theorem readAll_trace (fuel : Nat) : ∀ {lx₀ lx : Lexer} {before : List Token},
    Trace lx₀ before lx → lx.Valid → lx.weight < fuel →
      (readAll fuel lx).2.error ≠ none ∨ ∃ lx₁, Trace lx₀ (before ++ (readAll fuel lx).1) lx₁ ∧
        lx₁.Ends (readAll fuel lx).2 := by
  induction fuel with
  | zero =>
      intro lx₀ lx before _ _ hfuel
      exact absurd hfuel (Nat.not_lt_zero _)
  | succ fuel ih =>
      intro lx₀ lx before htrace hv hfuel
      have hnext := next_outcome hv
      unfold readAll
      split
      · next lx' hnone =>
        rw [hnone] at hnext
        rcases hnext with herror | hends
        · exact .inl herror
        · refine .inr ⟨lx, ?_, hends⟩
          rw [List.append_nil]
          exact htrace
      · next t lx' hsome =>
        rw [hsome] at hnext
        obtain ⟨hv', hemits⟩ := hnext
        have hless := hemits.lighter
        rcases ih (htrace.snoc hemits) hv' (by omega) with herror | ⟨lx₁, htrace₁, hends⟩
        · exact .inl herror
        · refine .inr ⟨lx₁, ?_, hends⟩
          rw [List.append_assoc] at htrace₁
          exact htrace₁

end Lexer

open Lexer (Trace)

variable [Text.IdentifierTable]

theorem exists_tokens {source : String} {p : List Token → Bool}
    (h : (tokenize source).toOption.any p = true) : ∃ ts, tokenize source = .ok ts ∧ p ts = true := by
  cases hts : tokenize source with
  | error e =>
      rw [hts] at h
      cases h
  | ok ts =>
      rw [hts] at h
      exact ⟨ts, rfl, h⟩

theorem tokenize_trace {source : String} {ts : List Token} (h : tokenize source = .ok ts) :
    ∃ init lx lx', ts = init ++ [⟨.endOfFile, .empty lx'.position⟩] ∧
      Trace (.ofText source) init lx ∧ lx.Ends lx' := by
  have hrun := Lexer.readAll_trace (2 * source.length + 1) .nil (Lexer.valid_ofText source)
    (by rw [Lexer.weight_ofText]; exact Nat.lt_succ_self _)
  unfold tokenize at h
  dsimp only at h
  split at h
  · cases h
  · next herror =>
    cases h
    rcases hrun with hne | ⟨lx, htrace, hends⟩
    · exact absurd herror hne
    · exact ⟨_, lx, _, rfl, htrace, hends⟩

/-- In front of every token of a text there is a run, which gives the token or has come to the end of
the text. -/
theorem tokenize_before {source : String} {ts before after : List Token} {t : Token}
    (h : tokenize source = .ok ts) (hts : ts = before ++ t :: after) :
    ∃ lx lx', Trace (.ofText source) before lx ∧ (lx.Emits t lx' ∨
      lx.Ends lx' ∧ t = ⟨.endOfFile, .empty lx'.position⟩ ∧ after = []) := by
  obtain ⟨init, lx, lx', hall, htrace, hends⟩ := tokenize_trace h
  rcases List.eq_nil_or_concat after with rfl | ⟨after', u, rfl⟩
  · obtain ⟨rfl, ht⟩ := List.append_inj' (hall.symm.trans hts) rfl
    cases ht
    exact ⟨lx, lx', htrace, .inr ⟨hends, rfl, rfl⟩⟩
  · have hsplit : init ++ [⟨.endOfFile, .empty lx'.position⟩] = (before ++ t :: after') ++ [u] := by
      rw [← hall, hts]
      simp
    obtain ⟨hinit, -⟩ := List.append_inj' hsplit rfl
    obtain ⟨lx₁, lx₂, htrace₁, hemits⟩ := htrace.before hinit
    exact ⟨lx₁, lx₂, htrace₁, .inl hemits⟩

end MysToCpp
