/-
# Runs of parsers

A parser is a function, so what it does at a state is an equation: `p s = (some a, s')` says that `p`
gives `a` and goes on at `s'`.  Here stand the equations of the ways of putting parsers together.  Loops
have relations of their own: `Climbs`, `Unfolds` and `Collects` list the rounds of a loop one after the
other, each of which reads a token, and say what the loop gives.  That the number of rounds is bounded
never shows: there are more of them than tokens.
-/
import MysToCpp.Parser.Basic

namespace MysToCpp

/-- Marks, words and layout: tokens without a value, which the parsers ask for by their kind. -/
class TokenKind.Fixed (k : TokenKind) : Prop where
  ne_end : k ≠ .endOfFile
  ne_float : ∀ x, k ≠ .float x
  ne_name : ∀ text, k ≠ .name text

instance (p : Punct) : TokenKind.Fixed (.punct p) := ⟨nofun, nofun, nofun⟩

instance (w : Keyword) : TokenKind.Fixed (.keyword w) := ⟨nofun, nofun, nofun⟩

instance : TokenKind.Fixed .newline := ⟨nofun, nofun, nofun⟩

instance : TokenKind.Fixed .indent := ⟨nofun, nofun, nofun⟩

instance : TokenKind.Fixed .dedent := ⟨nofun, nofun, nofun⟩

/-! ## States -/

namespace ParserState

/-- The kinds of the tokens to read: what a parser decides by. -/
def kinds (s : ParserState) : List TokenKind := s.rest.map (·.kind)

theorem kinds_length (s : ParserState) : s.kinds.length = s.rest.length := List.length_map _

theorem kind_eq (s : ParserState) : s.kind = s.kinds.headD .endOfFile := by
  unfold kind kinds
  cases s.rest <;> rfl

theorem secondKind_eq (s : ParserState) : s.secondKind = s.kinds.tail.headD .endOfFile := by
  unfold secondKind kinds
  match s.rest with
  | [] | [_] | _ :: _ :: _ => rfl

theorem kinds_advance (s : ParserState) : s.advance.kinds = s.kinds.tail := by
  unfold advance kinds
  cases h : s.rest with
  | nil => simp [h]
  | cons t rest => rfl

theorem kind_of_kinds {s : ParserState} {k : TokenKind} {ks : List TokenKind}
    (h : s.kinds = k :: ks) : s.kind = k := by
  rw [kind_eq, h]
  rfl

/-- Tokens are told apart by their kind, except that numbers are compared as numbers. -/
theorem isAt_iff {s : ParserState} {k : TokenKind} [hk : k.Fixed] :
    s.isAt k = true ↔ s.kind = k := by
  unfold isAt TokenKind.same
  split
  · next y _ => exact absurd rfl (hk.ne_float y)
  · exact decide_eq_true_iff

end ParserState

namespace Parser

variable {α β σ : Type}

/-! ## One behind the other -/

theorem bind_some {p : Parser α} {f : α → Parser β} {s s' : ParserState} {a : α}
    (hp : p s = (some a, s')) : (p >>= f) s = f a s' := by
  show Parser.bind p f s = f a s'
  unfold Parser.bind
  rw [hp]

theorem bind_none {p : Parser α} {f : α → Parser β} {s s' : ParserState}
    (hp : p s = (none, s')) : (p >>= f) s = (none, s') := by
  show Parser.bind p f s = (none, s')
  unfold Parser.bind
  rw [hp]

/-! ## What a parser gives

Where tokens stand does not matter to what is read, so that the runs of the grammar are stated on the
kinds of the tokens. -/

/-- At `s`, `p` gives a value that satisfies `Q`, and goes on where tokens of the kinds `tail` are
left. -/
def Gives (p : Parser α) (s : ParserState) (tail : List TokenKind) (Q : α → Prop) : Prop :=
  ∃ a s', p s = (some a, s') ∧ s'.kinds = tail ∧ Q a

section Gives

variable {p q : Parser α} {f : α → Parser β} {s : ParserState} {k : TokenKind}
  {ks mid tail : List TokenKind} {P Q : α → Prop} {R : β → Prop}

theorem Gives.bind (hp : Gives p s mid P)
    (hf : ∀ a s₁, s₁.kinds = mid → P a → Gives (f a) s₁ tail R) : Gives (p >>= f) s tail R := by
  obtain ⟨a, s₁, hrun, hmid, ha⟩ := hp
  obtain ⟨b, s₂, hrun₂, htail, hb⟩ := hf a s₁ hmid ha
  exact ⟨b, s₂, (bind_some hrun).trans hrun₂, htail, hb⟩

theorem Gives.imp (hp : Gives p s tail P) (h : ∀ a, P a → Q a) : Gives p s tail Q := by
  obtain ⟨a, s₁, hrun, htail, ha⟩ := hp
  exact ⟨a, s₁, hrun, htail, h a ha⟩

theorem gives_pure {a : α} (hs : s.kinds = tail) (h : Q a) : Gives (pure a) s tail Q :=
  ⟨a, s, rfl, hs, h⟩

theorem Gives.after {a : α} {s₁ : ParserState} (h : Gives (f a) s₁ tail R)
    (hrun : p s = (some a, s₁)) : Gives (p >>= f) s tail R := by
  obtain ⟨b, s₂, hrun₂, htail, hb⟩ := h
  exact ⟨b, s₂, (bind_some hrun).trans hrun₂, htail, hb⟩

theorem gives_ask {get : ParserState → α} (h : Gives (f (get s)) s tail R) :
    Gives (ask get >>= f) s tail R := h.after rfl

theorem kinds_advance_of_kinds (hs : s.kinds = k :: ks) : s.advance.kinds = ks := by
  rw [s.kinds_advance, hs]
  rfl

theorem gives_advance {f : Unit → Parser β} (hs : s.kinds = k :: ks)
    (h : ∀ s₁, s₁.kinds = ks → Gives (f ()) s₁ tail R) : Gives (advance >>= f) s tail R :=
  (h s.advance (kinds_advance_of_kinds hs)).after rfl

theorem isAt_of_kinds (hs : s.kinds = k :: ks) [k.Fixed] : s.isAt k = true :=
  ParserState.isAt_iff.mpr (ParserState.kind_of_kinds hs)

theorem not_isAt_of_kind (hs : s.kind ≠ k) [k.Fixed] : s.isAt k = false := by
  rw [← Bool.not_eq_true, ParserState.isAt_iff]
  exact hs

theorem gives_expect {f : Span → Parser β} (hs : s.kinds = k :: ks)
    (h : ∀ span s₁, s₁.kinds = ks → Gives (f span) s₁ tail R)
    [k.Fixed] : Gives (expect k >>= f) s tail R :=
  (h s.span s.advance (kinds_advance_of_kinds hs)).after (by simp [expect, isAt_of_kinds hs])

theorem gives_identifier {f : Ident → Parser β} {text : String} (hs : s.kinds = .name text :: ks)
    (h : ∀ span s₁, s₁.kinds = ks → Gives (f ⟨text, span⟩) s₁ tail R) :
    Gives (identifier >>= f) s tail R :=
  (h s.span s.advance (kinds_advance_of_kinds hs)).after
    (by simp [identifier, ParserState.kind_of_kinds hs])

theorem gives_skip_bind {f : Bool → Parser β} (hs : s.kinds = k :: ks)
    (h : ∀ s₁, s₁.kinds = ks → Gives (f true) s₁ tail R) [k.Fixed] :
    Gives (skip k >>= f) s tail R :=
  (h s.advance (kinds_advance_of_kinds hs)).after (by simp [skip, isAt_of_kinds hs])

theorem gives_no_skip_bind {f : Bool → Parser β} (hs : s.kind ≠ k) (h : Gives (f false) s tail R)
    [k.Fixed] : Gives (skip k >>= f) s tail R :=
  h.after (by simp [skip, not_isAt_of_kind hs])

theorem gives_skip (hs : s.kinds = k :: ks) (h : ∀ s₁, s₁.kinds = ks → Gives p s₁ tail Q)
    [k.Fixed] :
    Gives (skip k >>= fun b => if b = true then p else q) s tail Q :=
  gives_skip_bind hs (fun s₁ h₁ => by rw [if_pos rfl]; exact h s₁ h₁)

theorem gives_no_skip (hs : s.kind ≠ k) (h : Gives q s tail Q)
    [k.Fixed] :
    Gives (skip k >>= fun b => if b = true then p else q) s tail Q :=
  gives_no_skip_bind hs (by rw [if_neg Bool.false_ne_true]; exact h)

theorem gives_isAt (hs : s.kind = k) (h : Gives p s tail Q) [k.Fixed] :
    Gives (isAt k >>= fun b => if b = true then p else q) s tail Q := by
  refine gives_ask ?_
  rw [if_pos (ParserState.isAt_iff.mpr hs)]
  exact h

theorem gives_not_isAt (hs : s.kind ≠ k) (h : Gives q s tail Q)
    [k.Fixed] :
    Gives (isAt k >>= fun b => if b = true then p else q) s tail Q := by
  refine gives_ask ?_
  rw [if_neg fun hat => hs (ParserState.isAt_iff.mp hat)]
  exact h

end Gives

/-! ## Loops -/

/-- From `a` at `s`, rounds of a loop lead to `b` at `s'`. -/
inductive Climbs (step : σ → Parser (Option σ)) : σ → ParserState → σ → ParserState → Prop
  | refl (a : σ) (s : ParserState) : Climbs step a s a s
  | round {a b c : σ} {s s₁ s₂ : ParserState} : Climbs step a s b s₁ →
      step b s₁ = (some (some c), s₂) → s₂.rest.length < s₁.rest.length → Climbs step a s c s₂

theorem Climbs.skip {step : σ → Parser (Option σ)} {a b : σ} {s s' : ParserState}
    (h : Climbs step a s b s') :
    ∀ fuel, s.rest.length < fuel → ∃ left, s'.rest.length < left ∧
      repeatFuel step fuel a s = repeatFuel step left b s' := by
  induction h with
  | refl => exact fun fuel hlt => ⟨fuel, hlt, rfl⟩
  | round _ hstep hless ih =>
      intro fuel hlt
      obtain ⟨left, hleft, he⟩ := ih fuel hlt
      obtain ⟨left, rfl⟩ : ∃ k, left = k + 1 := ⟨left - 1, by omega⟩
      refine ⟨left, by omega, ?_⟩
      rw [he, repeatFuel, bind_some hstep]

theorem Climbs.run {step : σ → Parser (Option σ)} {a b : σ} {s s' : ParserState}
    (h : Climbs step a s b s') {s₂ : ParserState} (hstop : step b s' = (some none, s₂)) :
    repeatWhile step a s = (some b, s₂) := by
  obtain ⟨left, hleft, he⟩ := h.skip (s.rest.length + 1) (Nat.lt_succ_self _)
  obtain ⟨left, rfl⟩ : ∃ k, left = k + 1 := ⟨left - 1, by omega⟩
  show repeatFuel step (s.rest.length + 1) a s = (some b, s₂)
  rw [he, repeatFuel, bind_some hstop]
  rfl

/-- From `a` at `s`, a step gives the values `xs` one after the other and then stops at `s'`. -/
inductive Unfolds (step : σ → Parser (Option (α × σ))) :
    σ → ParserState → List α → ParserState → Prop
  | stop {a : σ} {s s' : ParserState} : step a s = (some none, s') → Unfolds step a s [] s'
  | round {a b : σ} {x : α} {xs : List α} {s s₁ s' : ParserState} :
      step a s = (some (some (x, b)), s₁) → s₁.rest.length < s.rest.length →
      Unfolds step b s₁ xs s' → Unfolds step a s (x :: xs) s'

theorem Unfolds.climbs {step : σ → Parser (Option (α × σ))} {a : σ} {xs : List α}
    {s s' : ParserState} (h : Unfolds step a s xs s') :
    ∀ {start : List α × σ} {s₀ : ParserState} {found : List α},
      Climbs (gather step) start s₀ (found, a) s →
      ∃ last s₁, Climbs (gather step) start s₀ (xs.reverse ++ found, last) s₁ ∧
        gather step (xs.reverse ++ found, last) s₁ = (some none, s') := by
  induction h with
  | stop hstep =>
      intro start s₀ found hc
      refine ⟨_, _, hc, ?_⟩
      rw [gather, bind_some hstep]
      rfl
  | round hstep hless _ ih =>
      intro start s₀ found hc
      rw [List.reverse_cons, List.append_assoc]
      refine ih (hc.round ?_ hless)
      rw [gather, bind_some hstep]
      rfl

theorem Unfolds.run {step : σ → Parser (Option (α × σ))} {a : σ} {xs : List α}
    {s s' : ParserState} (h : Unfolds step a s xs s') : unfold step a s = (some xs, s') := by
  obtain ⟨last, s₁, hc, hstop⟩ := h.climbs (.refl ([], a) s)
  rw [unfold, bind_some (hc.run hstop)]
  show (some (xs.reverse ++ []).reverse, s') = (some xs, s')
  rw [List.append_nil, List.reverse_reverse]

/-- At `s`, a parser gives the values `xs` one after the other and then stops at `s'`. -/
inductive Collects (p : Parser (Option α)) : ParserState → List α → ParserState → Prop
  | stop {s s' : ParserState} : p s = (some none, s') → Collects p s [] s'
  | round {x : α} {xs : List α} {s s₁ s' : ParserState} : p s = (some (some x), s₁) →
      s₁.rest.length < s.rest.length → Collects p s₁ xs s' → Collects p s (x :: xs) s'

theorem Collects.unfolds {p : Parser (Option α)} {xs : List α} {s s' : ParserState}
    (h : Collects p s xs s') : Unfolds (untold p) () s xs s' := by
  induction h with
  | stop hp =>
      refine .stop ?_
      rw [untold, bind_some hp]
      rfl
  | round hp hless _ ih =>
      refine .round ?_ hless ih
      rw [untold, bind_some hp]
      rfl

theorem Collects.run {p : Parser (Option α)} {xs : List α} {s s' : ParserState}
    (h : Collects p s xs s') : many p s = (some xs, s') := h.unfolds.run

/-- Collecting gives one value for each part, where `follows` describes what can stand behind a part:
another one, or what ends them. -/
theorem gives_many {ι γ : Type} {p : Parser (Option α)} {stop tail : List TokenKind} {n : Nat}
    {xs : List ι} (text : ι → List TokenKind) (follows : List TokenKind → Prop) (view : α → γ)
    (goal : ι → γ) (hend : ∀ s : ParserState, s.kinds = stop → Gives p s tail (· = none))
    (hstop : follows stop) (htext : ∀ x ∈ xs, text x ≠ [] ∧ ∀ rest, follows (text x ++ rest))
    (hround : ∀ x ∈ xs, ∀ (s : ParserState) rest, s.kinds = text x ++ rest → s.rest.length < n →
      follows rest → Gives p s rest fun r => ∃ a, r = some a ∧ view a = goal x) :
    ∀ s : ParserState, s.kinds = xs.flatMap text ++ stop → s.rest.length < n →
      Gives (many p) s tail fun found => found.map view = xs.map goal := by
  suffices h : ∀ s : ParserState, s.kinds = xs.flatMap text ++ stop → s.rest.length < n →
      ∃ found s', Collects p s found s' ∧ s'.kinds = tail ∧ found.map view = xs.map goal by
    intro s hs hlt
    obtain ⟨found, s', hc, htail, hview⟩ := h s hs hlt
    exact ⟨found, s', hc.run, htail, hview⟩
  induction xs with
  | nil =>
      intro s hs _
      obtain ⟨r, s', hrun, htail, rfl⟩ := hend s hs
      exact ⟨[], s', .stop hrun, htail, rfl⟩
  | cons x xs ih =>
      intro s hs hlt
      rw [List.flatMap_cons, List.append_assoc] at hs
      have hfollows : follows (xs.flatMap text ++ stop) := by
        cases xs with
        | nil => exact hstop
        | cons y ys =>
            rw [List.flatMap_cons, List.append_assoc]
            exact (htext y (by simp)).2 _
      obtain ⟨r, s₁, hrun, hs₁, a, rfl, ha⟩ := hround x List.mem_cons_self s _ hs hlt hfollows
      have hless : s₁.rest.length < s.rest.length := by
        have hpos := List.length_pos_iff.mpr (htext x List.mem_cons_self).1
        rw [← s.kinds_length, hs, ← hs₁, List.length_append, s₁.kinds_length]
        omega
      obtain ⟨found, s', hc, htail, hview⟩ := ih (fun y hy => htext y (.tail _ hy))
        (fun y hy => hround y (.tail _ hy)) s₁ hs₁ (by omega)
      exact ⟨a :: found, s', .round hrun hless hc, htail, by rw [List.map_cons, ha, hview]; rfl⟩

end Parser

end MysToCpp
