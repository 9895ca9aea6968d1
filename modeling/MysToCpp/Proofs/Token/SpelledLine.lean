/-
# Lines of spelled tokens

A word, a mark, a name or a whole number is told by its spelling.  Such tokens, written one behind the
other with a blank between any two of them, are read as what they were (`tokenize_spelled`).  The blanks
keep every spelling apart from the next, so that each token is read on its own; only brackets look back,
to the bracket that they close, and so the brackets have to be nested.
-/
import MysToCpp.Proofs.Token.LaidOut
import MysToCpp.Proofs.Token.Spelling
import MysToCpp.Text.Unicode

namespace MysToCpp

open Lexer (BracketStep Lexes IsIdentifier Apart Unmarked IsOperator isGap isIndentation startsToken
  openBracket? closeBracket?)

namespace TokenKind

/-- How a token is written, if its kind tells. -/
def spelling : TokenKind → String
  | keyword w => w.spelling
  | punct p => p.spelling
  | name s => s
  | int n => toString n
  | float _ | text _ | bytes _ | formatted _ | newline | indent | dedent | endOfFile => ""

/-- The tokens that their spelling tells.  A name is an identifier that is no keyword, and a number is one
of the language. -/
inductive IsSpelled [Text.IdentifierTable] : TokenKind → Prop
  | keyword (w : Keyword) : IsSpelled (keyword w)
  | punct (p : Punct) : IsSpelled (punct p)
  | name {s : String} : IsIdentifier s → Keyword.ofSpelling? s = none → IsSpelled (name s)
  | int {n : Nat} : n < Nat.pow 2 128 → IsSpelled (int n)

theorem eq_punct_of_bracket {k : TokenKind} {p : Punct} (h : k.bracket? = some p) : k = punct p := by
  unfold bracket? at h
  split at h <;> cases h <;> rfl

end TokenKind

namespace Lexer

/-! ## Nested brackets are closed where they were opened -/

/-- What tokens do to the open brackets, one behind the other. -/
inductive BracketRun : List TokenKind → List Char → List Char → Prop
  | nil (stack : List Char) : BracketRun [] stack stack
  | cons {k : TokenKind} {ks : List TokenKind} {stack stack₁ stack₂ : List Char} :
      BracketStep k stack stack₁ → BracketRun ks stack₁ stack₂ → BracketRun (k :: ks) stack stack₂

theorem BracketRun.append {ks ks₁ : List TokenKind} {stack stack₁ stack₂ : List Char}
    (h : BracketRun ks stack stack₁) (h₁ : BracketRun ks₁ stack₁ stack₂) :
    BracketRun (ks ++ ks₁) stack stack₂ := by
  induction h with
  | nil => exact h₁
  | cons hstep _ ih => exact .cons hstep (ih h₁)

theorem bracketRun_of_none {ks : List TokenKind} (h : ∀ k ∈ ks, k.bracket? = none)
    (stack : List Char) : BracketRun ks stack stack := by
  induction ks with
  | nil => exact .nil stack
  | cons k ks ih =>
      exact .cons (.other stack (h k List.mem_cons_self)) (ih fun k' hk' => h k' (.tail _ hk'))

theorem chars_of_bracketPairs {left right : Punct} (h : (left, right) ∈ bracketPairs) :
    ∃ x y, openBracket? x = some left ∧ closeBracket? y = some right ∧ Layout.opening? y = some x := by
  simp only [bracketPairs, List.mem_cons, List.not_mem_nil, or_false, Prod.mk.injEq] at h
  rcases h with ⟨rfl, rfl⟩ | ⟨rfl, rfl⟩ | ⟨rfl, rfl⟩
  · exact ⟨'(', ')', rfl, rfl, rfl⟩
  · exact ⟨'[', ']', rfl, rfl, rfl⟩
  · exact ⟨'\x7b', '\x7d', rfl, rfl, rfl⟩

/-- Nested brackets leave open what was open before them. -/
theorem bracketRun_of_nested {word : List Punct} (h : Nested word) :
    ∀ {ks : List TokenKind}, ks.filterMap TokenKind.bracket? = word →
      ∀ stack, BracketRun ks stack stack := by
  induction h with
  | nil =>
      intro ks hks stack
      exact bracketRun_of_none (List.filterMap_eq_nil_iff.mp hks) stack
  | pair hpair _ _ ih_inner ih_rest =>
      intro ks hks stack
      obtain ⟨x, y, hx, hy, hxy⟩ := chars_of_bracketPairs hpair
      obtain ⟨front, k, behind, rfl, hfront, hk, hbehind⟩ := List.filterMap_eq_cons_iff.mp hks
      obtain ⟨inner, closing, rfl, hinner, hclosing⟩ := List.filterMap_eq_append_iff.mp hbehind
      obtain ⟨middle, k', rest, rfl, hmiddle, hk', hrest⟩ := List.filterMap_eq_cons_iff.mp hclosing
      have hleft := TokenKind.eq_punct_of_bracket hk
      have hright := TokenKind.eq_punct_of_bracket hk'
      subst hleft hright
      have hopened : BracketRun inner (x :: stack) (x :: stack) := ih_inner hinner _
      have hmiddle : BracketRun middle (x :: stack) (x :: stack) := bracketRun_of_none hmiddle _
      have hclosed : BracketRun rest stack stack := ih_rest hrest _
      have hfromRight := hmiddle.append (.cons (.closes stack hy hxy) hclosed)
      exact (bracketRun_of_none hfront stack).append
        (.cons (.opens stack hx) (hopened.append hfromRight))

/-! ## Single tokens -/

/-- Nothing or a blank stands behind a token. -/
def AtBlank (rest : List Char) : Prop := ∀ x ∈ rest.head?, x = ' '

theorem AtBlank.apart [Text.IdentifierTable] {rest : List Char} (h : AtBlank rest) : Apart rest := by
  intro x hx
  rw [h x hx]
  exact ⟨rfl, by decide⟩

theorem AtBlank.unmarked {rest : List Char} (h : AtBlank rest) : Unmarked rest := by
  intro x hx
  rw [h x hx]
  decide

theorem operator_or_points {p : Punct} (h : (TokenKind.punct p).bracket? = none) :
    IsOperator p ∨ p = .dot ∨ p = .ellipsis := by
  revert h
  cases p <;> decide

theorem lexes_spelled [Text.IdentifierTable] {k : TokenKind} {gap rest stack stack' : List Char}
    (hk : k.IsSpelled)
    (hstep : BracketStep k stack stack') (hgap : ∀ y ∈ gap, isGap y = true) (hrest : AtBlank rest) :
    Lexes (gap ++ (k.spelling.toList ++ rest)) stack [k] rest stack' := by
  cases hstep with
  | opens stack hp =>
      rw [TokenKind.spelling, ← spelling_openBracket hp]
      exact lexes_openBracket hp rest stack hgap
  | closes stack hp hxy =>
      rw [TokenKind.spelling, ← spelling_closeBracket hp]
      exact lexes_closeBracket hp hxy rest _ hgap
  | other stack hnone =>
      cases hk with
      | keyword w =>
          have hword : Lexes (gap ++ (w.spelling.toList ++ rest)) stack [.ofWord w.spelling] rest stack :=
            lexes_word (isIdentifier_keyword w) hgap hrest.apart
          rw [ofWord_keyword] at hword
          exact hword
      | name hid hword => exact lexes_name hid hword hgap hrest.apart
      | int hn => exact lexes_int hn hgap hrest.apart
      | punct p =>
          rcases operator_or_points hnone with hp | rfl | rfl
          · exact lexes_operator hp hgap hrest.unmarked
          · exact lexes_dot hgap hrest.apart
          · exact lexes_ellipsis rest stack hgap

/-- A spelling starts with a character that is neither a blank nor ends a line. -/
theorem head_of_spelling [Text.IdentifierTable] {k : TokenKind} (hk : k.IsSpelled) :
    ∃ x more, k.spelling.toList = x :: more ∧ startsToken x = true := by
  cases hk with
  | keyword w =>
      obtain ⟨x, more, hw, hx, -⟩ := isIdentifier_keyword w
      exact ⟨x, more, hw, startsToken_of_identifier hx⟩
  | punct p => cases p <;> exact ⟨_, _, rfl, by decide⟩
  | name hid =>
      obtain ⟨x, more, hs, hx, -⟩ := hid
      exact ⟨x, more, hs, startsToken_of_identifier hx⟩
  | @int n =>
      show ∃ x more, (toString n).toList = x :: more ∧ _
      rw [Nat.toString_eq_ofList_toDigits, String.toList_ofList]
      cases hds : Nat.toDigits 10 n with
      | nil => exact absurd hds Nat.toDigits_ne_nil
      | cons d ds =>
          have hd : Text.isDigit d = true := isDigit_of_mem (hds ▸ List.mem_cons_self)
          exact ⟨d, ds, rfl, startsToken_of_digit hd⟩

/-! ## Lines -/

/-- Tokens with a blank in front of each. -/
def spelledBehind (ks : List TokenKind) : List Char := ks.flatMap fun k => ' ' :: k.spelling.toList

theorem toList_spelled (k : TokenKind) (ks : List TokenKind) :
    (" ".intercalate ((k :: ks).map TokenKind.spelling)).toList =
      k.spelling.toList ++ spelledBehind ks := by
  induction ks generalizing k with
  | nil => simp [spelledBehind]
  | cons k' ks ih =>
      rw [List.map_cons, List.map_cons, String.intercalate_cons_cons, ← List.map_cons,
        String.toList_append, String.toList_append, ih]
      simp [spelledBehind]

theorem atBlank_spelledBehind (ks : List TokenKind) : AtBlank (spelledBehind ks) := by
  cases ks with
  | nil => exact nofun
  | cons k ks =>
      rintro x ⟨⟩
      rfl

variable [Text.IdentifierTable]

theorem lexes_spelledBehind {ks : List TokenKind} {stack stack' : List Char}
    (h : BracketRun ks stack stack') :
    (∀ k ∈ ks, k.IsSpelled) → Lexes (spelledBehind ks) stack ks [] stack' := by
  induction h with
  | nil stack =>
      intro _
      exact .refl [] stack
  | @cons k ks stack stack₁ stack₂ hstep _ ih =>
      intro hks
      have hblank : ∀ y ∈ [' '], isGap y = true := List.all_eq_true.mp rfl
      have hfirst := lexes_spelled (hks k List.mem_cons_self) hstep hblank (atBlank_spelledBehind ks)
      exact hfirst.trans (ih fun k' hk' => hks k' (.tail _ hk'))

end Lexer

open Lexer in
/-- Tokens that are told by their spelling are read from it, with blanks between them. -/
theorem tokenize_spelled [Text.IdentifierTable] {ks : List TokenKind} (hne : ks ≠ [])
    (hks : ∀ k ∈ ks, k.IsSpelled)
    (hnested : Nested (ks.filterMap TokenKind.bracket?)) :
    ∃ ts, tokenize (" ".intercalate (ks.map TokenKind.spelling)) = .ok ts ∧
      ts.map (·.kind) = ks ++ [.newline, .endOfFile] := by
  cases ks with
  | nil => exact absurd rfl hne
  | cons k ks =>
      have hk := hks k List.mem_cons_self
      obtain ⟨x, more, hspelling, hx⟩ := head_of_spelling hk
      have hline := toList_spelled k ks
      have htext : (" ".intercalate ((k :: ks).map TokenKind.spelling)).toList =
          x :: (more ++ spelledBehind ks) := by
        rw [hline, hspelling, List.cons_append]
      obtain ⟨hindentation, hcode⟩ := startsToken_code hx
      have hlexes : Lexes (k.spelling.toList ++ spelledBehind ks) [] (k :: ks) [] [] := by
        cases bracketRun_of_nested hnested rfl [] with
        | cons hstep hrun =>
            have hnone : ∀ y ∈ ([] : List Char), isGap y = true := nofun
            have hfirst := lexes_spelled hk hstep hnone (atBlank_spelledBehind ks)
            exact hfirst.trans (lexes_spelledBehind hrun fun k' hk' => hks k' (.tail _ hk'))
      rw [← hline] at hlexes
      exact tokenize_lexed htext hindentation hcode hlexes hne

/-- Marks that would be one mark without the blanks, a name that starts as a raw string does, points beside a
number, and brackets in brackets. -/
theorem tokenize_spelled_sample :
    let ks : List TokenKind := [.name "rb", .punct .assign, .punct .assign, .punct .squareOpen, .int 1,
      .punct .dot, .int 0, .punct .braceOpen, .punct .braceClose, .punct .squareClose, .punct .dot,
      .punct .ellipsis, .keyword .notKw, .keyword .inKw]
    ∃ ts, tokenize "rb = = [ 1 . 0 { } ] . ... not in" = .ok ts ∧
      ts.map (·.kind) = ks ++ [.newline, .endOfFile] := by
  intro ks
  have hks : ∀ k ∈ ks, k.IsSpelled := by
    intro k hk
    simp only [ks, List.mem_cons, List.not_mem_nil, or_false] at hk
    rcases hk with rfl | rfl | rfl | rfl | rfl | rfl | rfl | rfl | rfl | rfl | rfl | rfl | rfl | rfl
    case inl => exact .name ⟨'r', ['b'], rfl, rfl, List.all_eq_true.mp rfl⟩ rfl
    all_goals first | exact .punct _ | exact .keyword _ | exact .int (by decide)
  have hbraces : Nested [.braceOpen, .braceClose] := .pair (by decide) .nil .nil
  have hnested : Nested [.squareOpen, .braceOpen, .braceClose, .squareClose] :=
    .pair (by decide) hbraces .nil
  have hne : ks ≠ [] := by decide
  exact tokenize_spelled hne hks hnested

end MysToCpp
