/-
# Reading goes on and comes to an end

Nothing that is read is read twice, and no value is given for nothing: a state stands at a position among
all tokens, and a routine of the grammar that gives a value has moved it behind at least one of them, but
never behind the last (`Routine.progress`).  Two things follow.

A loop ends by itself.  `Rounds` follows a loop without any bound, so that one which goes on for ever has
no rounds at all; `Loop` lists the loops of the grammar.  Each of them has rounds from every state, at most
one more than there are tokens left, and they lead to what `Parser.repeatWhile` gives.

So does the recursion.  It was shown that nothing depends on the fuel that bounds the nesting; with the
loops, none of the bounds that make the parsers total functions is ever hit.
-/
import MysToCpp.Proofs.Parser.Discipline

namespace MysToCpp

/-! ## Positions -/

namespace ParserState

/-- What is left to read are the tokens from a position on, which may be the one behind the last. -/
def StandsAt (tokens : List Token) (pos : Nat) (s : ParserState) : Prop :=
  pos ≤ tokens.length ∧ s.rest = tokens.drop pos

theorem standsAt_start (tokens : List Token) : StandsAt tokens 0 { rest := tokens } :=
  ⟨Nat.zero_le _, rfl⟩

variable {tokens : List Token} {pos : Nat} {s s' : ParserState}

theorem StandsAt.reaches (h : s.StandsAt tokens pos) (hr : s.Reaches s') :
    ∃ pos', s'.StandsAt tokens pos' ∧ pos + s.rest.length = pos' + s'.rest.length := by
  obtain ⟨hpos, hrest⟩ := h
  obtain ⟨read, hread, -⟩ := hr
  have hlength := congrArg List.length hread
  have hleft := congrArg List.length hrest
  rw [List.length_append] at hlength
  rw [List.length_drop] at hleft
  refine ⟨pos + read.length, ⟨by omega, ?_⟩, by omega⟩
  rw [← List.drop_drop, ← hrest, hread, List.drop_left]

end ParserState

namespace Parser

open Keyword Punct

variable {α β σ : Type} {n : Nat}

/-! ## Progress -/

/-- The routines that read an expression, a statement, or several of them. -/
inductive Routine (s : ParserState) : {α : Type} → Parser α → Prop
  | expression {nested} (b : Nat) : ReadsExpressions s nested → Routine s (nested b)
  | expressionList {nested} (b : Nat) : ReadsExpressions s nested →
      Routine s (expressionList nested b)
  | statement {inner} : ReadsStatements s inner → Routine s inner
  | simpleStatements : Routine s simpleStatements
  | smallStatement : Routine s smallStatement
  | block {inner} : ReadsStatements s inner → Routine s (block inner)

theorem Starts.progresses {p q : Parser α} {parts : α → List Part} {V : α → Prop} {s : ParserState}
    (h : Starts .nothing n p q parts V) (hs : s.rest.length < n) :
    Keeps .nothing p q s fun _ s' => s'.rest.length < s.rest.length :=
  (h s hs).imp fun _ _ _ hq => hq.1.few

theorem Routine.progresses {s : ParserState} {p : Parser α} (h : Routine s p) :
    Keeps .nothing p p s fun _ s' => s'.rest.length < s.rest.length := by
  have hlt := Nat.lt_succ_self s.rest.length
  cases h with
  | expression b hn =>
      obtain ⟨n, hs, hn⟩ := hn.reads
      exact (hn b).progresses hs
  | expressionList b hn =>
      obtain ⟨n, hs, hn⟩ := hn.reads
      exact (starts_expressionList hn b).progresses hs
  | statement hst =>
      obtain ⟨n, hs, hst⟩ := hst.starts
      exact hst.progresses hs
  | simpleStatements => exact starts_simpleStatements.progresses hlt
  | smallStatement => exact starts_smallStatement.progresses hlt
  | block hst =>
      obtain ⟨n, hs, hst⟩ := hst.starts
      exact (starts_block hst).progresses hs

/-- A value is given for at least one token, and reading stays within the tokens in any case. -/
theorem Routine.progress {tokens : List Token} {pos : Nat} {s : ParserState} {p : Parser α}
    (h : Routine s p) (hs : s.StandsAt tokens pos) :
    ∃ pos', (p s).2.StandsAt tokens pos' ∧ pos ≤ pos' ∧ ((p s).1.isSome = true → pos < pos') := by
  have hrun := h.progresses
  have hreaches := (hrun s.kept_nothing).2.1.reaches
  obtain ⟨pos', hpos', hlength⟩ := hs.reaches hreaches
  have hle := hreaches.length_le
  refine ⟨pos', hpos', by omega, fun hsome => ?_⟩
  obtain ⟨a, ha⟩ := Option.isSome_iff_exists.mp hsome
  have hvalue : p s = (some a, (p s).2) := Prod.ext ha rfl
  have hlt := (hrun.value s.kept_nothing hvalue).2.2
  omega

/-! ## Rounds -/

/-- From `a` at `s` a loop goes on, with no bound on its rounds, until `count` of them are done; then it
ends with `answer`. -/
inductive Rounds (step : σ → Parser (Option σ)) :
    σ → ParserState → Nat → Option σ × ParserState → Prop
  /-- The last round asks for no other one. -/
  | stop {a : σ} {s s' : ParserState} : step a s = (some none, s') → Rounds step a s 1 (some a, s')
  /-- A round fails, and with it the loop. -/
  | fail {a : σ} {s s' : ParserState} : step a s = (none, s') → Rounds step a s 1 (none, s')
  | round {a b : σ} {s s₁ : ParserState} {count : Nat} {answer : Option σ × ParserState} :
      step a s = (some (some b), s₁) → Rounds step b s₁ count answer →
      Rounds step a s (count + 1) answer

/-- A bounded loop gives what the rounds lead to, if the bound is not below their number. -/
theorem Rounds.run {step : σ → Parser (Option σ)} {a : σ} {s : ParserState} {count : Nat}
    {answer : Option σ × ParserState} (h : Rounds step a s count answer) :
    ∀ fuel, count ≤ fuel → repeatFuel step fuel a s = answer := by
  induction h with
  | stop hstep =>
      intro fuel hle
      obtain ⟨more, rfl⟩ := Nat.exists_eq_add_of_le' hle
      rw [repeatFuel, bind_some hstep]
      rfl
  | fail hstep =>
      intro fuel hle
      obtain ⟨more, rfl⟩ := Nat.exists_eq_add_of_le' hle
      rw [repeatFuel, bind_none hstep]
  | round hstep _ ih =>
      intro fuel hle
      obtain ⟨more, rfl⟩ := Nat.exists_eq_add_of_le' (Nat.le_trans (Nat.le_add_left 1 _) hle)
      rw [repeatFuel, bind_some hstep]
      exact ih more (Nat.le_of_succ_le_succ hle)

/-- Another round is paid for with a token, wherever fewer than `n` are left. -/
def Pays (n : Nat) (p : Parser (Option α)) : Prop :=
  ∀ s s' a, s.rest.length < n → p s = (some (some a), s') → s'.rest.length < s.rest.length

theorem pays_of_keeps {p q : Parser (Option α)} (h : ∀ s : ParserState, s.rest.length < n →
    Keeps .nothing p q s fun r s' => ∀ a, r = some a → s'.rest.length < s.rest.length) : Pays n q :=
  fun s _ _ hs hrun => ((h s hs).value s.kept_nothing hrun).2.2 _ rfl

theorem Steps.pays {p q : Parser (Option α)} {parts : α → List Part} {V : α → Prop}
    (h : Steps .nothing n p q parts V) : Pays n q :=
  pays_of_keeps fun s hs => (h s hs).imp fun _ _ _ hq a ha => (hq a ha).1.few

theorem Pays.bind {p : Parser (Option α)} {f : Option α → Parser (Option β)} (h : Pays n p)
    (hnone : f none = pure none) (hsome : ∀ a, ∃ b, f (some a) = pure (some b)) :
    Pays n (p >>= f) := by
  intro s s' found hs hrun
  match hstep : p s with
  | (some (some a), s₁) =>
      obtain ⟨b, hb⟩ := hsome a
      rw [bind_some hstep, hb] at hrun
      cases hrun
      exact h s s' a hs hstep
  | (some none, s₁) =>
      rw [bind_some hstep, hnone] at hrun
      cases hrun
  | (none, s₁) =>
      rw [bind_none hstep] at hrun
      cases hrun

theorem pays_gather {step : σ → Parser (Option (α × σ))} (h : ∀ a, Pays n (step a))
    (now : List α × σ) : Pays n (gather step now) :=
  (h now.2).bind rfl fun _ => ⟨_, rfl⟩

theorem pays_untold {p : Parser (Option α)} (h : Pays n p) (a : Unit) : Pays n (untold p a) :=
  h.bind rfl fun _ => ⟨_, rfl⟩

theorem pays_moduleItem : Pays n moduleItem := by
  intro s s' stmts _ hrun
  rcases moduleItem_cases s.kept_nothing with ⟨_, s₁, hitem, -, -, hless, -⟩ | ⟨s₁, hitem, -⟩
  · rw [hitem] at hrun
    cases hrun
    exact hless
  · rw [hitem] at hrun
    cases hrun

/-- A loop whose rounds are paid for ends, at the latest with the round behind the last token.  The
induction is on a bound of the tokens left, which a round that asks for another one lowers. -/
theorem exists_rounds {step : σ → Parser (Option σ)} (h : ∀ a, Pays n (step a)) (left : Nat) :
    ∀ (a : σ) (s : ParserState), s.rest.length < left → s.rest.length < n →
      ∃ count ≤ s.rest.length + 1, ∃ answer, Rounds step a s count answer := by
  induction left with
  | zero => exact fun a s hleft => absurd hleft (Nat.not_lt_zero _)
  | succ left ih =>
      intro a s hleft hs
      match hstep : step a s with
      | (some (some b), s₁) =>
          have hless := h a s s₁ b hs hstep
          obtain ⟨count, hcount, answer, hrounds⟩ := ih b s₁ (by omega) (by omega)
          exact ⟨count + 1, by omega, answer, .round hstep hrounds⟩
      | (some none, s₁) => exact ⟨1, by omega, _, .stop hstep⟩
      | (none, s₁) => exact ⟨1, by omega, _, .fail hstep⟩

/-! ## The loops of the grammar -/

/-- What `many` repeats, and the states where it starts. -/
inductive Repeated (s : ParserState) : {α : Type} → Parser (Option α) → Prop
  | strings : Repeated s stringToken
  | expressions {nested} (b : Nat) : ReadsExpressions s nested → Repeated s (nextExpression nested b)
  | elements {nested} (closing : TokenKind) : ReadsExpressions s nested →
      Repeated s (nextItem closing (anyExpr nested))
  | entries {nested} (closing : TokenKind) : ReadsExpressions s nested →
      Repeated s (nextItem closing (entry nested))
  | subscripts {nested} (closing : TokenKind) : ReadsExpressions s nested →
      Repeated s (nextItem closing (sliceItem nested))
  | clauses {nested} : ReadsExpressions s nested → Repeated s (nextClause nested)
  | conditions {nested} (b : Nat) : ReadsExpressions s nested → Repeated s (after ifKw (nested b))
  | operands {nested} (op : BoolOp) (right : Nat) : ReadsExpressions s nested →
      Repeated s (after (boolWord op) (nested right))
  | comparisons {nested} (right : Nat) : ReadsExpressions s nested → Repeated s (comparison nested right)
  | assignments : Repeated s (after assign assignedValue)
  | deletions : Repeated s nextTarget
  | scopeNames : Repeated s (after comma identifier)
  | nameParts : Repeated s (after dot identifier)
  | importedModules : Repeated s (after comma moduleAlias)
  | importPoints : Repeated s importPoints
  | importedNames : Repeated s (after comma nameAlias)
  | importedItems (closing : TokenKind) : Repeated s (nextItem closing nameAlias)
  | simpleStatements : Repeated s nextSimple
  | statements {inner} (stops : ParserState → Bool) : ReadsStatements s inner →
      Repeated s (nextStatement stops inner)
  | branches {inner} : ReadsStatements s inner → Repeated s (nextBranch inner)
  | handlers {inner} : ReadsStatements s inner → Repeated s (nextHandler inner)
  | withItems : Repeated s (after comma withItem)
  | decorators : Repeated s (after atSign decorator)
  | moduleItems : Repeated s moduleItem

/-- The loops of the grammar, by the step that `repeatWhile` does again. -/
inductive Loop (s : ParserState) : {σ : Type} → (σ → Parser (Option σ)) → Prop
  | many {α : Type} {p : Parser (Option α)} : Repeated s p → Loop s (gather (untold p))
  | operators {nested} (b : Nat) : ReadsExpressions s nested → Loop s (operatorStep nested b)
  | arguments {nested} (closing : TokenKind) : ReadsExpressions s nested →
      Loop s (gather (itemStep closing (argument nested)))
  | classArguments (closing : TokenKind) : Loop s (gather (itemStep closing classArgument))
  | parameters {nested} (closing : TokenKind) (annotated : Bool) : ReadsExpressions s nested →
      Loop s (gather (nextParameter nested closing annotated))

theorem Pays.mono {m : Nat} {p : Parser (Option α)} (h : Pays n p) (hle : m ≤ n) : Pays m p :=
  fun s s' a hs => h s s' a (Nat.lt_of_lt_of_le hs hle)

theorem Repeated.pays {s : ParserState} {p : Parser (Option α)} (h : Repeated s p) :
    Pays (s.rest.length + 1) p := by
  have hnested {nested : Nested} {p : Parser (Option α)} (hn : ReadsExpressions s nested)
      (hp : ∀ n, Reads .nothing n nested nested → Pays n p) : Pays (s.rest.length + 1) p := by
    obtain ⟨n, hs, hn⟩ := hn.reads
    exact (hp n hn).mono hs
  have hinner {inner : Parser (List Stmt)} {p : Parser (Option α)} (hst : ReadsStatements s inner)
      (hp : ∀ n, Starts .nothing n inner inner (List.flatMap (one .stmt)) (· ≠ []) → Pays n p) :
      Pays (s.rest.length + 1) p := by
    obtain ⟨n, hs, hst⟩ := hst.starts
    exact (hp n hst).mono hs
  cases h with
  | strings => exact steps_stringToken.pays
  | expressions b hn => exact hnested hn fun n hn => (steps_nextExpression hn b).pays
  | elements closing hn => exact hnested hn fun n hn => (steps_nextItem (hn _).places).pays
  | entries closing hn => exact hnested hn fun n hn => (steps_nextItem (starts_entry hn).places).pays
  | subscripts closing hn =>
      exact hnested hn fun n hn => (steps_nextItem (starts_sliceItem hn).places).pays
  | clauses hn => exact hnested hn fun n hn => (steps_nextClause hn).pays
  | conditions b hn => exact hnested hn fun n hn => (steps_after (hn b).places).pays
  | operands op right hn => exact hnested hn fun n hn => (steps_boolTail hn op right).pays
  | comparisons right hn => exact hnested hn fun n hn => (steps_comparison hn right).pays
  | assignments => exact (steps_after starts_assignedValue.places).pays
  | deletions => exact steps_nextTarget.pays
  | scopeNames | nameParts => exact (steps_after starts_identifier.places).pays
  | importedModules => exact (steps_after starts_moduleAlias.places).pays
  | importPoints => exact steps_importPoints.pays
  | importedNames => exact (steps_after starts_nameAlias.places).pays
  | importedItems closing => exact (steps_nextItem starts_nameAlias.places).pays
  | simpleStatements => exact steps_nextSimple.pays
  | statements stops hst => exact hinner hst fun n hst => (steps_nextStatement hst stops).pays
  | branches hst =>
      refine hinner hst fun n hst => pays_of_keeps fun s hs => (keeps_nextBranch hst hs).imp ?_
      exact fun _ _ _ hq found hfound => (hq found hfound).2.2.few
  | handlers hst => exact hinner hst fun n hst => (steps_nextHandler hst).pays
  | withItems => exact (steps_after starts_withItem.places).pays
  | decorators => exact (steps_after starts_decorator.places).pays
  | moduleItems => exact pays_moduleItem

theorem Loop.pays {s : ParserState} {step : σ → Parser (Option σ)} (h : Loop s step) (a : σ) :
    Pays (s.rest.length + 1) (step a) := by
  cases h with
  | many hp => exact pays_gather (pays_untold hp.pays) a
  | operators b hn =>
      obtain ⟨n, hs, hn⟩ := hn.reads
      refine (pays_of_keeps fun s hs => (keeps_operatorStep hn b hs False.elim).imp ?_).mono hs
      exact fun _ _ _ hq e he => (hq e he).1
  | arguments closing hn =>
      obtain ⟨n, hs, hn⟩ := hn.reads
      exact (pays_gather (fun goesOn => (steps_itemStep (starts_argument hn) goesOn).pays) a).mono hs
  | classArguments closing =>
      exact pays_gather (fun goesOn => (steps_itemStep starts_classArgument goesOn).pays) a
  | parameters closing annotated hn =>
      obtain ⟨n, hs, hn⟩ := hn.reads
      exact (pays_gather (fun now => (steps_nextParameter hn closing annotated now).pays) a).mono hs

/-- The loops of the grammar end by themselves, and the bound on their rounds is not hit. -/
theorem Loop.rounds {s : ParserState} {step : σ → Parser (Option σ)} (h : Loop s step) (a : σ) :
    ∃ count ≤ s.rest.length + 1, Rounds step a s count (repeatWhile step a s) := by
  have hlt := Nat.lt_succ_self s.rest.length
  obtain ⟨count, hcount, answer, hrounds⟩ := exists_rounds h.pays _ a s hlt hlt
  have hrun : repeatWhile step a s = answer := hrounds.run _ hcount
  exact ⟨count, hcount, hrun ▸ hrounds⟩

/-! ## Reading ends -/

theorem moduleBody_standsAt (tokens : List Token) :
    ∃ body s pos, moduleBody { rest := tokens } = (some body, s) ∧ s.StandsAt tokens pos := by
  obtain ⟨body, s, hrun, hstop, -⟩ := moduleBody_stops (ParserState.kept_nothing { rest := tokens })
  obtain ⟨pos, hpos, -⟩ := (ParserState.standsAt_start tokens).reaches hstop.upto.reaches
  exact ⟨body, s, pos, hrun, hpos⟩

/-- Wherever a state stands among the tokens, a routine that reads an expression or statements leaves a
state that stands further on by one token at least, if it gives a value, and within the tokens in any
case.  Hence the loops of the grammar end by themselves, each after one round more than there are tokens
left at the latest; whatever stands where the fuel of the recursion ends makes no difference, so that
expressions and statements are layers over themselves with no bound on their depth; and reading a module
comes to an end, whether or not a token ends the file. -/
theorem reading_progresses_and_ends :
    (∀ (tokens : List Token) (pos : Nat) (s : ParserState), s.StandsAt tokens pos →
      ∀ {α : Type} (p : Parser α), Routine s p →
        ∃ pos', (p s).2.StandsAt tokens pos' ∧ pos ≤ pos' ∧ ((p s).1.isSome = true → pos < pos')) ∧
    (∀ (s : ParserState) {σ : Type} (step : σ → Parser (Option σ)), Loop s step → ∀ a,
      ∃ count ≤ s.rest.length + 1, Rounds step a s count (repeatWhile step a s)) ∧
    (∀ (s : ParserState) (fuel : Nat), s.rest.length < fuel →
      (∀ (limit : Nested) (b : Nat), expressionUpTo limit fuel b s = expression b s) ∧
      ∀ limit : Parser (List Stmt), statementUpTo limit fuel s = statement s) ∧
    (∀ b, expression b = expressionLayer expression b) ∧ statement = statementLayer statement ∧
    (∀ tokens : List Token,
      ∃ body s pos, moduleBody { rest := tokens } = (some body, s) ∧ s.StandsAt tokens pos) := by
  refine ⟨fun tokens pos s hs _ p h => h.progress hs, fun s _ step h a => h.rounds a,
    fun s fuel hlt => ⟨fun limit b => ?_, fun limit => ?_⟩, expression_eq, statement_eq,
    moduleBody_standsAt⟩
  · exact expressionUpTo_eq limit hlt b
  · exact statementUpTo_eq limit hlt

/-- `-x` with nothing behind it, not even the end of the file: it is read as a statement, which takes a
token at least, and three levels of nesting are more than it has.  Behind `x`, the loop over `+ y` ends
after three rounds at the latest. -/
theorem reading_progresses_and_ends_samples :
    (∃ pos, (statement { rest := [⟨minus, .nowhere⟩, ⟨.name "x", .nowhere⟩] }).2.StandsAt
      [⟨minus, .nowhere⟩, ⟨.name "x", .nowhere⟩] pos ∧ 0 < pos) ∧
    (∃ count ≤ 3, Rounds (operatorStep expression 0) (.name .nowhere "x")
      { rest := [⟨plus, .nowhere⟩, ⟨.name "y", .nowhere⟩] } count
      (repeatWhile (operatorStep expression 0) (.name .nowhere "x")
        { rest := [⟨plus, .nowhere⟩, ⟨.name "y", .nowhere⟩] })) ∧
    expressionUpTo (fun _ => failWith "too deep" .nowhere) 3 0
        { rest := [⟨minus, .nowhere⟩, ⟨.name "x", .nowhere⟩] } =
      expression 0 { rest := [⟨minus, .nowhere⟩, ⟨.name "x", .nowhere⟩] } ∧
    statementUpTo (failWith "too deep" .nowhere) 3
        { rest := [⟨minus, .nowhere⟩, ⟨.name "x", .nowhere⟩] } =
      statement { rest := [⟨minus, .nowhere⟩, ⟨.name "x", .nowhere⟩] } := by
  obtain ⟨pos, hpos, -, hlt⟩ := reading_progresses_and_ends.1
    [⟨minus, .nowhere⟩, ⟨.name "x", .nowhere⟩] 0 _ (ParserState.standsAt_start _)
    statement (.statement .whole)
  have hrounds := reading_progresses_and_ends.2.1
    { rest := [⟨plus, .nowhere⟩, ⟨.name "y", .nowhere⟩] } (operatorStep expression 0)
    (.operators 0 .whole) (.name .nowhere "x")
  have hdepth := reading_progresses_and_ends.2.2.1
    { rest := [⟨minus, .nowhere⟩, ⟨.name "x", .nowhere⟩] } 3 (by decide)
  exact ⟨⟨pos, hpos, hlt rfl⟩, hrounds, hdepth.1 _ 0, hdepth.2 _⟩

end Parser

end MysToCpp
