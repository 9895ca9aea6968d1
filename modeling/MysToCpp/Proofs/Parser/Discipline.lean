/-
# Every failure is reported once

The parser of modules stops where a statement cannot be read and answers with what it has unless an
error was recorded.  So a routine anywhere in the grammar that failed in silence would drop the rest of
the program.  None does: `Called` lists the routines with the states they are called in, and each of
them leaves the errors alone when it gives a value and records exactly one when it does not.  Hence a
module that is read was read to the end, and one that is not is reported by the only error there is.
-/
import MysToCpp.Proofs.Parser.Statements

namespace MysToCpp.Parser

open Keyword Punct

variable {α : Type}

/-- What is asked of a run of `p` at `s`. -/
structure Disciplined (p : Parser α) (s : ParserState) : Prop where
  /-- Tokens are read in order, and none that ends the file. -/
  forward : s.Reaches (p s).2
  value : ∀ a, (p s).1 = some a → (p s).2.errors = s.errors
  failure : (p s).1 = none → ∃ e, (p s).2.errors = s.errors ++ [e]

theorem Keeps.disciplined {p q : Parser α} {s : ParserState} {Q : α → ParserState → Prop}
    (h : Keeps .nothing p q s Q) : Disciplined q s := by
  have hs := s.kept_nothing
  refine ⟨(h hs).2.1.reaches, fun a ha => ?_, fun hn => ?_⟩
  · have hq : q s = (some a, (q s).2) := Prod.ext ha rfl
    exact (h.value hs hq).2.1
  · have hq : q s = (none, (q s).2) := Prod.ext hn rfl
    obtain ⟨-, e, he, -⟩ := h.failure hs hq
    exact ⟨e, he⟩

/-- How a routine at a state reads the expressions inside: with all the fuel there can be, or with what
is left of it. -/
inductive ReadsExpressions (s : ParserState) : Nested → Prop
  | whole : ReadsExpressions s expression
  | bounded {fuel : Nat} : s.rest.length < fuel → ReadsExpressions s (expressionFuel fuel)

/-- How a routine at a state reads the statements inside. -/
inductive ReadsStatements (s : ParserState) : Parser (List Stmt) → Prop
  | whole : ReadsStatements s statement
  | bounded {fuel : Nat} : s.rest.length < fuel → ReadsStatements s (statementFuel fuel)

/-- The routines of the grammar and the states they are called in.  Most are called anywhere; those
that a token starts are called where it is next, and what they hold is read behind it. -/
inductive Called (s : ParserState) : {α : Type} → Parser α → Prop
  | expression {nested} (b : Nat) : ReadsExpressions s nested → Called s (nested b)
  | expressionList {nested} (b : Nat) : ReadsExpressions s nested →
      Called s (expressionList nested b)
  | comprehensions {nested} : ReadsExpressions s nested → Called s (comprehensions nested)
  | parameters {nested} (closing : TokenKind) (annotated : Bool) : ReadsExpressions s nested →
      Called s (parameters nested closing annotated)
  | checkTarget (target : Expr) : Called s (checkTarget target)
  | statement {inner} : ReadsStatements s inner → Called s inner
  | block {inner} : ReadsStatements s inner → Called s (block inner)
  | simpleStatements : Called s simpleStatements
  | smallStatement : Called s smallStatement
  | expressionStatement (start : Span) : Called s (expressionStatement start)
  | keywordStatement {word} (stmt : Stmt) : word ∈ [passKw, breakKw, continueKw] →
      s.kind = .keyword word → Called s (keywordStatement stmt)
  | returnStatement (start : Span) : s.kind = .keyword returnKw → Called s (returnStatement start)
  | raiseStatement (start : Span) : s.kind = .keyword raiseKw → Called s (raiseStatement start)
  | assertStatement (start : Span) : s.kind = .keyword assertKw → Called s (assertStatement start)
  | deleteStatement (start : Span) : s.kind = .keyword delKw → Called s (deleteStatement start)
  | globalStatement (start : Span) : s.kind = .keyword globalKw → Called s (globalStatement start)
  | nonlocalStatement (start : Span) : s.kind = .keyword nonlocalKw →
      Called s (nonlocalStatement start)
  | importStatement (start : Span) : s.kind = .keyword importKw → Called s (importStatement start)
  | importFromStatement (start : Span) : s.kind = .keyword fromKw →
      Called s (importFromStatement start)
  | ifStatement {inner} (start : Span) : ReadsStatements s.advance inner → s.kind = .keyword ifKw →
      Called s (ifStatement inner start)
  | whileStatement {inner} (start : Span) : ReadsStatements s.advance inner →
      s.kind = .keyword whileKw → Called s (whileStatement inner start)
  | forStatement {inner} (isAsync : Bool) (start : Span) : ReadsStatements s.advance inner →
      s.kind = .keyword forKw → Called s (forStatement inner isAsync start)
  | tryStatement {inner} (start : Span) : ReadsStatements s.advance inner → s.kind = .keyword tryKw →
      Called s (tryStatement inner start)
  | handler {inner} : ReadsStatements s.advance inner → s.kind = .keyword exceptKw →
      Called s (handler inner)
  | withStatement {inner} (isAsync : Bool) (start : Span) : ReadsStatements s.advance inner →
      s.kind = .keyword withKw → Called s (withStatement inner isAsync start)
  | functionStatement {inner} (decorators : List Expr) (isAsync : Bool) (start : Span) :
      ReadsStatements s.advance inner → s.kind = .keyword defKw →
      Called s (functionStatement inner decorators isAsync start)
  | classStatement {inner} (decorators : List Expr) (start : Span) : ReadsStatements s.advance inner →
      s.kind = .keyword classKw → Called s (classStatement inner decorators start)
  | decoratedStatement {inner} (start : Span) : ReadsStatements s.advance inner →
      s.kind = .punct atSign → Called s (decoratedStatement inner start)
  | asyncStatement {inner} (start : Span) : ReadsStatements s.advance inner →
      s.kind = .keyword asyncKw → Called s (asyncStatement inner start)

theorem ReadsExpressions.reads {s : ParserState} {nested : Nested} (h : ReadsExpressions s nested) :
    ∃ n, s.rest.length < n ∧ Reads .nothing n nested nested := by
  cases h with
  | whole => exact ⟨s.rest.length + 1, Nat.lt_succ_self _, reads_expression _⟩
  | bounded hlt => exact ⟨_, hlt, starts_expressionFuel _⟩

theorem ReadsStatements.starts {s : ParserState} {inner : Parser (List Stmt)}
    (h : ReadsStatements s inner) :
    ∃ n, s.rest.length < n ∧ Starts .nothing n inner inner (List.flatMap (one .stmt)) (· ≠ []) := by
  cases h with
  | whole => exact ⟨s.rest.length + 1, Nat.lt_succ_self _, starts_statement _⟩
  | bounded hlt => exact ⟨_, hlt, starts_statementFuel _⟩

/-- Where nothing is promised, a statement may be given any start. -/
theorem opens_nothing {s : ParserState} {k : TokenKind} [hne : k.Fixed] (n : Nat) (start : Span)
    (hn : s.advance.rest.length < n) (hk : s.kind = k) : s.Opens .nothing n s.rest.length start := by
  have hend : s.kind ≠ .endOfFile := hk ▸ hne.ne_end
  have hlength := s.length_advance hend
  exact ⟨⟨by omega, Nat.le_refl _, False.elim, False.elim⟩, hend⟩

theorem Called.disciplined {p : Parser α} {s : ParserState} (h : Called s p) : Disciplined p s := by
  have hlt : s.rest.length < s.rest.length + 1 := Nat.lt_succ_self _
  have hnext : s.advance.rest.length < s.advance.rest.length + 1 := Nat.lt_succ_self _
  cases h with
  | expression b hn =>
      obtain ⟨n, hs, hn⟩ := hn.reads
      exact (hn b s hs).disciplined
  | expressionList b hn =>
      obtain ⟨n, hs, hn⟩ := hn.reads
      exact (starts_expressionList hn b s hs).disciplined
  | comprehensions hn =>
      obtain ⟨n, hs, hn⟩ := hn.reads
      exact (places_comprehensions hn s hs).disciplined
  | parameters closing annotated hn =>
      obtain ⟨n, hs, hn⟩ := hn.reads
      exact (places_parameters hn closing annotated s hs).disciplined
  | checkTarget target => exact (quiet_checkTarget False.elim s hlt).disciplined
  | statement hst =>
      obtain ⟨n, hs, hst⟩ := hst.starts
      exact (hst s hs).disciplined
  | block hst =>
      obtain ⟨n, hs, hst⟩ := hst.starts
      exact (starts_block hst s hs).disciplined
  | simpleStatements => exact (starts_simpleStatements s hlt).disciplined
  | smallStatement => exact (starts_smallStatement s hlt).disciplined
  | expressionStatement start =>
      have hb : s.Begins .nothing (s.rest.length + 1) s.rest.length start :=
        ⟨Nat.le_succ _, Nat.le_refl _, False.elim, False.elim⟩
      exact (gathers_expressionStatement hb hlt).disciplined
  | keywordStatement stmt _ hk =>
      exact (keeps_keywordStatement (opens_nothing _ s.span hnext hk).kind).disciplined
  | returnStatement start hk => exact (gathers_returnStatement (opens_nothing _ start hnext hk)).disciplined
  | raiseStatement start hk => exact (gathers_raiseStatement (opens_nothing _ start hnext hk)).disciplined
  | assertStatement start hk => exact (gathers_assertStatement (opens_nothing _ start hnext hk)).disciplined
  | deleteStatement start hk => exact (gathers_deleteStatement (opens_nothing _ start hnext hk)).disciplined
  | globalStatement start hk => exact (gathers_globalStatement (opens_nothing _ start hnext hk)).disciplined
  | nonlocalStatement start hk =>
      exact (gathers_nonlocalStatement (opens_nothing _ start hnext hk)).disciplined
  | importStatement start hk => exact (gathers_importStatement (opens_nothing _ start hnext hk)).disciplined
  | importFromStatement start hk =>
      exact (gathers_importFromStatement (opens_nothing _ start hnext hk)).disciplined
  | ifStatement start hst hk =>
      obtain ⟨n, hs, hst⟩ := hst.starts
      exact (gathers_ifStatement hst (opens_nothing n start hs hk)).disciplined
  | whileStatement start hst hk =>
      obtain ⟨n, hs, hst⟩ := hst.starts
      exact (gathers_whileStatement hst (opens_nothing n start hs hk)).disciplined
  | forStatement isAsync start hst hk =>
      obtain ⟨n, hs, hst⟩ := hst.starts
      exact (gathers_forStatement hst isAsync (opens_nothing n start hs hk)).disciplined
  | tryStatement start hst hk =>
      obtain ⟨n, hs, hst⟩ := hst.starts
      exact (gathers_tryStatement hst (opens_nothing n start hs hk)).disciplined
  | handler hst hk =>
      obtain ⟨n, hs, hst⟩ := hst.starts
      have ho := opens_nothing n s.span hs hk
      exact (keeps_handler hst s.kept_nothing ho.bound ho.kind).disciplined
  | withStatement isAsync start hst hk =>
      obtain ⟨n, hs, hst⟩ := hst.starts
      exact (gathers_withStatement hst isAsync (opens_nothing n start hs hk)).disciplined
  | functionStatement decorators isAsync start hst hk =>
      obtain ⟨n, hs, hst⟩ := hst.starts
      exact (keeps_functionStatement hst decorators isAsync (opens_nothing n start hs hk)).disciplined
  | classStatement decorators start hst hk =>
      obtain ⟨n, hs, hst⟩ := hst.starts
      exact (keeps_classStatement hst decorators (opens_nothing n start hs hk)).disciplined
  | decoratedStatement start hst hk =>
      obtain ⟨n, hs, hst⟩ := hst.starts
      exact (gathers_decoratedStatement hst (opens_nothing n start hs hk) hk False.elim).disciplined
  | asyncStatement start hst hk =>
      obtain ⟨n, hs, hst⟩ := hst.starts
      exact (gathers_asyncStatement hst (opens_nothing n start hs hk)).disciplined

/-! ## Answers -/

theorem Reaches.rest_of_end {s s' : ParserState} (h : s.Reaches s') (hend : s'.kind = .endOfFile) :
    s'.rest = s.rest.dropWhile fun t => t.kind ≠ .endOfFile := by
  obtain ⟨read, hs, hread⟩ := h
  rw [hs, List.dropWhile_append_of_pos fun t ht => by simpa using hread t ht]
  unfold ParserState.kind at hend
  cases hr : s'.rest with
  | nil => rfl
  | cons t rest =>
      rw [hr] at hend
      rw [List.dropWhile_cons_of_neg (by simpa using hend)]

theorem parseTokens_ok {tokens : List Token} {m : Module} (h : parseTokens tokens = .ok m) :
    ∃ s, moduleBody { rest := tokens } = (some m.body, s) ∧ s.errors = [] ∧
      s.rest = tokens.dropWhile fun t => t.kind ≠ .endOfFile := by
  obtain ⟨body, s, hrun, ⟨hu, hstop⟩, -⟩ := moduleBody_stops (ParserState.kept_nothing { rest := tokens })
  rcases hstop with ⟨he, hend⟩ | ⟨e, he, -⟩
  · simp only [parseTokens, run, hrun, ParserState.firstError?, he] at h
    cases h
    exact ⟨s, hrun, he, Reaches.rest_of_end hu.reaches hend⟩
  · simp only [parseTokens, run, hrun, ParserState.firstError?, he] at h
    cases h

/-- A module that is not read is reported by the only error recorded. -/
theorem parseTokens_error {tokens : List Token} {e : ParseError}
    (h : parseTokens tokens = .error e) :
    (moduleBody { rest := tokens }).2.errors = [e] ∧ ∀ k, e.fault ≠ .unexpected k := by
  obtain ⟨body, s, hrun, ⟨-, hstop⟩, -⟩ := moduleBody_stops (ParserState.kept_nothing { rest := tokens })
  rcases hstop with ⟨he, -⟩ | ⟨e', he, htells⟩
  · simp only [parseTokens, run, hrun, ParserState.firstError?, he] at h
    cases h
  · simp only [parseTokens, run, hrun, ParserState.firstError?, he] at h
    cases h
    rw [hrun]
    exact ⟨he, htells.fault⟩

theorem parseExpression_error {tokens : List Token} {e : ParseError}
    (h : parseExpression tokens = .error e) :
    (expression Precedence.lowest.binding { rest := tokens }).2.errors = [e] ∧
      ∀ k, e.fault ≠ .unexpected k := by
  have hread := reads_expression (P := .nothing) (tokens.length + 1) Precedence.lowest.binding
    { rest := tokens } (Nat.lt_succ_self _)
  have hs := ParserState.kept_nothing { rest := tokens }
  rcases hrun : expression Precedence.lowest.binding { rest := tokens } with ⟨_ | a, s⟩
  · obtain ⟨-, e', he, htells⟩ := hread.failure hs hrun
    simp only [parseExpression, run, hrun, ParserState.firstError?, he] at h
    cases h
    exact ⟨he, htells.fault⟩
  · obtain ⟨-, he, -⟩ := hread.value hs hrun
    simp only [parseExpression, run, hrun, ParserState.firstError?, he] at h
    cases h

/-- Every routine, in every state it is called in, leaves the errors alone when it gives a value,
records exactly one error when it gives none, and never reads the end of the file.  So a module that is
read was read up to the end of the file, and a module or an expression that is not read is reported by
the only error recorded, which never is the one a parser that fails in silence would be given. -/
theorem failures_reported_once :
    (∀ (s : ParserState) {α : Type} (p : Parser α), Called s p → Disciplined p s) ∧
    (∀ tokens : List Token,
      ParserState.Reaches { rest := tokens } (moduleBody { rest := tokens }).2) ∧
    (∀ (tokens : List Token) (m : Module), parseTokens tokens = .ok m →
      ∃ s, moduleBody { rest := tokens } = (some m.body, s) ∧ s.errors = [] ∧
        s.rest = tokens.dropWhile fun t => t.kind ≠ .endOfFile) ∧
    (∀ (tokens : List Token) (e : ParseError), parseTokens tokens = .error e →
      (moduleBody { rest := tokens }).2.errors = [e] ∧ ∀ k, e.fault ≠ .unexpected k) ∧
    (∀ (tokens : List Token) (e : ParseError), parseExpression tokens = .error e →
      (expression Precedence.lowest.binding { rest := tokens }).2.errors = [e] ∧
        ∀ k, e.fault ≠ .unexpected k) := by
  refine ⟨fun s _ p h => h.disciplined, fun tokens => ?_, fun _ _ => parseTokens_ok,
    fun _ _ => parseTokens_error, fun _ _ => parseExpression_error⟩
  obtain ⟨body, s, hrun, hstop, -⟩ := moduleBody_stops (ParserState.kept_nothing { rest := tokens })
  rw [hrun]
  exact hstop.upto.reaches

/-- `return )` is a statement that fails; `x = )` and a line more is a module that fails, with the
parenthesis as the only error; `pass` is a module that is read up to the end of the file. -/
theorem failures_reported_once_samples :
    Disciplined (returnStatement .nowhere) { rest := [⟨returnKw, .nowhere⟩, ⟨parenClose, .nowhere⟩] } ∧
    (moduleBody { rest := [⟨.name "x", .nowhere⟩, ⟨assign, .nowhere⟩, ⟨parenClose, .nowhere⟩,
      ⟨.newline, .nowhere⟩, ⟨.name "y", .nowhere⟩, ⟨.endOfFile, .nowhere⟩] }).2.errors =
      [⟨.expected "expression" parenClose, .nowhere⟩] ∧
    ∃ s, moduleBody { rest := [⟨passKw, .nowhere⟩, ⟨.newline, .nowhere⟩, ⟨.endOfFile, .nowhere⟩] } =
      (some [.pass .nowhere], s) ∧ s.errors = [] ∧ s.rest = [⟨.endOfFile, .nowhere⟩] := by
  refine ⟨failures_reported_once.1 _ _ (.returnStatement _ rfl),
    (failures_reported_once.2.2.2.1 _ _ rfl).1, ?_⟩
  exact failures_reported_once.2.2.1 _ ⟨[.pass .nowhere]⟩ rfl

end MysToCpp.Parser
