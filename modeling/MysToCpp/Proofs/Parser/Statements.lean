/-
# The parsers of statements

What every parser of a statement with blocks does, one lemma for each, over two parsers `inner` and `inner'`
of the statements inside that do the same and keep to it wherever fewer than `n` tokens are left.
`statement` closes the circle as `expression` did.

A statement that holds others ends with the last token that was read, behind its last block; an `elif` ends
there, too, as it stands for an `if` inside of `else`.  Behind the header of a block something is read, at
least where `indent` is known to stand in front of something.  A module alone is read by a parser that goes
on where a statement cannot be read, and gives what it has, so that its run is described apart.
-/
import MysToCpp.Proofs.Parser.SimpleStatements

namespace MysToCpp

theorem Held.follow {P : Promise} {lo hi : Nat} {body : List Stmt}
    (h : Held P lo hi (body.flatMap (Parser.one .stmt))) (hp : P.placed) : Node.Follow body := by
  have horder := h.order hp
  rw [Parser.flatMap_one, List.map_map] at horder
  exact Node.follow_of_inOrder horder

namespace Parser

open Keyword Punct
open Node (Follow)
open ParserState (Begins Gathered Kept Opens Upto)
open Text (OneLine oneLine_literal)

variable {P : Promise} {n m : Nat} {start : Span} {s : ParserState} {xs : List Part}

/-! ## Blocks -/

/-- What is known of a block that has to hold something. -/
structure Block (P : Promise) (body : List Stmt) : Prop where
  filled : P.filled → body ≠ []
  follow : P.placed → Follow body

def nextStatement (stops : ParserState → Bool) (statement : Parser (List Stmt)) :
    Parser (Option (List Stmt)) := do
  if ← ask stops then pure none
  else if ← skip .newline then pure (some [])
  else
    let stmts ← statement
    pure (some stmts)

theorem statementsUntil_eq (stops : ParserState → Bool) (statement : Parser (List Stmt)) :
    statementsUntil stops statement = (do
      let groups ← many (nextStatement stops statement)
      pure groups.flatten) := rfl

section Statement

variable {inner inner' : Parser (List Stmt)}
  (hst : Starts P n inner inner' (List.flatMap (one .stmt)) (· ≠ []))

include hst

theorem steps_nextStatement (stops : ParserState → Bool) :
    Steps P n (nextStatement stops inner) (nextStatement stops inner') (List.flatMap (one .stmt))
      fun _ => True := by
  refine steps_ask fun _ => steps_if steps_none (steps_skip (places_pure rfl fun _ _ => trivial) ?_)
  exact fun s hs => (hst s hs).bind fun stmts s₁ _ hq => keeps_pure fun _ ha =>
    Option.some.inj ha ▸ ⟨hq.1, trivial⟩

theorem keeps_nextStatement {stops : ParserState → Bool} (hs : s.rest.length < n)
    (hstops : stops s = false) (hline : s.kind ≠ .newline) :
    Keeps P (nextStatement stops inner) (nextStatement stops inner') s fun r _ => ∃ stmts ∈ r, stmts ≠ [] := by
  refine keeps_ask (keeps_if (fun h => ?_) fun _ => keeps_skip (fun hat _ => ?_) ?_)
  · exact absurd h (Bool.eq_false_iff.mp hstops)
  · exact absurd (ParserState.isAt_iff.mp hat) hline
  · exact (hst s hs).bind fun stmts s₁ _ hq => keeps_pure ⟨stmts, rfl, hq.2⟩

omit hst in
theorem flatMap_flatten (groups : List (List Stmt)) :
    groups.flatten.flatMap (one .stmt) = groups.flatMap (List.flatMap (one .stmt)) := by
  rw [← List.flatMap_id, List.flatMap_assoc]
  rfl

theorem keeps_statementsUntil (stops : ParserState → Bool) (hs : s.rest.length < n) :
    Keeps P (statementsUntil stops inner) (statementsUntil stops inner') s fun body s' =>
      Held P s.back s'.back (body.flatMap (one .stmt)) ∧
        (stops s = false → s.kind ≠ .newline → body ≠ []) := by
  rw [statementsUntil_eq, statementsUntil_eq]
  have hsteps := steps_nextStatement hst stops
  by_cases hnext : stops s = false ∧ s.kind ≠ .newline
  · refine .of_kept fun hkept =>
      (keeps_many_first hsteps hs (keeps_nextStatement hst hs hnext.1 hnext.2)).bind ?_
    rintro groups s₁ - ⟨g, -, stmts, hstmts, hne⟩
    refine keeps_pure ⟨?_, fun _ _ hnil => hne (List.flatten_eq_nil_iff.mp hnil stmts hstmts)⟩
    rw [flatMap_flatten]
    exact g.held_from hkept
  · refine (places_many hsteps s hs).bind fun groups s₁ _ hq => keeps_pure ⟨?_, ?_⟩
    · rw [flatMap_flatten]
      exact hq.1
    · exact fun hstops hline => absurd ⟨hstops, hline⟩ hnext

/-- A block holds something if something stands behind `indent`. -/
theorem starts_block :
    Starts P n (block inner) (block inner') (List.flatMap (one .stmt)) (Block P) := by
  have hend {s s₁ : ParserState} {body : List Stmt}
      (g : s₁.Gathered P n s.rest.length s.span (body.flatMap (one .stmt)))
      (hfilled : P.filled → body ≠ []) :
      s₁.Gathered P n s.rest.length s.span (body.flatMap (one .stmt)) ∧ Block P body :=
    ⟨g, hfilled, g.held.follow⟩
  refine fun s hs => (starts_expect colon s hs).bind fun _ s₁ _ hq => hq.1.skip (fun s₂ g => ?_) ?_
  · refine keeps_skip (fun hat hu => ?_) (keeps_failExpected (oneLine_literal (by decide)))
    have hindent : s₂.kind = .indent := ParserState.isAt_iff.mp hat
    have g₂ := g.upto hu
    refine (keeps_statementsUntil hst _ g₂.few_left).bind fun body s₃ hu hq => ?_
    refine (g₂.add hu hq.1).pass (quiet_skip _) fun _ s₄ g₄ _ => keeps_pure (hend g₄ fun hfilled => ?_)
    have hnext := g.kept.behind_indent hfilled hindent
    refine hq.2 ?_ ?_
    · cases hk : s₂.advance.kind <;> simp_all [ParserState.isAt, ParserState.atEnd,
        TokenKind.same, TokenKind.isLayout]
    · intro hline
      rw [hline] at hnext
      cases hnext
  · refine (starts_simpleStatements.places s₁ hq.1.few_left).imp fun body s₂ hu hbody => ?_
    exact hend (hq.1.add hu hbody.1) fun _ => hbody.2

theorem places_optional (k : TokenKind) [k.Fixed] :
    Places P n (skip k >>= fun b => if b = true then block inner else pure [])
      (skip k >>= fun b => if b = true then block inner' else pure []) (List.flatMap (one .stmt))
      fun body => P.placed → Follow body := by
  refine places_skip (fun s hs => ?_) (places_pure rfl fun _ => .nil)
  exact ((starts_block hst).places s hs).imp fun _ _ _ hq => ⟨hq.1, hq.2.follow⟩

theorem places_elseBlock :
    Places P n (elseBlock inner) (elseBlock inner') (List.flatMap (one .stmt))
      fun body => P.placed → Follow body := places_optional hst elseKw

theorem places_finallyBlock :
    Places P n (finallyBlock inner) (finallyBlock inner') (List.flatMap (one .stmt))
      fun body => P.placed → Follow body := places_optional hst finallyKw

theorem gathers_whileStatement (ho : s.Opens P n m start) :
    Gathers P n m start (whileStatement inner start) (whileStatement inner' start) s (one .stmt) := by
  refine ho.step fun g => g.bind starts_value.places fun test s₁ g _ => ?_
  refine g.bind (starts_block hst).places fun body s₂ g hbody => ?_
  refine g.bind (places_elseBlock hst) fun orelse s₃ g horelse => ?_
  refine g.closeStmt (fun x => ⟨rfl, ?_, trivial, hbody.filled, fun hp => ?_⟩) fun _ => rfl
  · simp [Node.partsAt, Node.parts, Stmt.parts]
  · simp [Stmt.blocks, hbody.follow hp, horelse hp]

theorem gathers_forStatement (isAsync : Bool) (ho : s.Opens P n m start) :
    Gathers P n m start (forStatement inner isAsync start) (forStatement inner' isAsync start) s
      (one .stmt) := by
  refine ho.step fun g => g.bind (starts_expressionList (reads_expression n) _).places fun target s₁ g _ => ?_
  have htarget : target.Formed P := g.held.formed _ List.mem_cons_self
  refine g.pass (quiet_checkTarget_of_formed htarget) fun _ s₂ g hcheck => g.expect fun _ s₃ g => ?_
  refine g.bind starts_values.places fun source s₄ g _ => ?_
  refine g.bind (starts_block hst).places fun body s₅ g hbody => ?_
  refine g.bind (places_elseBlock hst) fun orelse s₆ g horelse => ?_
  refine g.closeStmt (fun x => ⟨rfl, ?_, hcheck, hbody.filled, fun hp => ?_⟩) fun _ => rfl
  · simp [Node.partsAt, Node.parts, Stmt.parts]
  · simp [Stmt.blocks, hbody.follow hp, horelse hp]

/-! ### Conditions -/

omit hst in
/-- The nodes of a condition with its block. -/
abbrev branchParts (found : Span × Expr × List Stmt) : List Part :=
  one .expr found.2.1 ++ found.2.2.flatMap (one .stmt)

theorem keeps_branch (ho : s.Opens P n m start) :
    Keeps P (branch inner start) (branch inner' start) s fun found s' =>
      found.1 = start ∧ Block P found.2.2 ∧ s'.Gathered P n m start (branchParts found) := by
  refine ho.step fun g => g.bind starts_value.places fun test s₁ g _ => ?_
  exact g.bind (starts_block hst).places fun body s₂ g hbody => keeps_pure ⟨rfl, hbody, g⟩

omit hst in
/-- A round of `ifStatement`: an `elif` with its block. -/
def nextBranch (statement : Parser (List Stmt)) : Parser (Option (Span × Expr × List Stmt)) := do
  let here ← span
  if ← isAt elifKw then
    let other ← branch statement here
    pure (some other)
  else pure none

omit hst in
theorem ifStatement_eq (statement : Parser (List Stmt)) (start : Span) :
    ifStatement statement start = (do
      let (_, test, body) ← branch statement start
      let others ← many (nextBranch statement)
      let orelse ← elseBlock statement
      let last ← ask (·.previousSpan)
      let chained := others.foldr (fun (here, test, body) orelse =>
        [.ifElse (here.through last) test body orelse]) orelse
      pure (.ifElse (start.through last) test body chained)) := rfl

theorem keeps_nextBranch (hs : s.rest.length < n) :
    Keeps P (nextBranch inner) (nextBranch inner') s fun r s' => ∀ found, r = some found →
      found.1 = s.span ∧ Block P found.2.2 ∧
        s'.Gathered P n s.rest.length s.span (branchParts found) := by
  refine .of_kept fun hkept => keeps_ask (keeps_ask (keeps_if (fun hat => ?_) fun _ => keeps_pure nofun))
  have ho := (hkept.begins (Nat.le_of_lt hs)).opens_of_isAt hat
  exact (keeps_branch hst ho).bind fun found s₁ _ hq => keeps_pure fun _ ha => Option.some.inj ha ▸ hq

omit hst in
/-- Branches that stand one behind the other, each from its keyword on. -/
inductive Branches (P : Promise) (lo : Nat) : Nat → List (Span × Expr × List Stmt) → Prop
  | nil {hi : Nat} : (P.placed → lo ≤ hi) → Branches P lo hi []
  | snoc {mid hi : Nat} {before : List (Span × Expr × List Stmt)}
      {found : Span × Expr × List Stmt} : Branches P lo mid before →
      (P.placed → P.place found.1.start ∧ mid ≤ found.1.start.offset) → Block P found.2.2 →
      Held P found.1.start.offset hi (branchParts found) → Branches P lo hi (before ++ [found])

omit hst in
theorem Branches.upto {lo hi hi' : Nat} {others : List (Span × Expr × List Stmt)}
    (h : Branches P lo hi others) (hle : P.placed → hi ≤ hi') : Branches P lo hi' others := by
  cases h with
  | nil hlo => exact .nil fun hp => Nat.le_trans (hlo hp) (hle hp)
  | snoc hbefore hfront hblock hheld => exact .snoc hbefore hfront hblock (hheld.upto hle)

omit hst in
/-- Each branch holds those behind it, and all of them end together. -/
theorem Branches.held {lo hi : Nat} {others : List (Span × Expr × List Stmt)}
    (h : Branches P lo hi others) (last : Span) (hlast : P.placed → P.place last.stop) :
    ∀ {orelse : List Stmt}, Held P hi last.stop.offset (orelse.flatMap (one .stmt)) →
      Held P lo last.stop.offset ((others.foldr (fun (here, test, body) orelse =>
        [.ifElse (here.through last) test body orelse]) orelse).flatMap (one .stmt)) := by
  induction h with
  | nil hle => exact fun horelse => horelse.lower hle
  | @snoc mid hi before found _ hfront hblock hheld ih =>
      obtain ⟨here, test, body⟩ := found
      intro orelse horelse
      have hall := hheld.append horelse
      have hnode : (Stmt.ifElse (here.through last) test body orelse).Formed P := by
        refine hall.formed_of_parts (fun hp => ⟨(hfront hp).1, hlast hp, hall.le hp⟩)
          ⟨trivial, nofun, trivial, hblock.filled⟩ ?_ (List.forall_mem_nil _) fun hp => ?_
        · simp [Node.partsAt, Node.parts, Stmt.parts]
        · simp [Node.blocks, Stmt.blocks, hblock.follow hp, horelse.follow hp]
      rw [List.foldr_append]
      exact ih (.single hnode (fun hp => (hfront hp).2) fun _ => Nat.le_refl _)

theorem keeps_branches (hs : s.rest.length < n) :
    Keeps P (many (nextBranch inner)) (many (nextBranch inner')) s fun others s' =>
      Branches P s.back s'.back others := by
  refine keeps_many (I := fun others s' => s'.rest.length < n ∧ Branches P s.back s'.back others) ?_
    ⟨hs, .nil fun _ => Nat.le_refl _⟩
  rintro others s₁ ⟨hs₁, hothers⟩
  refine .of_kept fun hkept => (keeps_nextBranch hst hs₁).imp fun r s₂ hu hq => ?_
  cases r with
  | none => exact hothers.upto hu.back
  | some found =>
      obtain ⟨hspan, hblock, g⟩ := hq found rfl
      refine ⟨⟨g.few_left, .snoc hothers ?_ hblock ?_⟩, g.few⟩
      · rw [hspan]
        exact fun hp => ⟨g.begun hp, (hkept.placed hp).span.2⟩
      · rw [hspan]
        exact g.held

theorem gathers_ifStatement (ho : s.Opens P n m start) :
    Gathers P n m start (ifStatement inner start) (ifStatement inner' start) s (one .stmt) := by
  rw [ifStatement_eq, ifStatement_eq]
  refine (keeps_branch hst ho).bind ?_
  rintro ⟨_, test, body⟩ s₁ - ⟨-, hbody, g⟩
  refine (keeps_branches hst g.few_left).bind fun others s₂ hu hothers => ?_
  have hs₂ := Nat.lt_of_le_of_lt hu.reaches.length_le g.few_left
  refine (places_elseBlock hst s₂ hs₂).bind fun orelse s₃ hu₂ horelse => keeps_ask (keeps_pure ?_)
  -- all branches end with the token that was read last
  obtain ⟨hbetween, -, hstop⟩ := (g.upto (hu.trans hu₂)).spanFrom
  have hlast : s₃.previousSpan.stop.offset = s₃.back := hstop
  have hchained := hothers.held s₃.previousSpan (fun hp => (hbetween hp).stop) (hlast ▸ horelse.1)
  rw [hlast] at hchained
  refine (g.add (hu.trans hu₂) hchained).closedStmt ⟨rfl, ?_, trivial, hbody.filled, fun hp => ?_⟩ ?_
  · simp [Node.partsAt, Node.parts, Stmt.parts]
  · simp [Stmt.blocks, hbody.follow hp, hchained.follow hp]
  · exact List.forall_mem_nil _

/-! ### Handlers -/

theorem keeps_handler (hs : s.Kept P) (hle : s.rest.length ≤ n) (hk : s.kind ≠ .endOfFile) :
    Keeps P (handler inner) (handler inner') s fun h s' =>
      s'.Gathered P n s.rest.length s.span (clause Handler.parts h) ∧ Block P h.body := by
  have ho : s.Opens P n s.rest.length s.span := ⟨hs.begins hle, hk⟩
  refine keeps_ask (ho.step fun g => keeps_ask (keeps_if (fun _ => ?_) fun _ => ?_))
  · refine g.bind (starts_block hst).places fun body s₁ g hbody => keeps_pure ⟨?_, hbody⟩
    simpa [clause, Handler.parts] using g
  · refine g.bind starts_values.places fun kind s₁ g _ => ?_
    refine g.bind (places_after starts_identifier.places) fun name s₂ g _ => ?_
    refine g.bind (starts_block hst).places fun body s₃ g hbody => keeps_pure ⟨?_, hbody⟩
    simpa [clause, Handler.parts] using g

omit hst in
def nextHandler (statement : Parser (List Stmt)) : Parser (Option Handler) := do
  if ← isAt exceptKw then
    let h ← handler statement
    pure (some h)
  else pure none

omit hst in
theorem tryStatement_eq (statement : Parser (List Stmt)) (start : Span) :
    tryStatement statement start = (do
      advance
      let body ← block statement
      let handlers ← many (nextHandler statement)
      let orelse ← if handlers.isEmpty then pure [] else elseBlock statement
      let final ← finallyBlock statement
      if handlers.isEmpty && final.isEmpty then failExpected "'except' or 'finally' block"
      else pure (.tryBlock (← spanFrom start) body handlers orelse final)) := rfl

theorem steps_nextHandler :
    Steps P n (nextHandler inner) (nextHandler inner') (clause Handler.parts) fun h => Block P h.body := by
  refine fun s hs => .of_kept fun hkept => keeps_ask (keeps_if (fun hat => ?_) fun _ => keeps_pure nofun)
  refine (keeps_handler hst hkept (Nat.le_of_lt hs) (s.kind_ne_end_of_isAt hat)).bind ?_
  exact fun h s₁ _ hq => keeps_pure fun _ ha => Option.some.inj ha ▸ hq

theorem gathers_tryStatement (ho : s.Opens P n m start) :
    Gathers P n m start (tryStatement inner start) (tryStatement inner' start) s (one .stmt) := by
  rw [tryStatement_eq, tryStatement_eq]
  refine ho.step fun g => g.bind (starts_block hst).places fun body s₁ g hbody => ?_
  refine g.bind (places_many (steps_nextHandler hst)) fun handlers s₂ g hhandlers => ?_
  have hend {orelse : List Stmt} {s : ParserState} (horelse : P.placed → Follow orelse)
      (honly : orelse ≠ [] → handlers ≠ []) (g : s.Gathered P n m start ([] ++ body.flatMap (one .stmt) ++
        handlers.flatMap (clause Handler.parts) ++ orelse.flatMap (one .stmt))) :
      Gathers P n m start
        (do
          let final ← finallyBlock inner
          if handlers.isEmpty && final.isEmpty then failExpected "'except' or 'finally' block"
          else
            let x ← spanFrom start
            pure (.tryBlock x body handlers orelse final))
        (do
          let final ← finallyBlock inner'
          if handlers.isEmpty && final.isEmpty then failExpected "'except' or 'finally' block"
          else
            let x ← spanFrom start
            pure (.tryBlock x body handlers orelse final)) s (one .stmt) := by
    refine g.bind (places_finallyBlock hst) fun final s₁ g hfinal => keeps_if (fun _ => ?_) fun hsome => ?_
    · exact keeps_failExpected (oneLine_literal (by decide))
    have hshape : handlers ≠ [] ∨ final ≠ [] := by
      simpa [Classical.or_iff_not_imp_left] using hsome
    refine g.closeStmt (fun x => ⟨rfl, ?_, ⟨hshape, honly⟩, fun hfilled => ?_, fun hp => ?_⟩) fun _ => rfl
    · simp [Node.partsAt, Node.parts, Stmt.parts, List.map_flatMap]
    · exact ⟨hbody.filled hfilled, fun h hh => (hhandlers h hh).filled hfilled⟩
    · simp only [Stmt.blocks, List.forall_mem_cons, List.forall_mem_map]
      exact ⟨hbody.follow hp, horelse hp, hfinal hp, fun h hh => (hhandlers h hh).follow hp⟩
  refine keeps_if (fun _ => ?_) fun hsome => ?_
  · have hnone : Places P n (pure []) (pure []) (List.flatMap (one .stmt)) (· = []) := places_pure rfl rfl
    refine g.bind hnone fun orelse s₃ g hnil => hend ?_ (fun h => absurd hnil h) g
    exact hnil ▸ fun _ => .nil
  · refine g.bind (places_elseBlock hst) fun orelse s₃ g horelse => ?_
    exact hend horelse (fun _ => by simpa using hsome) g

omit hst in
theorem starts_withItem :
    Starts P n withItem withItem (clause WithItem.parts) fun item => ∀ e ∈ item.target, e.IsTarget := by
  refine fun s hs => (starts_value s hs).bind fun context s₁ _ hq => ?_
  refine hq.1.bind (places_after starts_target.places) fun bound s₂ g hbound => keeps_pure ⟨?_, hbound⟩
  simpa [clause, WithItem.parts] using g

theorem gathers_withStatement (isAsync : Bool) (ho : s.Opens P n m start) :
    Gathers P n m start (withStatement inner isAsync start) (withStatement inner' isAsync start) s
      (one .stmt) := by
  refine ho.step fun g => g.bind starts_withItem.places fun first s₁ g hfirst => ?_
  refine g.bind (places_many (steps_after starts_withItem.places)) fun more s₂ g hmore => ?_
  have hitems : ∀ item ∈ first :: more, ∀ e ∈ item.target, e.IsTarget :=
    List.forall_mem_cons.mpr ⟨hfirst, hmore⟩
  refine g.bind (starts_block hst).places fun body s₃ g hbody => ?_
  refine g.closeStmt (fun x => ⟨rfl, ?_, hitems, hbody.filled, fun hp => ?_⟩) fun _ => rfl
  · simp [Node.partsAt, Node.parts, Stmt.parts, List.map_flatMap]
  · simp [Stmt.blocks, hbody.follow hp]

/-! ### Definitions -/

omit hst in
/-- Decorators in front of what begins at `start`. -/
def Decorate (P : Promise) (start : Span) (decorators : List Expr) : Prop :=
  ∀ d ∈ decorators, d.Formed P ∧ (P.placed → d.span.stop.offset ≤ start.start.offset)

omit hst in
theorem decorate_nil (start : Span) : Decorate P start [] := List.forall_mem_nil _

theorem keeps_functionStatement (decorators : List Expr) (isAsync : Bool) (ho : s.Opens P n m start) :
    Keeps P (functionStatement inner decorators isAsync start)
      (functionStatement inner' decorators isAsync start) s fun st s' =>
      Decorate P start decorators → s'.Gathered P n m start (one .stmt st) := by
  refine ho.step fun g => g.bind starts_identifier.places fun name s₁ g _ => g.expect fun _ s₂ g => ?_
  refine g.bind (places_parameters (reads_expression n) _ _) fun params s₃ g _ => g.expect fun _ s₄ g => ?_
  refine g.bind (places_after starts_value.places) fun returns s₅ g _ => ?_
  refine g.bind (starts_block hst).places fun body s₆ g hbody => keeps_ask (keeps_pure fun hd => ?_)
  refine g.closedStmt ⟨rfl, ?_, trivial, hbody.filled, fun hp => ?_⟩ hd
  · simp [Node.partsAt, Node.parts, Stmt.parts, FunctionDef.parts]
  · simp [Stmt.blocks, hbody.follow hp]

omit hst in
theorem starts_classArgument :
    Starts P n classArgument classArgument (one Argument.node) fun _ => True := by
  refine fun s hs => .of_kept fun hkept => keeps_ask (keeps_ask (keeps_if (fun h => ?_) fun _ => ?_))
  · have hassign := (Bool.and_eq_true_iff.mp h).2
    refine (gathers_keywordArg (reads_expression n) (hkept.begins (Nat.le_of_lt hs)) hs hassign).bind ?_
    exact fun _ _ _ g => keeps_pure ⟨g, trivial⟩
  · exact (starts_value s hs).bind fun _ _ _ hq => keeps_pure hq

omit hst in
theorem places_classArguments :
    Places P n classArguments classArguments (List.flatMap (one Argument.node)) fun _ => True := by
  refine places_skip (fun s hs => ?_) (places_pure rfl trivial)
  refine .of_kept fun hkept => (places_items starts_classArgument s hs).bind fun arguments s₁ hu hq => ?_
  have hs₁ := Nat.lt_of_le_of_lt hu.reaches.length_le hs
  refine (starts_expect _ s₁ hs₁).bind fun _ s₂ hu₂ _ => keeps_pure ⟨hq.1.upto hu₂.back, trivial⟩

theorem keeps_classStatement (decorators : List Expr) (ho : s.Opens P n m start) :
    Keeps P (classStatement inner decorators start) (classStatement inner' decorators start) s
      fun st s' => Decorate P start decorators → s'.Gathered P n m start (one .stmt st) := by
  refine ho.step fun g => g.bind starts_identifier.places fun name s₁ g _ => ?_
  refine g.bind places_classArguments fun arguments s₂ g _ => ?_
  refine g.bind (starts_block hst).places fun body s₃ g hbody => keeps_ask (keeps_pure fun hd => ?_)
  have hsubset := List.map_subset (fun x : Node => (Role.plain, x)) (arguments_subset arguments)
  refine g.closedStmt ⟨rfl, ?_, trivial, hbody.filled, fun hp => ?_⟩ hd
  · simp only [Node.partsAt, Node.parts, Stmt.parts, ClassDef.parts, flatMap_one, List.map_cons,
      List.map_append, List.map_map, List.nil_append, List.cons_append] at hsubset ⊢
    exact List.cons_subset_cons _ (List.append_subset.mpr
      ⟨List.Subset.trans hsubset (List.subset_append_left _ _), List.subset_append_right _ _⟩)
  · simp [Stmt.blocks, hbody.follow hp]

omit hst in
theorem starts_decorator : Starts P n decorator decorator (one .expr) fun _ => True := by
  refine fun s hs => (starts_value s hs).bind fun e s₁ _ hq => ?_
  exact hq.1.expect fun _ _ g => keeps_pure ⟨g, trivial⟩

theorem keeps_decoratedDefinition (decorators : List Expr) (hs : s.rest.length < n)
    (hstart : P.placed → start.Between P.place) :
    Keeps P (decoratedDefinition inner decorators start) (decoratedDefinition inner' decorators start) s
      fun st s' => Decorate P s.span decorators →
        s'.Gathered P n s.rest.length s.span (one .stmt st) := by
  refine .of_kept fun hkept => keeps_ask (keeps_ask ?_)
  have hb := hkept.begins (Nat.le_of_lt hs)
  split
  case h_1 h => exact keeps_functionStatement hst _ _ (hb.opens h)
  case h_2 h => exact keeps_classStatement hst _ (hb.opens h)
  case h_3 =>
    refine keeps_ask (keeps_if (fun h => ?_) fun _ => keeps_failWith (oneLine_literal (by decide)) hstart)
    obtain ⟨hasync, hdef⟩ := Bool.and_eq_true_iff.mp h
    have ho : s.Opens P n s.rest.length s.span := hb.opens (decide_eq_true_iff.mp hasync)
    refine ho.step fun g => keeps_functionStatement hst _ _ ⟨g.begins, ?_⟩
    rw [s.kind_advance ho.kind, decide_eq_true_iff.mp hdef]
    nofun

theorem gathers_decoratedStatement (ho : s.Opens P n m start) (hat : s.kind = atSign)
    (hstart : P.placed → start.Between P.place) :
    Gathers P n m start (decoratedStatement inner start) (decoratedStatement inner' start) s
      (one .stmt) := by
  have hdecorator := starts_decorator (P := P) (n := s.rest.length + 1)
  have hlt := Nat.lt_succ_self s.rest.length
  have hfirst := keeps_after hdecorator.places hlt (ParserState.isAt_iff.mpr hat)
  refine ho.toBegins.many_first hlt (steps_after hdecorator.places) hfirst fun decorators s₁ g _ _ => ?_
  refine (keeps_decoratedDefinition hst decorators g.few_left hstart).imp fun st s₂ _ hq => ?_
  refine g.begins.gathered (hq fun d hd => ?_)
  have hmem : ((.plain, .expr d) : Part) ∈ decorators.flatMap (one .expr) :=
    List.mem_flatMap.mpr ⟨d, hd, List.mem_cons_self⟩
  exact ⟨g.held.formed _ hmem, fun hp =>
    Nat.le_trans (g.held.bounds hmem hp).2 (g.kept.placed hp).span.2⟩

theorem gathers_asyncStatement (ho : s.Opens P n m start) :
    Gathers P n m start (asyncStatement inner start) (asyncStatement inner' start) s (one .stmt) := by
  refine ho.step fun g => keeps_ask ?_
  split
  case h_1 h =>
    exact (keeps_functionStatement hst [] true (g.begins.opens h)).imp fun _ _ _ hq => hq (decorate_nil _)
  case h_2 h => exact gathers_forStatement hst true (g.begins.opens h)
  case h_3 h => exact gathers_withStatement hst true (g.begins.opens h)
  case h_4 => exact keeps_failExpected (oneLine_literal (by decide))

/-! ## Statements -/

/-- One level of nesting costs a token, or more. -/
theorem starts_statementLayer :
    Starts P (n + 1) (statementLayer inner) (statementLayer inner') (List.flatMap (one .stmt))
      (· ≠ []) := by
  refine fun s hs => .of_kept fun hkept => keeps_ask (keeps_ask ?_)
  have hb := hkept.begins (Nat.le_of_lt_succ hs)
  have hspan (hp : P.placed) : s.span.Between P.place := (hkept.placed hp).span.1
  have hsingle {p p' : Parser Stmt} {k : TokenKind} [k.Fixed] (hk : s.kind = k)
      (h : s.Opens P n s.rest.length s.span → Gathers P n s.rest.length s.span p p' s (one .stmt)) :
      Keeps P (single p) (single p') s fun stmts s' =>
        s'.Gathered P (n + 1) s.rest.length s.span (stmts.flatMap (one .stmt)) ∧ stmts ≠ [] :=
    (h (hb.opens hk)).bind fun _ _ _ g => keeps_pure ⟨g.widen, List.cons_ne_nil _ _⟩
  have hdefined {p p' : Parser Stmt} {k : TokenKind} [k.Fixed] (hk : s.kind = k)
      (h : s.Opens P n s.rest.length s.span → Keeps P p p' s fun st s' =>
        Decorate P s.span [] → s'.Gathered P n s.rest.length s.span (one .stmt st)) :
      Keeps P (single p) (single p') s fun stmts s' =>
        s'.Gathered P (n + 1) s.rest.length s.span (stmts.flatMap (one .stmt)) ∧ stmts ≠ [] :=
    hsingle hk fun ho => (h ho).imp fun _ _ _ hq => hq (decorate_nil _)
  split
  case h_1 => exact keeps_failWith (oneLine_literal (by decide)) hspan
  case h_2 h => exact hsingle h (gathers_ifStatement hst)
  case h_3 h => exact hsingle h (gathers_whileStatement hst)
  case h_4 h => exact hsingle h (gathers_forStatement hst _)
  case h_5 h => exact hsingle h (gathers_tryStatement hst)
  case h_6 h => exact hsingle h (gathers_withStatement hst _)
  case h_7 h => exact hdefined h (keeps_functionStatement hst _ _)
  case h_8 h => exact hdefined h (keeps_classStatement hst _)
  case h_9 h => exact hsingle h fun ho => gathers_decoratedStatement hst ho h hspan
  case h_10 h => exact hsingle h (gathers_asyncStatement hst)
  case h_11 => exact starts_simpleStatements s hs

end Statement

/-- `statementFuel` with a parser of one's own in the place where the fuel ends. -/
def statementUpTo (limit : Parser (List Stmt)) : Nat → Parser (List Stmt)
  | 0 => limit
  | fuel + 1 => statementLayer (statementUpTo limit fuel)

theorem statementUpTo_add (limit : Parser (List Stmt)) (fuel more : Nat) :
    statementUpTo limit (more + fuel) = statementUpTo (statementUpTo limit more) fuel := by
  induction fuel with
  | zero => rfl
  | succ fuel ih => exact congrArg statementLayer ih

theorem statementFuel_eq (fuel : Nat) : statementFuel fuel = statementUpTo stuck fuel := by
  induction fuel with
  | zero => rfl
  | succ fuel ih => exact congrArg statementLayer ih

/-- Whatever stands where the fuel ends is never asked, if there is more fuel than tokens are left. -/
theorem starts_statementUpTo (limit limit' : Parser (List Stmt)) (fuel : Nat) :
    Starts P fuel (statementUpTo limit fuel) (statementUpTo limit' fuel) (List.flatMap (one .stmt))
      (· ≠ []) := by
  induction fuel with
  | zero => exact fun s hs => absurd hs (Nat.not_lt_zero _)
  | succ fuel ih => exact starts_statementLayer ih

theorem starts_statementFuel (fuel : Nat) :
    Starts P fuel (statementFuel fuel) (statementFuel fuel) (List.flatMap (one .stmt)) (· ≠ []) := by
  rw [statementFuel_eq]
  exact starts_statementUpTo _ _ fuel

theorem statementUpTo_eq (limit : Parser (List Stmt)) {fuel : Nat} {s : ParserState}
    (hs : s.rest.length < fuel) : statementUpTo limit fuel s = statement s := by
  obtain ⟨more, rfl⟩ := Nat.exists_eq_add_of_le' hs
  unfold statement
  rw [statementFuel_eq, statementUpTo_add]
  exact (starts_statementUpTo _ _ _ s (Nat.lt_succ_self _) s.kept_nothing).1

theorem readsMore_statementUpTo (limit : Parser (List Stmt)) (n : Nat) :
    Starts P n statement (statementUpTo limit n) (List.flatMap (one .stmt)) (· ≠ []) := fun s hs =>
  (starts_statementUpTo limit limit n s hs).of_eq (statementUpTo_eq limit hs).symm rfl

/-- A statement is a layer over statements, without any fuel. -/
theorem statement_eq : statement = statementLayer statement := by
  funext s
  rw [← statementUpTo_eq stuck (Nat.lt_succ_self s.rest.length)]
  have hreads := readsMore_statementUpTo (P := .nothing) stuck s.rest.length
  exact (starts_statementLayer hreads s (Nat.lt_succ_self _) s.kept_nothing).1.symm

/-- A statement is read from the next token on, or one error says why not. -/
theorem starts_statement (n : Nat) :
    Starts P n statement statement (List.flatMap (one .stmt)) (· ≠ []) := fun s hs =>
  (readsMore_statementUpTo stuck n s hs).of_eq rfl (statementUpTo_eq _ hs).symm

/-! ## Modules -/

/-- Reading came to a stop at `s'`: at the end of the file, or with one error more. -/
structure Stopped (P : Promise) (s s' : ParserState) : Prop where
  upto : s.Upto P s'
  outcome : (s'.errors = s.errors ∧ s'.kind = .endOfFile) ∨
    ∃ e, s'.errors = s.errors ++ [e] ∧ P.Tells e

/-- A round over a module either reads something or comes to a stop. -/
theorem moduleItem_cases (hs : s.Kept P) :
    (∃ stmts s', moduleItem s = (some (some stmts), s') ∧ s.Upto P s' ∧ s'.errors = s.errors ∧
      s'.rest.length < s.rest.length ∧ Held P s.back s'.back (stmts.flatMap (one .stmt))) ∨
    ∃ s', moduleItem s = (some none, s') ∧ Stopped P s s' := by
  by_cases hend : s.kind = .endOfFile
  · have hat : atEnd s = (some true, s) := by simp [atEnd, ask, ParserState.atEnd, hend]
    refine .inr ⟨s, ?_, .refl hs, .inl ⟨rfl, hend⟩⟩
    rw [moduleItem, bind_some hat]
    rfl
  have hat : atEnd s = (some false, s) := by simp [atEnd, ask, ParserState.atEnd, hend]
  rw [moduleItem, bind_some hat, if_neg Bool.false_ne_true]
  cases hnew : s.isAt .newline with
  | true =>
      have hskip : skip .newline s = (some true, s.advance) := by simp [skip, hnew]
      have hu := hs.upto_advance hend
      have hlength := s.length_advance hend
      refine .inl ⟨[], s.advance, ?_, hu, s.advance_errors, by omega, .nil hu.back⟩
      rw [bind_some hskip]
      rfl
  | false =>
      have hskip : skip .newline s = (some false, s) := by simp [skip, hnew]
      rw [bind_some hskip, if_neg Bool.false_ne_true]
      have hread := starts_statement (P := P) (s.rest.length + 1) s (Nat.lt_succ_self _)
      rcases hrun : statement s with ⟨_ | stmts, s'⟩
      · have hattempt : attempt statement s = (some none, s') := by
          unfold attempt
          rw [hrun]
        obtain ⟨hu, herror⟩ := hread.failure hs hrun
        exact .inr ⟨s', hattempt, hu, .inr herror⟩
      · have hattempt : attempt statement s = (some (some stmts), s') := by
          unfold attempt
          rw [hrun]
        obtain ⟨hu, herrors, g, -⟩ := hread.value hs hrun
        exact .inl ⟨stmts, s', hattempt, hu, herrors, g.few, g.held_from hs⟩

/-- The rounds over a module come to a stop: each of them that does not stop reads a token. -/
theorem moduleItems_stop (n : Nat) : ∀ s : ParserState, s.rest.length < n → s.Kept P →
    ∃ groups s', Collects moduleItem s groups s' ∧ Stopped P s s' ∧
      Held P s.back s'.back (groups.flatMap (List.flatMap (one .stmt))) := by
  induction n with
  | zero => exact fun s h => absurd h (Nat.not_lt_zero _)
  | succ n ih =>
      intro s hlt hs
      rcases moduleItem_cases hs with ⟨stmts, s₁, hrun, hu, he, hless, hheld⟩ | ⟨s₁, hrun, hstop⟩
      · obtain ⟨groups, s₂, hmore, ⟨hu₂, hend⟩, hheld₂⟩ := ih s₁ (by omega) hu.kept
        refine ⟨stmts :: groups, s₂, .round hrun hless hmore, ⟨hu.trans hu₂, he ▸ hend⟩, ?_⟩
        rw [List.flatMap_cons]
        exact hheld.append hheld₂
      · exact ⟨[], s₁, .stop hrun, hstop, .nil hstop.upto.back⟩

theorem moduleBody_stops (hs : s.Kept P) :
    ∃ body s', moduleBody s = (some body, s') ∧ Stopped P s s' ∧
      Held P s.back s'.back (body.flatMap (one .stmt)) := by
  obtain ⟨groups, s', hitems, hstop, hheld⟩ :=
    moduleItems_stop (s.rest.length + 1) s (Nat.lt_succ_self _) hs
  refine ⟨groups.flatten, s', ?_, hstop, ?_⟩
  · rw [moduleBody, bind_some hitems.run]
    rfl
  · rw [flatMap_flatten]
    exact hheld

end Parser

/-! ## Answers -/

section Answers

open MysToCpp.Parser

variable {P : Promise} {tokens : List Token}

/-- The statements of a module that is read from tokens that keep a promise are formed, all the way down,
and stand one behind the other. -/
theorem parseTokens_formed {m : Module} (ht : P.Kept tokens)
    (hplaced : P.placed → Token.Placed P.place tokens) (h : parseTokens tokens = .ok m) :
    (∀ st ∈ m.body, st.Formed P) ∧ (P.placed → Node.Follow m.body) := by
  obtain ⟨body, s, hrun, -, hheld⟩ := moduleBody_stops (ParserState.kept_start ht hplaced)
  simp only [parseTokens, run, hrun] at h
  split at h
  · cases h
  · cases h
    refine ⟨fun st hst => hheld.formed (.plain, .stmt st) ?_, hheld.follow⟩
    exact List.mem_flatMap.mpr ⟨st, hst, List.mem_cons_self⟩

theorem parseTokens_tells {e : ParseError} (ht : P.Kept tokens)
    (hplaced : P.placed → Token.Placed P.place tokens) (h : parseTokens tokens = .error e) : P.Tells e := by
  obtain ⟨body, s, hrun, ⟨-, hstop⟩, -⟩ := moduleBody_stops (ParserState.kept_start ht hplaced)
  rcases hstop with ⟨he, -⟩ | ⟨e', he, htells⟩
  · simp only [parseTokens, run, hrun, ParserState.firstError?, he] at h
    cases h
  · simp only [parseTokens, run, hrun, ParserState.firstError?, he] at h
    cases h
    exact htells

end Answers

end MysToCpp
