/-
# The parsers of expressions

What every parser of expressions does, one lemma for each, over two parsers `nested` and `nested'` of the
expressions inside that do the same and keep to it wherever fewer than `n` tokens are left.  `expression`
closes the circle: its fuel exceeds the tokens left, and every level of nesting pays for itself with a token.
So whatever stands where the fuel ends is never asked, and an expression is a layer over expressions with
no bound on its depth.

Where a node needs at least one of something, an operand more, a comparison or a clause, it is the token that
the parser was chosen by that makes sure of it.
-/
import MysToCpp.Proofs.Parser.Logic

namespace MysToCpp.Parser

open Keyword Punct
open ParserState (Begins Gathered Kept Opens)
open Text (OneLine oneLine_literal)

variable {P : Promise} {α : Type} {n m : Nat} {start : Span} {s : ParserState} {nested nested' : Nested}
  {xs : List Part}

/-! ## Lists, targets and clauses -/

theorem quiet_checkTarget {target : Expr}
    (h : P.placed → ∀ bad, target.badTarget? = some bad → bad.span.Between P.place) :
    Quiet P n (checkTarget target) (checkTarget target) fun _ => target.IsTarget := by
  intro s _
  unfold checkTarget
  split
  · next bad hbad =>
    have hstart : OneLine "cannot assign to " := oneLine_literal (by decide)
    exact keeps_failWith (hstart.append bad.oneLine_describe) fun hp => h hp bad hbad
  · next hbad => exact keeps_pure ⟨.nil fun _ => Nat.le_refl _, Expr.isTarget_of_badTarget? hbad⟩

theorem quiet_checkTarget_of_formed {target : Expr} (h : target.Formed P) :
    Quiet P n (checkTarget target) (checkTarget target) fun _ => target.IsTarget :=
  quiet_checkTarget fun hp _ hbad => ((Expr.formed_badTarget h hbad).nested hp).between

def nextItem (closing : TokenKind) (item : Parser α) : Parser (Option α) := do
  if ← skip comma then
    if ← isAt closing then pure none
    else
      let x ← item
      pure (some x)
  else pure none

theorem moreItems_eq (closing : TokenKind) (item : Parser α) :
    moreItems closing item = many (nextItem closing item) := rfl

section Items

variable {closing : TokenKind} {item item' : Parser α} {parts : α → List Part} {V : α → Prop}

theorem steps_nextItem (h : Places P n item item' parts V) :
    Steps P n (nextItem closing item) (nextItem closing item') parts V :=
  steps_skip (places_ask fun _ => places_if places_none h.some) steps_none

theorem places_moreItems (h : Places P n item item' parts V) :
    Places P n (moreItems closing item) (moreItems closing item') (List.flatMap parts)
      fun xs => ∀ x ∈ xs, V x := by
  rw [moreItems_eq, moreItems_eq]
  exact places_many (steps_nextItem h)

theorem steps_itemStep (h : Starts P n item item' parts V) (goesOn : Bool) :
    Steps P n (itemStep closing item goesOn) (itemStep closing item' goesOn)
      (fun found => parts found.1) fun found => V found.1 := by
  refine steps_ask fun closed => steps_if (fun s hs => ?_) steps_none
  refine (h s hs).bind fun x s₁ _ hq => hq.1.pass (quiet_skip _) fun goesOn s₂ g _ => ?_
  refine keeps_pure fun found hfound => ?_
  cases hfound
  exact ⟨g, hq.2⟩

theorem places_items (h : Starts P n item item' parts V) :
    Places P n (items closing item) (items closing item') (List.flatMap parts)
      fun xs => ∀ x ∈ xs, V x := places_unfold (steps_itemStep h) true

end Items

def nextExpression (nested : Nested) (binding : Nat) : Parser (Option Expr) := do
  if ← skip comma then
    if (← kind).startsExpression then
      let e ← nested binding
      pure (some e)
    else pure none
  else pure none

theorem expressionList_eq (nested : Nested) (binding : Nat) :
    expressionList nested binding = (do
      let first ← nested binding
      if ← isAt comma then
        let more ← many (nextExpression nested binding)
        pure (.tuple (← spanFrom first.span) (first :: more))
      else pure first) := rfl

def nextClause (nested : Nested) : Parser (Option Comprehension) := do
  let isAsync ← atAsyncFor
  if isAsync then advance
  after forKw (comprehension nested isAsync)

theorem comprehensions_eq (nested : Nested) : comprehensions nested = many (nextClause nested) := rfl

/-- A round of `parameters`, which is told whether a comma was read and what kind the parameters
are of. -/
def nextParameter (nested : Nested) (closing : TokenKind) (annotated : Bool)
    (now : Bool × ParamKind) : Parser (Option (Option Param × Bool × ParamKind)) := do
  if now.1 && !(← isAt closing) then
    let (param, kind) ← parameterOrMark nested closing annotated now.2
    let goesOn ← skip comma
    pure (some (param, (goesOn, kind)))
  else pure none

theorem parameters_eq (nested : Nested) (closing : TokenKind) (annotated : Bool) :
    parameters nested closing annotated = (do
      let found ← unfold (nextParameter nested closing annotated) (true, .positional)
      pure (found.filterMap id)) := rfl

/-- Two parsers of expressions that do the same, and what is asked of it, wherever fewer than `n` tokens
are left. -/
abbrev Reads (P : Promise) (n : Nat) (nested nested' : Nested) : Prop :=
  ∀ b, Starts P n (nested b) (nested' b) (one .expr) fun _ => True

section Nested

variable (hn : Reads P n nested nested')

include hn

theorem steps_nextExpression (b : Nat) :
    Steps P n (nextExpression nested b) (nextExpression nested' b) (one .expr) fun _ => True :=
  steps_skip (places_ask fun _ => places_if (hn b).places.some places_none) steps_none

theorem starts_expressionList (b : Nat) :
    Starts P n (expressionList nested b) (expressionList nested' b) (one .expr) fun _ => True := by
  rw [expressionList_eq, expressionList_eq]
  refine fun s hs => (hn b s hs).bind fun first s₁ _ hq => keeps_ask (keeps_if (fun _ => ?_) fun _ => ?_)
  · refine (hq.1.own.bind (places_many (steps_nextExpression hn b)) fun more s₂ g _ => ?_).imp
      fun _ _ _ g => ⟨hq.1.since g, trivial⟩
    exact g.closeExpr fun x => ⟨rfl, by simp [Node.partsAt, Node.parts, Expr.parts], trivial, rfl, trivial⟩
  · exact keeps_pure hq

theorem starts_comprehension (isAsync : Bool) :
    Starts P n (comprehension nested isAsync) (comprehension nested' isAsync)
      (clause Comprehension.parts) fun c => c.target.IsTarget := by
  refine fun s hs => (starts_expressionList hn _ s hs).bind fun target s₁ _ hq => ?_
  have htarget : target.Formed P := hq.1.held.formed _ List.mem_cons_self
  refine hq.1.pass (quiet_checkTarget_of_formed htarget) fun _ s₂ g hcheck => ?_
  refine g.expect fun _ s₃ g => g.bind (hn _).places fun source s₄ g _ => ?_
  refine g.bind (places_many (steps_after (hn _).places)) fun conditions s₅ g _ => ?_
  refine keeps_pure ⟨?_, hcheck⟩
  simpa [clause, Comprehension.parts] using g

theorem steps_nextClause :
    Steps P n (nextClause nested) (nextClause nested') (clause Comprehension.parts)
      fun c => c.target.IsTarget := by
  have hclause (isAsync : Bool) := steps_after (k := forKw) (starts_comprehension hn isAsync).places
  refine fun s hs => .of_kept fun hkept => keeps_ask (keeps_if (fun h => ?_) fun _ => hclause _ s hs)
  -- `async` is only read where `for` follows it
  have ho := (hkept.begins (Nat.le_of_lt hs)).opens_of_isAt (Bool.and_eq_true_iff.mp h).1
  refine ho.step fun g => (hclause _ _ g.few_left).imp fun r s' _ hq c hc => ?_
  exact ⟨g.begins.gathered (hq c hc).1, (hq c hc).2⟩

theorem keeps_nextClause (hs : s.rest.length < n)
    (h : (s.isAt forKw || (s.isAt asyncKw && s.secondKind.isKeyword forKw)) = true) :
    Keeps P (nextClause nested) (nextClause nested') s fun r _ => ∃ c ∈ r, c.target.IsTarget := by
  have hclause (isAsync : Bool) := (starts_comprehension hn isAsync).places
  refine .of_kept fun hkept => keeps_ask (keeps_if (fun hasync => ?_) fun hasync => ?_)
  · obtain ⟨hasync, hfor⟩ := Bool.and_eq_true_iff.mp hasync
    have hk := s.kind_ne_end_of_isAt hasync
    have hnext : s.advance.isAt forKw = true := by
      rw [ParserState.isAt_iff, s.kind_advance hk]
      exact decide_eq_true_iff.mp hfor
    refine (hkept.begins (Nat.le_of_lt hs)).opens_of_isAt hasync |>.step fun g => ?_
    exact keeps_after (hclause _) g.few_left hnext
  · have hfor : s.isAt forKw = true := by
      rw [Bool.or_eq_true] at h
      exact h.resolve_right hasync
    exact keeps_after (hclause _) hs hfor

theorem places_comprehensions :
    Places P n (comprehensions nested) (comprehensions nested')
      (List.flatMap (clause Comprehension.parts)) fun clauses => ∀ c ∈ clauses, c.target.IsTarget :=
  places_many (steps_nextClause hn)

/-- Where a clause is next, clauses are gathered. -/
theorem gathered_comprehensions {β : Type} {f g : List Comprehension → Parser β}
    {S : β → ParserState → Prop} (gs : s.Gathered P n m start xs)
    (h : (s.isAt forKw || (s.isAt asyncKw && s.secondKind.isKeyword forKw)) = true)
    (hf : ∀ clauses s', s'.Gathered P n m start (xs ++ clauses.flatMap (clause Comprehension.parts)) →
      clauses ≠ [] ∧ (∀ c ∈ clauses, c.target.IsTarget) → Keeps P (f clauses) (g clauses) s' S) :
    Keeps P (comprehensions nested >>= f) (comprehensions nested' >>= g) s S := by
  rw [comprehensions_eq, comprehensions_eq]
  refine gs.many_first (steps_nextClause hn) (keeps_nextClause hn gs.few_left h) ?_
  exact fun clauses s' gs htargets hne => hf clauses s' gs ⟨hne, htargets⟩

theorem gathers_parameter (annotated : Bool) (kind : ParamKind) (hb : s.Begins P n m start)
    (hs : s.rest.length < n) :
    Gathers P n m start (parameter nested annotated kind start) (parameter nested' annotated kind start) s
      (one .param) := by
  have hafter (k : TokenKind) [k.Fixed] := places_after (k := k) (hn Precedence.lowest.binding).places
  have hend {name : Ident} {hint : Option Expr} {s : ParserState}
      (g : s.Gathered P n m start (one .ident name ++ maybe (one .expr) hint)) :
      Gathers P n m start
        (do
          let default ← after assign (anyExpr nested)
          let x ← spanFrom start
          pure (⟨name, hint, default, kind, x⟩ : Param))
        (do
          let default ← after assign (anyExpr nested')
          let x ← spanFrom start
          pure (⟨name, hint, default, kind, x⟩ : Param)) s (one .param) := by
    refine g.bind (hafter assign) fun default s₁ g _ => ?_
    refine g.closePlain .param (fun _ => rfl) (fun _ => ⟨trivial, nofun, trivial, fun _ => trivial⟩) ?_
      (fun _ => rfl) fun _ => rfl
    intro x
    simp [Node.partsAt, Node.parts, Param.parts]
  refine hb.bind hs starts_identifier fun name s₁ g _ => keeps_if (fun _ => ?_) fun _ => ?_
  · exact g.bind (hafter colon) fun hint s₂ g _ => hend g
  · exact g.bind (places_none (V := fun _ => True)) fun hint s₂ g _ => hend g

theorem starts_parameterOrMark (closing : TokenKind) (annotated : Bool) (kind : ParamKind) :
    Starts P n (parameterOrMark nested closing annotated kind)
      (parameterOrMark nested' closing annotated kind) (fun found => maybe (one .param) found.1)
      fun _ => True := by
  refine fun s hs => .of_kept fun hkept => keeps_ask ?_
  have hb := hkept.begins (Nat.le_of_lt hs)
  have hparam {s₁ : ParserState} (kind next : ParamKind) (hb : s₁.Begins P n s.rest.length s.span)
      (hs₁ : s₁.rest.length < n) :
      Keeps P
        (do
          let p ← parameter nested annotated kind s.span
          pure (some p, next))
        (do
          let p ← parameter nested' annotated kind s.span
          pure (some p, next)) s₁ fun found s' =>
          s'.Gathered P n s.rest.length s.span (maybe (one .param) found.1) ∧ True :=
    (gathers_parameter hn annotated kind hb hs₁).bind fun _ _ _ g => keeps_pure ⟨g, trivial⟩
  refine hb.skip (fun g => keeps_pure ⟨g, trivial⟩) (hb.skip (fun g => ?_) (hb.skip (fun g => ?_) ?_))
  · refine keeps_ask (keeps_ask (keeps_if (fun _ => keeps_pure ⟨g, trivial⟩) fun _ => ?_))
    exact hparam _ _ g.begins g.few_left
  · exact hparam _ _ g.begins g.few_left
  · exact hparam _ _ hb hs

theorem steps_nextParameter (closing : TokenKind) (annotated : Bool) (now : Bool × ParamKind) :
    Steps P n (nextParameter nested closing annotated now) (nextParameter nested' closing annotated now)
      (fun found => maybe (one .param) found.1) fun _ => True := by
  refine steps_ask fun closed => steps_if (fun s hs => ?_) steps_none
  refine (starts_parameterOrMark hn closing annotated now.2 s hs).bind fun found s₁ _ hq => ?_
  refine hq.1.pass (quiet_skip _) fun goesOn s₂ g _ => keeps_pure fun r hr => ?_
  cases hr
  exact ⟨g, trivial⟩

omit hn in
theorem flatMap_maybe (found : List (Option Param)) :
    found.flatMap (maybe (one .param)) = (found.filterMap id).flatMap (one .param) := by
  induction found with
  | nil => rfl
  | cons p found ih => cases p <;> simp [maybe, ih]

theorem places_parameters (closing : TokenKind) (annotated : Bool) :
    Places P n (parameters nested closing annotated) (parameters nested' closing annotated)
      (List.flatMap (one .param)) fun _ => True := by
  rw [parameters_eq, parameters_eq]
  refine (places_unfold (V := fun _ => True) (steps_nextParameter hn closing annotated) _).map
    (fun found => ?_) fun _ _ => trivial
  exact (flatMap_maybe found).symm

/-! ## Operands -/

omit hn in
theorem gathers_constant (value : Constant) (ho : s.Opens P n m s.span) :
    Gathers P n m s.span (constant value s.span) (constant value s.span) s (one .expr) := by
  refine ho.step fun g => keeps_pure (g.closedExpr ⟨?_, List.nil_subset _, trivial, rfl, trivial⟩)
  exact (ParserState.spanFrom_advance ho.kind).symm

omit hn in
theorem steps_stringToken : Steps P n stringToken stringToken (fun _ => []) fun _ => True := by
  refine fun s hs => .of_kept fun hkept => keeps_ask ?_
  have hread {k : TokenKind} (hk : s.kind ≠ .endOfFile) :
      Keeps P (do advance; pure (some k)) (do advance; pure (some k)) s fun r s' => ∀ a, r = some a →
        s'.Gathered P n s.rest.length s.span [] ∧ True :=
    ParserState.Opens.step ⟨hkept.begins (Nat.le_of_lt hs), hk⟩ fun g => keeps_pure fun _ _ => ⟨g, trivial⟩
  split
  case h_4 => exact keeps_pure fun _ ha => absurd ha nofun
  all_goals
    next h => exact hread (by rw [h]; nofun)

omit hn in
/-- Where a string is next, it is read, and those behind it belong to the same node. -/
theorem gathers_strings (hb : s.Begins P n m start)
    (h : Keeps P stringToken stringToken s fun r _ => ∃ k ∈ r, True) :
    Gathers P n m start (strings start) (strings start) s (one .expr) := by
  refine hb.many_first (Nat.lt_succ_self _) steps_stringToken h fun tokens s₁ g _ _ => keeps_ask ?_
  rw [List.flatMap_eq_nil_iff.mpr fun _ _ => rfl] at g
  refine keeps_if (fun _ => ?_) fun _ => keeps_if (fun _ => ?_) fun _ => keeps_if (fun _ => ?_) fun _ => ?_
  · exact keeps_failWith (oneLine_literal (by decide)) g.spanFrom.1
  all_goals exact keeps_pure (g.closedExpr ⟨rfl, List.Subset.refl _, trivial, rfl, trivial⟩)

theorem gathers_prefixed {build : Expr → Span → Expr} (b : Nat) (ho : s.Opens P n m start)
    (hmade : ∀ e x, (build e x).Made P x (one .expr e)) :
    Gathers P n m start
      (do
        advance
        let e ← nested b
        let x ← spanFrom start
        pure (build e x))
      (do
        advance
        let e ← nested' b
        let x ← spanFrom start
        pure (build e x)) s (one .expr) :=
  ho.step fun g => g.bind (hn b).places fun e _ g _ => g.closeExpr (hmade e)

theorem gathers_unary (op : UnaryOp) (level : Precedence) (ho : s.Opens P n m start) :
    Gathers P n m start (unary nested op level start) (unary nested' op level start) s (one .expr) :=
  gathers_prefixed hn _ ho fun _ _ => ⟨rfl, List.Subset.refl _, trivial, rfl, trivial⟩

theorem gathers_starred (ho : s.Opens P n m start) :
    Gathers P n m start (starred nested start) (starred nested' start) s (one .expr) :=
  gathers_prefixed hn _ ho fun _ _ => ⟨rfl, List.Subset.refl _, trivial, rfl, trivial⟩

theorem gathers_await (ho : s.Opens P n m start) :
    Gathers P n m start (await nested start) (await nested' start) s (one .expr) :=
  gathers_prefixed hn _ ho fun _ _ => ⟨rfl, List.Subset.refl _, trivial, rfl, trivial⟩

theorem gathers_lambda (ho : s.Opens P n m start) :
    Gathers P n m start (lambda nested start) (lambda nested' start) s (one .expr) := by
  refine ho.step fun g => g.bind (places_parameters hn _ _) fun params s₁ g _ => ?_
  refine g.expect fun _ s₂ g => g.bind (hn _).places fun body s₃ g _ => ?_
  refine g.closeExpr fun _ => ⟨rfl, ?_, trivial, rfl, trivial⟩
  simp [Node.partsAt, Node.parts, Expr.parts]

theorem gathers_yield (ho : s.Opens P n m start) :
    Gathers P n m start (yield nested start) (yield nested' start) s (one .expr) := by
  refine ho.step fun g => g.skip (fun s₁ g => ?_) (keeps_ask (keeps_if (fun _ => ?_) fun _ => ?_))
  · refine g.bind (hn _).places fun value s₂ g _ => ?_
    exact g.closeExpr fun _ => ⟨rfl, List.Subset.refl _, trivial, rfl, trivial⟩
  · refine g.bind (starts_expressionList hn _).places fun value s₁ g _ => ?_
    exact g.closeExpr fun _ => ⟨rfl, List.Subset.refl _, trivial, rfl, trivial⟩
  · exact g.closeExpr fun _ => ⟨rfl, List.Subset.refl _, trivial, rfl, trivial⟩

theorem gathers_closeClauses {closing : TokenKind} [closing.Fixed]
    {build : List Comprehension → Span → Expr} (g : s.Gathered P n m start xs)
    (h : (s.isAt forKw || (s.isAt asyncKw && s.secondKind.isKeyword forKw)) = true)
    (hmade : ∀ clauses x, clauses ≠ [] ∧ (∀ c ∈ clauses, c.target.IsTarget) →
      (build clauses x).Made P x (xs ++ clauses.flatMap (clause Comprehension.parts))) :
    Gathers P n m start
      (do
        let clauses ← comprehensions nested
        let _ ← expect closing
        let x ← spanFrom start
        pure (build clauses x))
      (do
        let clauses ← comprehensions nested'
        let _ ← expect closing
        let x ← spanFrom start
        pure (build clauses x)) s (one .expr) := by
  refine gathered_comprehensions hn g h fun clauses s₁ g hclauses => ?_
  exact g.expect fun _ s₂ g => g.closeExpr fun x => hmade clauses x hclauses

omit hn in
theorem gathers_closeItems {closing : TokenKind} [closing.Fixed] {item item' : Parser α}
    {parts : α → List Part} {build : List α → Span → Expr}
    (hitem : Places P n item item' parts fun _ => True) (g : s.Gathered P n m start xs)
    (hmade : ∀ more x, (build more x).Made P x (xs ++ more.flatMap parts)) :
    Gathers P n m start
      (do
        let more ← moreItems closing item
        let _ ← expect closing
        let x ← spanFrom start
        pure (build more x))
      (do
        let more ← moreItems closing item'
        let _ ← expect closing
        let x ← spanFrom start
        pure (build more x)) s (one .expr) := by
  refine g.bind (places_moreItems hitem) fun more s₁ g _ => ?_
  exact g.expect fun _ s₂ g => g.closeExpr (hmade more)

theorem gathers_group (ho : s.Opens P n m start) :
    Gathers P n m start (group nested start) (group nested' start) s (one .expr) := by
  refine ho.step fun g => g.skip (fun s₁ g => ?_) ?_
  · exact g.closeExpr fun _ => ⟨rfl, List.Subset.refl _, trivial, rfl, trivial⟩
  · refine g.bind (hn _).places fun first s₁ g _ => keeps_ask (keeps_if (fun h => ?_) fun _ => ?_)
    · refine gathers_closeClauses hn g h fun clauses x hclauses => ⟨rfl, ?_, hclauses, rfl, trivial⟩
      simp [Node.partsAt, Node.parts, Expr.parts, List.map_flatMap]
    · refine keeps_ask (keeps_if (fun _ => ?_) fun _ => ?_)
      · refine gathers_closeItems (hn _).places g fun more x => ⟨rfl, ?_, trivial, rfl, trivial⟩
        simp [Node.partsAt, Node.parts, Expr.parts]
      · exact g.expect fun _ _ g => keeps_pure g

theorem gathers_listDisplay (ho : s.Opens P n m start) :
    Gathers P n m start (listDisplay nested start) (listDisplay nested' start) s (one .expr) := by
  refine ho.step fun g => g.skip (fun s₁ g => ?_) ?_
  · exact g.closeExpr fun _ => ⟨rfl, List.Subset.refl _, trivial, rfl, trivial⟩
  · refine g.bind (hn _).places fun first s₁ g _ => keeps_ask (keeps_if (fun h => ?_) fun _ => ?_)
    · refine gathers_closeClauses hn g h fun clauses x hclauses => ⟨rfl, ?_, hclauses, rfl, trivial⟩
      simp [Node.partsAt, Node.parts, Expr.parts, List.map_flatMap]
    · refine gathers_closeItems (hn _).places g fun more x => ⟨rfl, ?_, trivial, rfl, trivial⟩
      simp [Node.partsAt, Node.parts, Expr.parts]

theorem gathers_setDisplay {first : Expr} (g : s.Gathered P n m start (one .expr first)) :
    Gathers P n m start (setDisplay nested first start) (setDisplay nested' first start) s (one .expr) := by
  refine keeps_ask (keeps_if (fun h => ?_) fun _ => ?_)
  · refine gathers_closeClauses hn g h fun clauses x hclauses => ⟨rfl, ?_, hclauses, rfl, trivial⟩
    simp [Node.partsAt, Node.parts, Expr.parts, List.map_flatMap]
  · refine gathers_closeItems (hn _).places g fun more x => ⟨rfl, ?_, List.cons_ne_nil _ _, rfl, trivial⟩
    simp [Node.partsAt, Node.parts, Expr.parts]

theorem starts_entry :
    Starts P n (entry nested) (entry nested') (fun found => [(.plain, .expr found.1), (.plain, .expr found.2)])
      fun _ => True := by
  refine fun s hs => (hn _ s hs).bind fun key s₁ _ hq => hq.1.expect fun _ s₂ g => ?_
  exact g.bind (hn _).places fun value s₃ g _ => keeps_pure ⟨g, trivial⟩

theorem gathers_dictDisplay {key : Expr} (g : s.Gathered P n m start (one .expr key)) :
    Gathers P n m start (dictDisplay nested key start) (dictDisplay nested' key start) s (one .expr) := by
  refine g.bind (hn _).places fun value s₁ g _ => keeps_ask (keeps_if (fun h => ?_) fun _ => ?_)
  · refine gathers_closeClauses hn g h fun clauses x hclauses => ⟨rfl, ?_, hclauses, rfl, trivial⟩
    simp [Node.partsAt, Node.parts, Expr.parts, List.map_flatMap]
  · refine gathers_closeItems (starts_entry hn).places g fun more x => ⟨rfl, ?_, ?_, rfl, trivial⟩
    · -- keys and values alternate in the text and not in the tree
      intro part hpart
      simp only [Node.partsAt, Node.parts, Expr.parts, List.mem_map, List.mem_append, List.mem_cons] at hpart
      simp only [List.mem_append, List.mem_cons, List.mem_flatMap]
      grind
    · simp [Expr.WellFormed]

theorem gathers_braceDisplay (ho : s.Opens P n m start) :
    Gathers P n m start (braceDisplay nested start) (braceDisplay nested' start) s (one .expr) := by
  refine ho.step fun g => g.skip (fun s₁ g => ?_) (keeps_ask (keeps_if (fun _ => ?_) fun _ => ?_))
  · exact g.closeExpr fun _ => ⟨rfl, List.Subset.refl _, rfl, rfl, trivial⟩
  · exact keeps_ask (keeps_failWith (oneLine_literal (by decide)) fun hp => (g.kept.placed hp).span.1)
  · refine g.bind (hn _).places fun first s₁ g _ => g.skip (fun s₂ g => ?_) ?_
    · exact gathers_dictDisplay hn g
    · exact gathers_setDisplay hn g

/-- The first token of an operand is its own, so that what is nested in it is read with fewer. -/
theorem gathers_operand (hs : s.Kept P) (hle : s.rest.length ≤ n) :
    Gathers P n s.rest.length s.span (operand nested) (operand nested') s (one .expr) := by
  have hb := hs.begins hle
  refine keeps_ask (keeps_ask ?_)
  by_cases hk : s.kind = .endOfFile
  · rw [hk]
    exact keeps_failExpected (oneLine_literal (by decide))
  have ho : s.Opens P n s.rest.length s.span := ⟨hb, hk⟩
  split
  case h_1 id h =>
    refine ho.step fun g => keeps_pure (g.closedExpr ⟨?_, List.nil_subset _, trivial, rfl, hs.word h⟩)
    exact (ParserState.spanFrom_advance hk).symm
  case h_4 h | h_5 h | h_6 h =>
    refine gathers_strings hb (keeps_ask ?_)
    rw [h]
    exact ho.step fun _ => keeps_pure ⟨_, rfl, trivial⟩
  case h_11 | h_12 | h_13 | h_14 => exact gathers_unary hn _ _ ho
  case h_15 => exact gathers_starred hn ho
  case h_16 => exact gathers_lambda hn ho
  case h_17 => exact gathers_await hn ho
  case h_18 => exact gathers_yield hn ho
  case h_19 => exact gathers_group hn ho
  case h_20 => exact gathers_listDisplay hn ho
  case h_21 => exact gathers_braceDisplay hn ho
  case h_22 => exact keeps_failExpected (oneLine_literal (by decide))
  all_goals exact gathers_constant _ ho

/-! ## Operators behind an operand -/

section Operators

variable {left : Expr}

theorem extends_binaryTail (op : BinaryOp) (right : Nat) (ho : s.Opens P n m start) :
    Extends P n m start left (binaryTail nested op right left) (binaryTail nested' op right left) s := by
  refine ho.step fun g => g.bind (hn _).places fun r s₁ g _ => keeps_pure ⟨_, g, fun k gl => ?_⟩
  have gboth : s₁.Gathered P n k left.span (one .expr left ++ one .expr r) := gl
  exact gboth.through rfl ⟨trivial, nofun, trivial, fun _ => trivial⟩ (List.Subset.refl _) rfl rfl

theorem steps_boolTail (op : BoolOp) (right : Nat) :
    Steps P n (after (boolWord op) (nested right)) (after (boolWord op) (nested' right)) (one .expr)
      fun _ => True := steps_after (hn right).places

theorem extends_boolTail (op : BoolOp) (right : Nat) (hb : s.Begins P n m start)
    (hs : s.rest.length < n) (h : s.kind = boolWord op) :
    Extends P n m start left (boolTail nested op right left) (boolTail nested' op right left) s := by
  have hfirst := keeps_after (hn right).places hs (ParserState.isAt_iff.mpr h)
  refine hb.many_first hs (steps_boolTail hn op right) hfirst fun more s₁ g _ hne => ?_
  refine g.closeBehind fun x => ⟨rfl, ?_, Nat.succ_le_succ (List.length_pos_iff.mpr hne), rfl, trivial⟩
  simp [Node.partsAt, Node.parts, Expr.parts]

omit hn in
theorem second_ne_end_of_compare {first second : TokenKind} {op : CompareOp}
    (h : CompareOp.of? first second = some (op, true)) : second ≠ .endOfFile := by
  rintro rfl
  unfold CompareOp.of? at h
  split at h <;> simp_all [TokenKind.isKeyword]

theorem keeps_comparison (right : Nat) {found : CompareOp × Bool} (hs : s.rest.length < n)
    (h : CompareOp.of? s.kind s.secondKind = some found) :
    Keeps P (comparison nested right) (comparison nested' right) s fun r s' =>
      ∃ c ∈ r, s'.Gathered P n s.rest.length s.span (one (fun c => .expr c.2) c) := by
  obtain ⟨op, isTwoWords⟩ := found
  have hk : s.kind ≠ .endOfFile := by
    intro he
    rw [he] at h
    cases h
  have hright {s₁ : ParserState} (g : s₁.Gathered P n s.rest.length s.span []) :
      Keeps P (do let e ← nested right; pure (some (op, e)))
        (do let e ← nested' right; pure (some (op, e))) s₁ fun r s' =>
        ∃ c ∈ r, s'.Gathered P n s.rest.length s.span (one (fun c => .expr c.2) c) :=
    g.bind (hn right).places fun e _ g _ => keeps_pure ⟨_, rfl, g⟩
  refine .of_kept fun hkept => keeps_ask (keeps_ask ?_)
  rw [h]
  refine Opens.step ⟨hkept.begins (Nat.le_of_lt hs), hk⟩ fun g => keeps_if (fun htwo => ?_) fun _ => hright g
  have hk₂ : s.advance.kind ≠ .endOfFile := by
    rw [htwo] at h
    rw [s.kind_advance hk]
    exact second_ne_end_of_compare h
  exact g.step hk₂ fun _ g => hright g

theorem steps_comparison (right : Nat) :
    Steps P n (comparison nested right) (comparison nested' right) (one fun c => .expr c.2)
      fun _ => True := by
  intro s hs
  cases h : CompareOp.of? s.kind s.secondKind with
  | some found =>
      refine (keeps_comparison hn right hs h).imp ?_
      rintro r s' - ⟨c, hc, g⟩ a rfl
      cases hc
      exact ⟨g, trivial⟩
  | none =>
      refine keeps_ask (keeps_ask ?_)
      rw [h]
      exact keeps_pure fun _ ha => absurd ha nofun

theorem extends_compareTail (right : Nat) {found : CompareOp × Bool} (hb : s.Begins P n m start)
    (hs : s.rest.length < n) (h : CompareOp.of? s.kind s.secondKind = some found) :
    Extends P n m start left (compareTail nested right left) (compareTail nested' right left) s := by
  have hfirst := (keeps_comparison hn right hs h).imp (R := fun r _ => ∃ c ∈ r, True)
    fun _ _ _ ⟨c, hc, _⟩ => ⟨c, hc, trivial⟩
  refine hb.many_first hs (steps_comparison hn right) hfirst fun more s₁ g _ hne => ?_
  have hlength (x : Span) : (Expr.compare x left (more.map (·.1)) (more.map (·.2))).WellFormed := by
    simp only [Expr.WellFormed, List.length_map, and_true]
    exact List.length_pos_iff.mpr hne
  refine g.closeBehind fun x => ⟨rfl, ?_, hlength x, rfl, trivial⟩
  simp [Node.partsAt, Node.parts, Expr.parts, Function.comp_def]

theorem extends_conditionalTail (right : Nat) (ho : s.Opens P n m start) :
    Extends P n m start left (conditionalTail nested right left) (conditionalTail nested' right left)
      s := by
  refine ho.step fun g => g.bind (hn _).places fun test s₁ g _ => g.expect fun _ s₂ g => ?_
  refine g.bind (hn _).places fun orelse s₃ g _ => ?_
  exact g.closeBehind fun _ => ⟨rfl, List.Subset.refl _, trivial, rfl, trivial⟩

theorem extends_namedTail (right : Nat) (ho : s.Opens P n m start)
    (hspan : P.placed → left.span.Between P.place) :
    Extends P n m start left (namedTail nested right left) (namedTail nested' right left) s := by
  refine keeps_if (fun _ => ?_) fun hname => ?_
  · have hstart : OneLine "cannot use assignment expressions with " := oneLine_literal (by decide)
    exact keeps_failWith (hstart.append left.oneLine_describe) hspan
  · have hshape : ∃ span id, left = .name span id := by
      cases left with
      | name span id => exact ⟨span, id, rfl⟩
      | _ => exact absurd rfl hname
    refine ho.step fun g => g.bind (hn right).places fun value s₁ g _ => keeps_pure ⟨_, g, fun k gl => ?_⟩
    have gboth : s₁.Gathered P n k left.span (one .expr left ++ one .expr value) := gl
    exact gboth.through rfl ⟨hshape, nofun, trivial, fun _ => trivial⟩ (List.Subset.refl _) rfl rfl

omit hn in
theorem extends_memberTail (ho : s.Opens P n m start) :
    Extends P n m start left (memberTail left) (memberTail left) s := by
  refine ho.step fun g => g.bind starts_identifier.places fun attr s₁ g _ => ?_
  exact g.closeBehind fun _ => ⟨rfl, List.Subset.refl _, trivial, rfl, trivial⟩

end Operators

/-! ## Arguments and indices -/

omit hn in
def Argument.node : Argument → Node
  | positional e => .expr e
  | keyword k => .keyword k

omit hn in
theorem arguments_subset (arguments : List Argument) :
    ((arguments.filterMap (·.positional?)).map .expr ++ (arguments.filterMap (·.keyword?)).map .keyword) ⊆
      arguments.map Argument.node := by
  intro x hx
  rcases List.mem_append.mp hx with hx | hx
  · obtain ⟨e, he, rfl⟩ := List.mem_map.mp hx
    obtain ⟨a, ha, hae⟩ := List.mem_filterMap.mp he
    refine List.mem_map.mpr ⟨a, ha, ?_⟩
    cases a with
    | positional value => cases hae; rfl
    | keyword k => cases hae
  · obtain ⟨k, hk, rfl⟩ := List.mem_map.mp hx
    obtain ⟨a, ha, hak⟩ := List.mem_filterMap.mp hk
    refine List.mem_map.mpr ⟨a, ha, ?_⟩
    cases a with
    | positional value => cases hak
    | keyword k => cases hak; rfl

/-- `name =` is read without looking, and is there. -/
theorem gathers_keywordArg (hb : s.Begins P n m start) (hs : s.rest.length < n)
    (hassign : s.secondKind.isPunct assign = true) :
    Gathers P n m start (keywordArg nested start) (keywordArg nested' start) s (one .keyword) := by
  refine ((starts_identifier s hs).and keeps_identifier).bind ?_
  rintro name s₁ - ⟨⟨g, -⟩, hname, -, rfl⟩
  have hk := ParserState.kind_ne_end_of_name hname
  have hk₂ : s.advance.kind ≠ .endOfFile := by
    rw [s.kind_advance hk, decide_eq_true_iff.mp hassign]
    nofun
  refine (hb.gathered g).step hk₂ fun s₂ g => g.bind (hn _).places fun value s₃ g _ => ?_
  exact g.closePlain .keyword (fun _ => rfl) (fun _ => ⟨trivial, nofun, trivial, fun _ => trivial⟩)
    (fun _ => rfl) (fun _ => rfl) fun _ => rfl

theorem gathers_plainArgument (hb : s.Begins P n m start) (hs : s.rest.length < n) :
    Gathers P n m start (plainArgument nested start) (plainArgument nested' start) s (one .expr) := by
  refine hb.bind hs (hn _) fun value s₁ g _ => keeps_ask (keeps_if (fun h => ?_) fun _ => keeps_pure g)
  refine gathered_comprehensions hn g h fun clauses s₂ g hclauses => ?_
  refine g.closeExpr fun x => ⟨rfl, ?_, hclauses, rfl, trivial⟩
  simp [Node.partsAt, Node.parts, Expr.parts, List.map_flatMap]

theorem starts_argument :
    Starts P n (argument nested) (argument nested') (one Argument.node) fun _ => True := by
  refine fun s hs => .of_kept fun hkept => keeps_ask ?_
  have hb := hkept.begins (Nat.le_of_lt hs)
  refine hb.skip (fun g => ?_) (keeps_ask (keeps_if (fun h => ?_) fun _ => ?_))
  · refine g.bind (hn _).places fun value s₁ g _ => ?_
    refine (g.closePlain Argument.node (fun _ => rfl) ?_ (fun _ => rfl) (fun _ => rfl)
      fun _ => rfl).imp fun _ _ _ g => ⟨g, trivial⟩
    exact fun _ => ⟨trivial, nofun, trivial, fun _ => trivial⟩
  · exact (gathers_keywordArg hn hb hs (Bool.and_eq_true_iff.mp h).2).bind fun _ _ _ g =>
      keeps_pure ⟨g, trivial⟩
  · exact (gathers_plainArgument hn hb hs).bind fun _ _ _ g => keeps_pure ⟨g, trivial⟩

theorem extends_callTail {func : Expr} (ho : s.Opens P n m start) :
    Extends P n m start func (callTail nested func) (callTail nested' func) s := by
  refine ho.step fun g => g.bind (places_items (starts_argument hn)) fun arguments s₁ g _ => ?_
  refine g.expect fun _ s₂ g => g.closeBehind fun x => ⟨rfl, ?_, trivial, rfl, trivial⟩
  have hsubset := List.map_subset (fun x : Node => (Role.plain, x)) (arguments_subset arguments)
  simpa [Node.partsAt, Node.parts, Expr.parts] using List.cons_subset_cons (.plain, .expr func) hsubset

theorem places_slicePart :
    Places P n (slicePart nested) (slicePart nested') (maybe (one .expr)) fun _ => True := by
  refine places_ask fun leftOut => places_if (places_pure rfl trivial) ?_
  exact (hn _).places.map (fun _ => rfl) fun _ _ => trivial

/-- From the first colon on; what stands in front of it is gathered. -/
theorem gathers_sliceTail {lower : Option Expr} (hk : s.kind ≠ .endOfFile)
    (h : s.Kept P → s.advance.Gathered P n m start (maybe (one .expr) lower)) :
    Gathers P n m start (sliceTail nested lower start) (sliceTail nested' lower start) s
      fun e => [(.axis, .expr e)] := by
  have hend {s : ParserState} {upper step : Option Expr} (g : s.Gathered P n m start
      (maybe (one .expr) lower ++ maybe (one .expr) upper ++ maybe (one .expr) step)) :
      Gathers P n m start (do let x ← spanFrom start; pure (.slice x lower upper step))
        (do let x ← spanFrom start; pure (.slice x lower upper step)) s fun e => [(.axis, .expr e)] := by
    refine keeps_ask (keeps_pure (g.closedBare rfl ⟨trivial, nofun, trivial, fun _ => trivial⟩ ?_ rfl rfl))
    simp [Node.partsAt, Node.parts, Expr.parts]
  refine .of_kept fun hkept => keeps_advance hk fun _ => ?_
  refine (h hkept).bind (places_slicePart hn) fun upper s₁ g _ => g.skip (fun s₂ g => ?_) ?_
  · exact g.bind (places_slicePart hn) fun step s₃ g _ => hend g
  · exact g.bind (V := fun _ => True) (places_pure rfl trivial) fun step s₂ g _ => hend g

/-- A slice is among indices, and whatever else stands there could stand anywhere. -/
theorem starts_sliceItem :
    Starts P n (sliceItem nested) (sliceItem nested') (fun e => [(.axis, .expr e)]) fun _ => True := by
  refine fun s hs => .of_kept fun hkept => keeps_ask (keeps_ask (keeps_if (fun hcolon => ?_) fun _ => ?_))
  · have ho := (hkept.begins (Nat.le_of_lt hs)).opens_of_isAt hcolon
    exact (gathers_sliceTail hn ho.kind ho.gathered_advance).imp fun _ _ _ g => ⟨g, trivial⟩
  · refine (hn _ s hs).bind fun e s₁ _ hq => keeps_ask (keeps_if (fun hcolon => ?_) fun _ => ?_)
    · have hk := s₁.kind_ne_end_of_isAt hcolon
      refine (gathers_sliceTail hn hk fun hkept => ?_).imp fun _ _ _ g => ⟨g, trivial⟩
      exact hq.1.upto (hkept.upto_advance hk)
    · exact keeps_pure ⟨hq.1.role Node.Formed.axis, trivial⟩

theorem extends_subscriptTail {value : Expr} (ho : s.Opens P n m start) :
    Extends P n m start value (subscriptTail nested value) (subscriptTail nested' value) s := by
  refine ho.step fun g => keeps_ask ((starts_sliceItem hn _ g.few_left).bind fun first s₁ hu₁ hq => ?_)
  have hmore : Places P n (moreItems squareClose (sliceItem nested))
      (moreItems squareClose (sliceItem nested')) (List.flatMap fun e => [(.axis, .expr e)]) _ :=
    places_moreItems (starts_sliceItem hn).places
  refine keeps_ask ((hmore s₁ hq.1.few_left).bind fun more s₂ hu₂ hm => keeps_ask ?_)
  -- several indices are a tuple, which is a node of its own
  have hindex (isTuple : Bool) : s₂.Gathered P n s.advance.rest.length s.advance.span
      [(.index, .expr (if isTuple = true then
        .tuple (s₂.spanFrom s.advance.span) (first :: more) else first))] := by
    cases isTuple with
    | false => exact (hq.1.upto hu₂).role Node.Formed.index
    | true =>
        refine (hq.1.add hu₂ hm.1).closedBare rfl ⟨trivial, nofun, trivial, fun _ => trivial⟩ ?_ rfl rfl
        simp [Node.partsAt, ← List.map_eq_flatMap]
  refine (g.add (hu₁.trans hu₂) ((hindex (s₁.isAt comma)).held_from g.kept)).expect fun _ s₃ g => ?_
  exact g.closeBehind fun _ => ⟨rfl, List.Subset.refl _, trivial, rfl, trivial⟩

/-! ## Expressions -/

omit hn in
theorem kind_of_boolean {first second : TokenKind} {op : BoolOp}
    (h : Operator.of? first second = some (.boolean op)) : first = boolWord op := by
  unfold Operator.of? at h
  split at h <;> simp_all [boolWord]
  · cases h; rfl
  · cases h; rfl
  · split at h <;> simp_all

omit hn in
theorem compare_of_comparison {first second : TokenKind}
    (h : Operator.of? first second = some .comparison) :
    ∃ found, CompareOp.of? first second = some found := by
  unfold Operator.of? at h
  split at h
  case h_8 =>
    split at h
    · cases h
    · exact (Option.map_eq_some_iff.mp h).imp fun _ hf => hf.1
  case h_9 => exact (Option.map_eq_some_iff.mp h).imp fun _ hf => hf.1
  all_goals cases h

omit hn in
theorem kind_ne_end_of_operator {first second : TokenKind} {op : Operator}
    (h : Operator.of? first second = some op) : first ≠ .endOfFile := by
  rintro rfl
  cases h

/-- The operator that was recognised decides what is sure to stand behind it. -/
theorem extends_operatorTail {op : Operator} {left : Expr} (hb : s.Begins P n m start)
    (hs : s.rest.length < n) (hspan : P.placed → left.span.Between P.place)
    (h : Operator.of? s.kind s.secondKind = some op) :
    Extends P n m start left (operatorTail nested op left) (operatorTail nested' op left) s := by
  have ho : s.Opens P n m start := ⟨hb, kind_ne_end_of_operator h⟩
  cases op with
  | boolean b => exact extends_boolTail hn b _ hb hs (kind_of_boolean h)
  | comparison =>
      obtain ⟨found, hfound⟩ := compare_of_comparison h
      exact extends_compareTail hn _ hb hs hfound
  | binary b level => exact extends_binaryTail hn b _ ho
  | conditional => exact extends_conditionalTail hn _ ho
  | named => exact extends_namedTail hn _ ho hspan
  | call => exact extends_callTail hn ho
  | subscript => exact extends_subscriptTail hn ho
  | member => exact extends_memberTail ho

/-- A round behind `left` reads an operator and what belongs to it, and stretches `left`. -/
theorem keeps_operatorStep (b : Nat) {left : Expr} (hs : s.rest.length < n)
    (hspan : P.placed → left.span.Between P.place) :
    Keeps P (operatorStep nested b left) (operatorStep nested' b left) s fun r s' => ∀ e, r = some e →
      s'.rest.length < s.rest.length ∧ ∀ k, s.Gathered P n k left.span (one .expr left) →
        s'.Gathered P n k left.span (one .expr e) := by
  refine .of_kept fun hkept => keeps_ask ?_
  split
  · next op h =>
    have hop := (Option.filter_eq_some_iff.mp h).1
    have hb := hkept.begins (Nat.le_of_lt hs)
    have htail := (extends_operatorTail hn hb hs hspan hop).imp
      (R := fun e s' => s'.rest.length < s.rest.length ∧ ∀ k,
        s.Gathered P n k left.span (one .expr left) → s'.Gathered P n k left.span (one .expr e))
      fun e s₁ hu ⟨xs, g, hmade⟩ => ⟨g.few, fun k gl => hmade k (gl.add hu (g.held_from hkept))⟩
    exact htail.bind fun e s₁ _ hq => keeps_pure fun _ ha => Option.some.inj ha ▸ hq
  · exact keeps_pure fun _ ha => absurd ha nofun

/-- One level of nesting costs a token: that of the operand. -/
theorem starts_expressionLayer (b : Nat) :
    Starts P (n + 1) (expressionLayer nested b) (expressionLayer nested' b) (one .expr) fun _ => True := by
  refine fun s hs => .of_kept fun hkept => ?_
  refine (gathers_operand hn hkept (Nat.le_of_lt_succ hs)).bind fun first s₁ _ g => ?_
  refine keeps_repeatWhile (I := fun left s' => s'.Gathered P n s.rest.length s.span (one .expr left))
    (fun left s₂ g => ?_) g
  have hspan (hp : P.placed) := g.held.between List.mem_cons_self hp
  refine (keeps_operatorStep hn b g.few_left hspan).imp fun r s₃ hu hq => ?_
  cases r with
  | none => exact ⟨(g.upto hu).widen, trivial⟩
  | some e =>
      obtain ⟨hlt, hstretch⟩ := hq e rfl
      exact ⟨g.since (hstretch _ g.own), hlt⟩

end Nested

/-- `expressionFuel` with a parser of one's own in the place where the fuel ends. -/
def expressionUpTo (limit : Nested) : Nat → Nested
  | 0 => limit
  | fuel + 1 => expressionLayer (expressionUpTo limit fuel)

theorem expressionUpTo_add (limit : Nested) (fuel more : Nat) :
    expressionUpTo limit (more + fuel) = expressionUpTo (expressionUpTo limit more) fuel := by
  induction fuel with
  | zero => rfl
  | succ fuel ih => exact congrArg expressionLayer ih

theorem expressionFuel_eq (fuel : Nat) : expressionFuel fuel = expressionUpTo (fun _ => stuck) fuel := by
  induction fuel with
  | zero => rfl
  | succ fuel ih => exact congrArg expressionLayer ih

/-- Whatever stands where the fuel ends is never asked, if there is more fuel than tokens are left. -/
theorem starts_expressionUpTo (limit limit' : Nested) (fuel : Nat) :
    Reads P fuel (expressionUpTo limit fuel) (expressionUpTo limit' fuel) := by
  induction fuel with
  | zero => exact fun b s hs => absurd hs (Nat.not_lt_zero _)
  | succ fuel ih => exact starts_expressionLayer ih

theorem starts_expressionFuel (fuel : Nat) : Reads P fuel (expressionFuel fuel) (expressionFuel fuel) := by
  rw [expressionFuel_eq]
  exact starts_expressionUpTo _ _ fuel

theorem expressionUpTo_eq (limit : Nested) {fuel : Nat} {s : ParserState} (hs : s.rest.length < fuel)
    (b : Nat) : expressionUpTo limit fuel b s = expression b s := by
  obtain ⟨more, rfl⟩ := Nat.exists_eq_add_of_le' hs
  unfold expression
  rw [expressionFuel_eq, expressionUpTo_add]
  exact (starts_expressionUpTo _ _ _ b s (Nat.lt_succ_self _) s.kept_nothing).1

theorem reads_expressionUpTo (limit : Nested) (n : Nat) :
    Reads P n expression (expressionUpTo limit n) := fun b s hs =>
  (starts_expressionUpTo limit limit n b s hs).of_eq (expressionUpTo_eq limit hs b).symm rfl

/-- An expression is a layer over expressions, without any fuel. -/
theorem expression_eq (b : Nat) : expression b = expressionLayer expression b := by
  funext s
  rw [← expressionUpTo_eq (fun _ => stuck) (Nat.lt_succ_self s.rest.length)]
  have hreads := reads_expressionUpTo (P := .nothing) (fun _ => stuck) s.rest.length
  exact (starts_expressionLayer hreads b s (Nat.lt_succ_self _) s.kept_nothing).1.symm

/-- An expression is read from the next token on, or one error says why not. -/
theorem reads_expression (n : Nat) : Reads P n expression expression := fun b s hs =>
  (reads_expressionUpTo (fun _ => stuck) n b s hs).of_eq rfl (expressionUpTo_eq _ hs b).symm

/-- An expression that is read is the answer, since nothing was reported on the way. -/
theorem parseExpression_of_run {tokens : List Token} {e : Expr} {s : ParserState}
    (h : expression Precedence.lowest.binding { rest := tokens } = (some e, s)) :
    parseExpression tokens = .ok e := by
  have hread := reads_expression (P := .nothing) (tokens.length + 1) Precedence.lowest.binding
    { rest := tokens } (Nat.lt_succ_self _)
  have herrors : s.errors = [] := (hread.value (ParserState.kept_nothing _) h).2.1
  simp only [parseExpression, run, h, ParserState.firstError?, herrors, List.head?_nil]

end MysToCpp.Parser
