/-
# Parentheses are transparent

Where an expression is all that stands before the end of the file, it is read from the same tokens between
parentheses.  The grammar is gone through once, one lemma for each parser: over parsers `nested` and
`nested'` of the expressions inside that carry values over, it carries its own.  No loop and no lookahead
tells the closing parenthesis from the end of the file but those that look for this parenthesis, and they
are `Blocked` there: an argument or an item would have to follow.

`nested'` is not `nested`: where more tokens are left there is more fuel.
-/
import MysToCpp.Proofs.Parser.RoundTrip
import MysToCpp.Proofs.Parser.SideBySide

namespace MysToCpp.Parser

open Keyword Punct

variable {tail : List TokenKind} {α γ : Type} {nested nested' : Nested}

/-! ## Where nothing is read -/

section Blocked

variable (hb : ∀ b, (nested b).Blocked)

include hb

theorem blocked_argument : (argument nested).Blocked := by
  refine blocked_ask fun start => blocked_skip fun s hs => fails_ask ?_
  rw [hs]
  exact (hb _).bind.bind s hs

theorem blocked_sliceItem : (sliceItem nested).Blocked :=
  blocked_ask fun _ => blocked_isAt (hb _).bind

theorem blocked_entry : (entry nested).Blocked := (hb _).bind

end Blocked

variable {s : ParserState}

theorem fails_operand (h : s.kind.startsExpression = false) : (operand nested).Fails s := by
  refine fails_ask (fails_ask ?_)
  split
  case h_22 => exact fails_failExpected
  all_goals
    next hstarts =>
    rw [hstarts] at h
    cases h

theorem fails_expressionFuel (h : s.kind.startsExpression = false) (fuel binding : Nat) :
    (expressionFuel fuel binding).Fails s := by
  cases fuel with
  | zero => exact fails_stuck
  | succ fuel => exact (fails_operand h).bind

theorem blocked_expressionFuel (fuel binding : Nat) : (expressionFuel fuel binding).Blocked :=
  fun _ hs => fails_expressionFuel (by rw [hs]; rfl) fuel binding

/-! ## Lists and items -/

theorem carries_finish {view : α → γ} {start start' : Span} {build build' : Span → α}
    (h : ∀ x y, view (build x) = view (build' y)) :
    Carries tail view (do let span ← spanFrom start; pure (build span))
      (do let span ← spanFrom start'; pure (build' span)) :=
  carries_ask fun x y => carries_pure (h x y)

section Items

variable {view : α → γ} {item item' : Parser α} {closing : TokenKind} [closing.Fixed]

theorem carries_moreItems (h : Carries tail view item item') (hblocked : item.Blocked) :
    Carries tail (List.map view) (moreItems closing item) (moreItems closing item') := by
  refine carries_many (carries_skip_if (by decide) (carries_closing (fun closed => ?_) hblocked.bind)
    (carries_pure rfl))
  cases closed
  · exact carries_some h
  · exact carries_pure rfl

theorem carries_items (h : Carries tail view item item') (hblocked : item.Blocked) :
    Carries tail (List.map view) (items closing item) (items closing item') := by
  have hitem : Carries tail (Option.map (Prod.map view id))
      (do let x ← item; let goesOn ← skip comma; pure (some (x, goesOn)))
      (do let x ← item'; let goesOn ← skip comma; pure (some (x, goesOn))) := by
    refine h.bind fun x y hxy => (carries_skip (by decide)).bind_same fun goesOn => carries_pure ?_
    simp [Prod.map, hxy]
  refine carries_unfold (fun goesOn => ?_) true
  cases goesOn with
  | false => exact carries_ask fun _ _ => carries_pure rfl
  | true =>
      refine carries_closing (fun closed => ?_) hblocked.bind
      cases closed
      · exact hitem
      · exact carries_pure rfl

end Items

/-! ## What is looked at -/

section Looks

variable {view : α → γ} {p p' q q' : Parser α} {f f' : Bool → Parser α}

theorem carries_startsExpression (hyes : Carries tail view p p') (hno : Carries tail view q q') :
    Carries tail view (kind >>= fun k => if k.startsExpression = true then p else q)
      (kind >>= fun k => if k.startsExpression = true then p' else q') := by
  intro s s' hs
  have hsame := hs.look (fun k _ => k.startsExpression) (fun _ _ => rfl) fun _ => rfl
  refine .ask ?_
  rw [← hsame]
  cases s.kind.startsExpression
  · exact hno s s' hs
  · exact hyes s s' hs

theorem carries_atComprehension (h : ∀ b, Carries tail view (f b) (f' b)) :
    Carries tail view (atComprehension >>= f) (atComprehension >>= f') :=
  carries_answer (fun _ _ hs => hs.look
    (fun k k₂ => k.same forKw || (k.same asyncKw && k₂.isKeyword forKw)) (fun _ _ => rfl) fun _ => rfl) h

theorem carries_atSliceEnd (h : ∀ b, Carries tail view (f b) (f' b)) :
    Carries tail view (atSliceEnd >>= f) (atSliceEnd >>= f') :=
  carries_answer (fun _ _ hs => hs.look
    (fun k _ => k.isPunct colon || k.isPunct comma || k.isPunct squareClose) (fun _ _ => rfl)
    fun _ => rfl) h

end Looks

theorem carries_checkTarget {target target' : Expr} (h : target.bare = target'.bare) :
    Carries tail (fun _ => ()) (checkTarget target) (checkTarget target') := by
  have hbad : target.badTarget?.map Expr.bare = target'.badTarget?.map Expr.bare := by
    rw [← Expr.badTarget?_bare, ← Expr.badTarget?_bare, h]
  unfold checkTarget
  cases hbad₁ : target.badTarget? with
  | some bad => exact carries_failWith
  | none =>
      have hbad₂ : target'.badTarget? = none := by simpa [hbad₁] using hbad.symm
      rw [hbad₂]
      exact carries_pure rfl

section Nested

variable (hn : ∀ b, Carries tail Expr.bare (nested b) (nested' b))

include hn

theorem carries_expressionList (b : Nat) :
    Carries tail Expr.bare (expressionList nested b) (expressionList nested' b) := by
  refine (hn b).bind fun first first' hfirst => carries_isAt (by decide) fun several => ?_
  cases several with
  | false => exact carries_pure hfirst
  | true =>
      refine (carries_many (carries_skip_if (by decide) ?_ (carries_pure rfl))).bind
        fun more more' (hmore : more.map Expr.bare = more'.map Expr.bare) => carries_finish fun _ _ => ?_
      · exact carries_startsExpression (carries_some (hn b)) (carries_pure rfl)
      · simp only [Expr.bare, Expr.bareAll_eq_map, List.map_cons, hfirst, hmore]

theorem carries_comprehension (isAsync : Bool) :
    Carries tail Comprehension.bare (comprehension nested isAsync) (comprehension nested' isAsync) := by
  refine (carries_expressionList hn _).bind fun target target' htarget => ?_
  refine (carries_checkTarget htarget).bind fun _ _ _ => carries_expect.bind fun _ _ _ => ?_
  refine (hn _).bind fun source source' hsource => ?_
  refine (carries_many (carries_after (by decide) (hn _))).bind fun more more' hmore => carries_pure ?_
  simp only [Comprehension.bare, Expr.bareAll_eq_map, htarget, hsource, hmore]

theorem carries_comprehensions :
    Carries tail (List.map Comprehension.bare) (comprehensions nested) (comprehensions nested') := by
  have hclause (isAsync : Bool) : Carries tail (Option.map Comprehension.bare)
      (after forKw (comprehension nested isAsync)) (after forKw (comprehension nested' isAsync)) :=
    carries_after (by decide) (carries_comprehension hn isAsync)
  refine carries_many fun s s' hs => .ask ?_
  have hsame := hs.look (fun k k₂ => k.same asyncKw && k₂.isKeyword forKw) (fun _ _ => rfl) fun _ => rfl
  cases hasync : s.kind.same asyncKw && s.secondKind.isKeyword forKw with
  | true =>
      have hkind := s.kind_ne_end_of_isAt (Bool.and_eq_true_iff.mp hasync).1
      simp only [ParserState.isAt, ← hsame, hasync, if_true]
      exact carriesBehind_advance (hclause true) s s' hs hkind
  | false =>
      simp only [ParserState.isAt, ← hsame, hasync]
      exact hclause false s s' hs

/-! ## Parameters -/

theorem carries_parameter (annotated : Bool) (kind : ParamKind) (start start' : Span) :
    Carries tail Param.bare (parameter nested annotated kind start)
      (parameter nested' annotated kind start') := by
  have hdefault {name name' : Ident} (hname : name.bare = name'.bare) {hint hint' : Option Expr}
      (hhint : hint.map Expr.bare = hint'.map Expr.bare) : Carries tail Param.bare
        (do
          let default ← after assign (anyExpr nested)
          pure ⟨name, hint, default, kind, ← spanFrom start⟩)
        (do
          let default ← after assign (anyExpr nested')
          pure ⟨name', hint', default, kind, ← spanFrom start'⟩) := by
    refine (carries_after (by decide) (hn _)).bind fun default default' hdefault =>
      carries_finish fun _ _ => ?_
    simp only [Param.bare, Expr.bare?_eq_map, hname, hhint, hdefault]
  refine carries_identifier.bind fun name name' hname => ?_
  cases annotated with
  | false => exact (carries_pure rfl).bind fun _ _ hhint => hdefault hname hhint
  | true => exact (carries_after (by decide) (hn _)).bind fun _ _ hhint => hdefault hname hhint

theorem carries_parameterOrMark {closing : TokenKind} [closing.Fixed] (hother : closing ≠ .punct parenClose)
    (annotated : Bool) (kind : ParamKind) :
    Carries tail (Prod.map (Option.map Param.bare) id) (parameterOrMark nested closing annotated kind)
      (parameterOrMark nested' closing annotated kind) := by
  have hparameter (paramKind next : ParamKind) (start start' : Span) :
      Carries tail (Prod.map (Option.map Param.bare) id)
        (do let p ← parameter nested annotated paramKind start; pure (some p, next))
        (do let p ← parameter nested' annotated paramKind start'; pure (some p, next)) :=
    (carries_parameter hn annotated paramKind start start').bind fun p p' hp =>
      carries_pure (by simp [Prod.map, hp])
  refine carries_ask fun start start' => carries_skip_if (by decide) (carries_pure rfl) ?_
  refine carries_skip_if (by decide) ?_ (carries_skip_if (by decide) ?_ ?_)
  · refine carries_isAt (by decide) fun atComma => carries_isAt hother fun closed => ?_
    dsimp only
    split
    · exact carries_pure rfl
    · exact hparameter _ _ start start'
  · exact hparameter _ _ start start'
  · exact hparameter _ _ start start'

theorem carries_parameters {closing : TokenKind} [closing.Fixed] (hother : closing ≠ .punct parenClose)
    (annotated : Bool) : Carries tail (List.map Param.bare) (parameters nested closing annotated)
      (parameters nested' closing annotated) := by
  refine (carries_unfold (fun now => carries_isAt hother fun closed => ?_) _).bind
    fun found found' (hfound : found.map (Option.map Param.bare) = found'.map (Option.map Param.bare)) =>
      carries_pure ?_
  · split
    · refine (carries_parameterOrMark hn hother annotated now.2).bind fun p p' hp => ?_
      obtain ⟨hparam, hkind⟩ := Prod.mk.inj hp
      obtain ⟨param, kind⟩ := p
      obtain ⟨param', kind'⟩ := p'
      obtain rfl : kind = kind' := hkind
      refine (carries_skip (by decide)).bind_same fun goesOn => carries_pure ?_
      simpa [Prod.map] using hparam
    · exact carries_pure rfl
  · have hfilter (ps : List (Option Param)) :
        (ps.filterMap id).map Param.bare = (ps.map (Option.map Param.bare)).filterMap id := by
      rw [List.map_filterMap, List.filterMap_map]
      rfl
    rw [hfilter, hfilter, hfound]

/-! ## Operands -/

omit hn in
theorem carriesBehind_constant (value : Constant) (start start' : Span) :
    CarriesBehind tail Expr.bare (constant value start) (constant value start') :=
  carriesBehind_advance (carries_pure rfl)

omit hn in
theorem carries_stringToken : Carries tail (Option.map id) stringToken stringToken := by
  have hread (k : TokenKind) : CarriesBehind tail (Option.map id) (do advance; pure (some k))
      (do advance; pure (some k)) := carriesBehind_advance (carries_pure rfl)
  intro s s' hs
  refine .ask ?_
  rcases hs.kind with ⟨hend, hclose⟩ | hsame
  · rw [hend, hclose]
    exact carries_pure rfl s s' hs
  · rw [← hsame]
    split
    case h_4 => exact carries_pure rfl s s' hs
    all_goals
      next h => exact hread s.kind s s' hs (by rw [h]; nofun)

omit hn in
theorem carries_strings (start start' : Span) :
    Carries tail Expr.bare (strings start) (strings start') := by
  refine (carries_many carries_stringToken).bind fun parts parts' hparts => carries_ask fun span span' => ?_
  obtain rfl : parts = parts' := by simpa using hparts
  dsimp only
  split
  · exact carries_failWith
  · split
    · exact carries_pure rfl
    · split
      · exact carries_pure rfl
      · exact carries_pure rfl

theorem carriesBehind_prefixed {b : Nat} {start start' : Span} {build : Expr → Span → Expr}
    (h : ∀ e e' x y, e.bare = e'.bare → (build e x).bare = (build e' y).bare) :
    CarriesBehind tail Expr.bare
      (do
        advance
        let e ← nested b
        let span ← spanFrom start
        pure (build e span))
      (do
        advance
        let e ← nested' b
        let span ← spanFrom start'
        pure (build e span)) :=
  carriesBehind_advance ((hn b).bind fun e e' he => carries_finish fun x y => h e e' x y he)

theorem carriesBehind_unary (op : UnaryOp) (level : Precedence) (start start' : Span) :
    CarriesBehind tail Expr.bare (unary nested op level start) (unary nested' op level start') :=
  carriesBehind_prefixed hn fun _ _ _ _ he => by simp only [Expr.bare, he]

theorem carriesBehind_starred (start start' : Span) :
    CarriesBehind tail Expr.bare (starred nested start) (starred nested' start') :=
  carriesBehind_prefixed hn fun _ _ _ _ he => by simp only [Expr.bare, he]

theorem carriesBehind_await (start start' : Span) :
    CarriesBehind tail Expr.bare (await nested start) (await nested' start') :=
  carriesBehind_prefixed hn fun _ _ _ _ he => by simp only [Expr.bare, he]

theorem carriesBehind_lambda (start start' : Span) :
    CarriesBehind tail Expr.bare (lambda nested start) (lambda nested' start') := by
  refine carriesBehind_advance ((carries_parameters hn (by decide) false).bind
    fun params params' hparams => ?_)
  refine carries_expect.bind fun _ _ _ => (hn _).bind fun body body' hbody => carries_finish fun _ _ => ?_
  simp only [Expr.bare, Param.bareAll_eq_map, hparams, hbody]

theorem carriesBehind_yield (start start' : Span) :
    CarriesBehind tail Expr.bare (yield nested start) (yield nested' start') := by
  refine carriesBehind_advance (carries_skip_if (by decide) ?_ (carries_startsExpression ?_ ?_))
  · exact (hn _).bind fun value value' hvalue => carries_finish fun _ _ => by simp only [Expr.bare, hvalue]
  · exact (carries_expressionList hn _).bind fun value value' hvalue => carries_finish fun _ _ => by
      simp only [Expr.bare, Expr.bare?, hvalue]
  · exact carries_finish fun _ _ => rfl

theorem carries_closeClauses {closing : TokenKind} [closing.Fixed] {view : α → γ} {start start' : Span}
    {build build' : List Comprehension → Span → α}
    (h : ∀ clauses clauses' x y, clauses.map Comprehension.bare = clauses'.map Comprehension.bare →
      view (build clauses x) = view (build' clauses' y)) :
    Carries tail view
      (do
        let clauses ← comprehensions nested
        let _ ← expect closing
        let span ← spanFrom start
        pure (build clauses span))
      (do
        let clauses ← comprehensions nested'
        let _ ← expect closing
        let span ← spanFrom start'
        pure (build' clauses span)) :=
  (carries_comprehensions hn).bind fun _ _ hclauses => carries_expect.bind fun _ _ _ =>
    carries_finish fun _ _ => h _ _ _ _ hclauses

omit hn in
theorem carries_closeItems {β δ : Type} {closing : TokenKind} [closing.Fixed] {item item' : Parser β}
    {look : β → δ} {view : α → γ} {start start' : Span} {build build' : List β → Span → α}
    (hitem : Carries tail look item item') (hblocked : item.Blocked)
    (h : ∀ more more' x y, more.map look = more'.map look → view (build more x) = view (build' more' y)) :
    Carries tail view
      (do
        let more ← moreItems closing item
        let _ ← expect closing
        let span ← spanFrom start
        pure (build more span))
      (do
        let more ← moreItems closing item'
        let _ ← expect closing
        let span ← spanFrom start'
        pure (build' more span)) :=
  (carries_moreItems hitem hblocked).bind fun _ _ hmore => carries_expect.bind fun _ _ _ =>
    carries_finish fun _ _ => h _ _ _ _ hmore

section Brackets

variable (hb : ∀ b, (nested b).Blocked)

include hb

theorem carriesBehind_group (start start' : Span) :
    CarriesBehind tail Expr.bare (group nested start) (group nested' start') := by
  refine carriesBehind_advance (carries_skip_closing (carries_finish fun _ _ => rfl) ?_ (hb _).bind)
  refine (hn _).bind fun first first' hfirst => carries_atComprehension fun clauses => ?_
  split
  · refine carries_closeClauses hn fun clauses clauses' _ _ hclauses => ?_
    simp only [Expr.bare, Comprehension.bareAll_eq_map, hfirst, hclauses]
  · refine carries_isAt (by decide) fun several => ?_
    split
    · refine carries_closeItems (hn _) (hb _) fun more more' _ _ hmore => ?_
      simp only [Expr.bare, Expr.bareAll_eq_map, List.map_cons, hfirst, hmore]
    · exact carries_expect.bind fun _ _ _ => carries_pure hfirst

theorem carriesBehind_listDisplay (start start' : Span) :
    CarriesBehind tail Expr.bare (listDisplay nested start) (listDisplay nested' start') := by
  refine carriesBehind_advance (carries_skip_if (by decide) (carries_finish fun _ _ => rfl) ?_)
  refine (hn _).bind fun first first' hfirst => carries_atComprehension fun clauses => ?_
  split
  · refine carries_closeClauses hn fun clauses clauses' _ _ hclauses => ?_
    simp only [Expr.bare, Comprehension.bareAll_eq_map, hfirst, hclauses]
  · refine carries_closeItems (hn _) (hb _) fun more more' _ _ hmore => ?_
    simp only [Expr.bare, Expr.bareAll_eq_map, List.map_cons, hfirst, hmore]

theorem carries_setDisplay {first first' : Expr} (hfirst : first.bare = first'.bare)
    (start start' : Span) :
    Carries tail Expr.bare (setDisplay nested first start) (setDisplay nested' first' start') := by
  refine carries_atComprehension fun clauses => ?_
  split
  · refine carries_closeClauses hn fun clauses clauses' _ _ hclauses => ?_
    simp only [Expr.bare, Comprehension.bareAll_eq_map, hfirst, hclauses]
  · refine carries_closeItems (hn _) (hb _) fun more more' _ _ hmore => ?_
    simp only [Expr.bare, Expr.bareAll_eq_map, List.map_cons, hfirst, hmore]

omit hb in
theorem carries_entry :
    Carries tail (Prod.map Expr.bare Expr.bare) (entry nested) (entry nested') :=
  (hn _).bind fun key key' hkey => carries_expect.bind fun _ _ _ => (hn _).bind fun value value' hvalue =>
    carries_pure (by simp only [Prod.map, hkey, hvalue])

theorem carries_dictDisplay {key key' : Expr} (hkey : key.bare = key'.bare) (start start' : Span) :
    Carries tail Expr.bare (dictDisplay nested key start) (dictDisplay nested' key' start') := by
  refine (hn _).bind fun value value' hvalue => carries_atComprehension fun clauses => ?_
  split
  · refine carries_closeClauses hn fun clauses clauses' _ _ hclauses => ?_
    simp only [Expr.bare, Comprehension.bareAll_eq_map, hkey, hvalue, hclauses]
  · refine carries_closeItems (carries_entry hn) (blocked_entry hb) fun more more' _ _ hmore => ?_
    have hkeys := congrArg (List.map Prod.fst) hmore
    have hvalues := congrArg (List.map Prod.snd) hmore
    simp only [List.map_map, Function.comp_def, Prod.map] at hkeys hvalues
    simp only [Expr.bare, Expr.bareAll_eq_map, List.map_cons, List.map_map, Function.comp_def, hkey, hvalue,
      hkeys, hvalues]

theorem carriesBehind_braceDisplay (start start' : Span) :
    CarriesBehind tail Expr.bare (braceDisplay nested start) (braceDisplay nested' start') := by
  refine carriesBehind_advance (carries_skip_if (by decide) (carries_finish fun _ _ => rfl) ?_)
  refine carries_isAt (by decide) fun unpacks => ?_
  split
  · exact carries_ask fun _ _ => carries_failWith
  · refine (hn _).bind fun first first' hfirst => carries_skip_if (by decide) ?_ ?_
    · exact carries_dictDisplay hn hb hfirst start start'
    · exact carries_setDisplay hn hb hfirst start start'

theorem carries_operand : Carries tail Expr.bare (operand nested) (operand nested') := by
  have hname (start start' : Span) (id : String) : CarriesBehind tail Expr.bare
      (do advance; pure (.name start id)) (do advance; pure (.name start' id)) :=
    carriesBehind_advance (carries_pure rfl)
  intro s s' hs
  by_cases hk : s.kind = .endOfFile
  · exact .of_fails (fails_operand (by rw [hk]; rfl))
  refine .ask (.ask ?_)
  rw [hs.kind_eq hk]
  split
  case h_1 => exact hname _ _ _ s s' hs hk
  case h_4 | h_5 | h_6 => exact carries_strings _ _ s s' hs
  case h_11 | h_12 | h_13 | h_14 => exact carriesBehind_unary hn _ _ _ _ s s' hs hk
  case h_15 => exact carriesBehind_starred hn _ _ s s' hs hk
  case h_16 => exact carriesBehind_lambda hn _ _ s s' hs hk
  case h_17 => exact carriesBehind_await hn _ _ s s' hs hk
  case h_18 => exact carriesBehind_yield hn _ _ s s' hs hk
  case h_19 => exact carriesBehind_group hn hb _ _ s s' hs hk
  case h_20 => exact carriesBehind_listDisplay hn hb _ _ s s' hs hk
  case h_21 => exact carriesBehind_braceDisplay hn hb _ _ s s' hs hk
  case h_22 => exact carries_failExpected s s' hs
  all_goals exact carriesBehind_constant _ _ _ s s' hs hk

end Brackets

/-! ## Operators behind an operand -/

theorem carriesBehind_binaryTail (op : BinaryOp) (right : Nat) {left left' : Expr}
    (hleft : left.bare = left'.bare) :
    CarriesBehind tail Expr.bare (binaryTail nested op right left) (binaryTail nested' op right left') :=
  carriesBehind_advance ((hn _).bind fun _ _ hright => carries_pure (by
    simp only [Expr.bare, hleft, hright]))

theorem carries_boolTail (op : BoolOp) (right : Nat) {left left' : Expr}
    (hleft : left.bare = left'.bare) :
    Carries tail Expr.bare (boolTail nested op right left) (boolTail nested' op right left') := by
  have hother : (boolWord op : TokenKind) ≠ .punct parenClose := nofun
  refine (carries_many (carries_after hother (hn right))).bind fun more more' hmore =>
    carries_finish fun _ _ => ?_
  simp only [Expr.bare, Expr.bareAll_eq_map, List.map_cons, hleft, hmore]

omit hn in
/-- Neither the end of the file nor the parenthesis is the second word of a comparison. -/
theorem compare_close (first : TokenKind) :
    CompareOp.of? first .endOfFile = CompareOp.of? first (.punct parenClose) := by
  unfold CompareOp.of?
  split <;> rfl

theorem carries_comparison (right : Nat) :
    Carries tail (Option.map (Prod.map id Expr.bare)) (comparison nested right)
      (comparison nested' right) := by
  intro s s' hs
  refine .ask (.ask ?_)
  rw [← hs.look CompareOp.of? (fun _ _ => rfl) compare_close]
  cases hfound : CompareOp.of? s.kind s.secondKind with
  | none => exact carries_pure rfl s s' hs
  | some found =>
      obtain ⟨op, isTwoWords⟩ := found
      have hk : s.kind ≠ .endOfFile := by
        intro hk
        rw [hk] at hfound
        cases hfound
      have hright : Carries tail (Option.map (Prod.map id Expr.bare))
          (do let e ← nested right; pure (some (op, e))) (do let e ← nested' right; pure (some (op, e))) :=
        (hn right).bind fun _ _ he => carries_pure (by simp [Prod.map, he])
      cases isTwoWords with
      | false => exact carriesBehind_advance hright s s' hs hk
      | true =>
          have hk₂ : s.advance.kind ≠ .endOfFile := by
            rw [s.kind_advance hk]
            exact second_ne_end_of_compare hfound
          exact .after rfl rfl (carriesBehind_advance hright _ _ (hs.advance hk) hk₂)

theorem carries_compareTail (right : Nat) {left left' : Expr} (hleft : left.bare = left'.bare) :
    Carries tail Expr.bare (compareTail nested right left) (compareTail nested' right left') := by
  refine (carries_many (carries_comparison hn right)).bind fun more more' hmore =>
    carries_finish fun _ _ => ?_
  have hops := congrArg (List.map Prod.fst) hmore
  have hcomparators := congrArg (List.map Prod.snd) hmore
  simp only [List.map_map, Function.comp_def, Prod.map, id_eq] at hops hcomparators
  simp only [Expr.bare, Expr.bareAll_eq_map, List.map_map, Function.comp_def, hleft, hops, hcomparators]

theorem carriesBehind_conditionalTail (right : Nat) {body body' : Expr} (hbody : body.bare = body'.bare) :
    CarriesBehind tail Expr.bare (conditionalTail nested right body)
      (conditionalTail nested' right body') := by
  refine carriesBehind_advance ((hn _).bind fun test test' htest => carries_expect.bind fun _ _ _ => ?_)
  refine (hn _).bind fun orelse orelse' horelse => carries_finish fun _ _ => ?_
  simp only [Expr.bare, hbody, htest, horelse]

theorem carriesBehind_namedTail (right : Nat) {target target' : Expr}
    (htarget : target.bare = target'.bare) :
    CarriesBehind tail Expr.bare (namedTail nested right target) (namedTail nested' right target') := by
  have hname : target'.name? = target.name? := by
    rw [← Expr.name?_bare target', ← htarget, Expr.name?_bare]
  unfold namedTail
  rw [hname]
  split
  · exact carries_failWith.behind
  · exact carriesBehind_advance ((hn _).bind fun _ _ hvalue => carries_pure (by
      simp only [Expr.bare, htarget, hvalue]))

omit hn in
theorem carriesBehind_memberTail {value value' : Expr} (hvalue : value.bare = value'.bare) :
    CarriesBehind tail Expr.bare (memberTail value) (memberTail value') :=
  carriesBehind_advance (carries_identifier.bind fun _ _ hattr => carries_finish fun _ _ => by
    simp only [Expr.bare, hvalue, hattr])

/-! ## Arguments and indices -/

theorem carries_plainArgument (start start' : Span) :
    Carries tail Expr.bare (plainArgument nested start) (plainArgument nested' start') := by
  refine (hn _).bind fun value value' hvalue => carries_atComprehension fun clauses => ?_
  split
  · refine (carries_comprehensions hn).bind fun clauses clauses' hclauses => carries_finish fun _ _ => ?_
    simp only [Expr.bare, Comprehension.bareAll_eq_map, hvalue, hclauses]
  · exact carries_pure hvalue

theorem agrees_keywordArg {s s' : ParserState} (hs : s.Faces tail s') {text : String}
    (hname : s.kind = .name text) (hassign : s.secondKind.isPunct assign = true) (start start' : Span) :
    Agrees tail KeywordArg.bare (keywordArg nested start) (keywordArg nested' start') s s' := by
  have hk : s.kind ≠ .endOfFile := by rw [hname]; nofun
  have hk₂ : s.advance.kind ≠ .endOfFile := by
    rw [s.kind_advance hk, decide_eq_true_iff.mp hassign]
    nofun
  have hrun : identifier s = (some ⟨text, s.span⟩, s.advance) := by simp [identifier, hname]
  have hrun' : identifier s' = (some ⟨text, s'.span⟩, s'.advance) := by
    simp [identifier, hs.kind_eq hk, hname]
  refine .after hrun hrun' (carriesBehind_advance ?_ _ _ (hs.advance hk) hk₂)
  refine (hn _).bind fun value value' hvalue => carries_finish fun _ _ => ?_
  simp only [KeywordArg.bare, hvalue]
  rfl

theorem carries_argument : Carries tail Argument.bare (argument nested) (argument nested') := by
  refine carries_ask fun start start' => carries_skip_if (by decide) ?_ fun s s' hs => .ask ?_
  · refine (hn _).bind fun value value' hvalue => carries_finish fun _ _ => ?_
    simp only [Argument.bare, KeywordArg.bare, Option.map_none, hvalue]
  · rw [← hs.look (fun k k₂ => k.isName && k₂.isPunct assign) (fun _ _ => rfl) fun _ => rfl]
    cases hat : s.kind.isName && s.secondKind.isPunct assign with
    | true =>
        obtain ⟨hname, hassign⟩ := Bool.and_eq_true_iff.mp hat
        obtain ⟨text, hname⟩ : ∃ text, s.kind = .name text := by
          cases hkind : s.kind <;> simp_all [TokenKind.isName]
        refine (agrees_keywordArg hn hs hname hassign start start').bind fun k k' t t' hk ht => ?_
        exact carries_pure (by simp only [Argument.bare, hk]) t t' ht
    | false =>
        refine (carries_plainArgument hn start start' s s' hs).bind fun value value' t t' hvalue ht => ?_
        exact carries_pure (by simp only [Argument.bare, hvalue]) t t' ht

section Brackets

variable (hb : ∀ b, (nested b).Blocked)

include hb

theorem carriesBehind_callTail {func func' : Expr} (hfunc : func.bare = func'.bare) :
    CarriesBehind tail Expr.bare (callTail nested func) (callTail nested' func') := by
  refine carriesBehind_advance ((carries_items (carries_argument hn) (blocked_argument hb)).bind
    fun found found' hfound => carries_expect.bind fun _ _ _ => carries_finish fun _ _ => ?_)
  simp only [Expr.bare, Expr.bareAll_eq_map, KeywordArg.bareAll_eq_map, hfunc, ← positionals_bare,
    ← keywords_bare, hfound]

omit hb in
theorem carries_slicePart :
    Carries tail (Option.map Expr.bare) (slicePart nested) (slicePart nested') := by
  refine carries_atSliceEnd fun leftOut => ?_
  split
  · exact carries_pure rfl
  · exact carries_some (hn _)

omit hb in
theorem carriesBehind_sliceTail {lower lower' : Option Expr}
    (hlower : lower.map Expr.bare = lower'.map Expr.bare) (start start' : Span) :
    CarriesBehind tail Expr.bare (sliceTail nested lower start) (sliceTail nested' lower' start') := by
  have hslice {upper upper' step step' : Option Expr} (hupper : upper.map Expr.bare = upper'.map Expr.bare)
      (hstep : step.map Expr.bare = step'.map Expr.bare) (x y : Span) :
      (Expr.slice x lower upper step).bare = (Expr.slice y lower' upper' step').bare := by
    simp only [Expr.bare, Expr.bare?_eq_map, hlower, hupper, hstep]
  refine carriesBehind_advance ((carries_slicePart hn).bind fun upper upper' hupper => ?_)
  refine carries_skip_if (by decide) ?_ ?_
  · exact (carries_slicePart hn).bind fun _ _ hstep => carries_finish (hslice hupper hstep)
  · exact (carries_pure rfl).bind fun _ _ hstep => carries_finish (hslice hupper hstep)

omit hb in
theorem carries_sliceItem : Carries tail Expr.bare (sliceItem nested) (sliceItem nested') := by
  refine carries_ask fun start start' => carries_isAt_if (by decide) (carriesBehind_sliceTail hn rfl _ _) ?_
  refine (hn _).bind fun e e' he => carries_isAt_if (by decide) ?_ (carries_pure he)
  have hlower : (some e).map Expr.bare = (some e').map Expr.bare := congrArg some he
  exact carriesBehind_sliceTail hn hlower _ _

theorem carriesBehind_subscriptTail {value value' : Expr} (hvalue : value.bare = value'.bare) :
    CarriesBehind tail Expr.bare (subscriptTail nested value) (subscriptTail nested' value') := by
  refine carriesBehind_advance (carries_ask fun start start' => ?_)
  refine (carries_sliceItem hn).bind fun first first' hfirst => carries_isAt (by decide) fun isTuple => ?_
  refine (carries_moreItems (carries_sliceItem hn) (blocked_sliceItem hb)).bind fun more more' hmore => ?_
  refine carries_ask fun whole whole' => carries_expect.bind fun _ _ _ => carries_finish fun _ _ => ?_
  cases isTuple with
  | false => simp only [Expr.bare, hvalue, hfirst, Bool.false_eq_true, if_false]
  | true => simp only [Expr.bare, Expr.bareAll_eq_map, List.map_cons, hvalue, hfirst, hmore, if_true]

theorem carriesBehind_operatorTail (op : Operator) {left left' : Expr} (hleft : left.bare = left'.bare) :
    CarriesBehind tail Expr.bare (operatorTail nested op left) (operatorTail nested' op left') := by
  cases op with
  | boolean b => exact (carries_boolTail hn b _ hleft).behind
  | comparison => exact (carries_compareTail hn _ hleft).behind
  | binary b level => exact carriesBehind_binaryTail hn b _ hleft
  | conditional => exact carriesBehind_conditionalTail hn _ hleft
  | named => exact carriesBehind_namedTail hn _ hleft
  | call => exact carriesBehind_callTail hn hb hleft
  | subscript => exact carriesBehind_subscriptTail hn hb hleft
  | member => exact carriesBehind_memberTail hleft

/-! ## Expressions -/

omit hn hb in
theorem operator_close (first : TokenKind) :
    Operator.of? first .endOfFile = Operator.of? first (.punct parenClose) := by
  unfold Operator.of?
  split <;> simp only [compare_close]

theorem carries_operatorStep (binding : Nat) {left left' : Expr} (hleft : left.bare = left'.bare) :
    Carries tail (Option.map Expr.bare) (operatorStep nested binding left)
      (operatorStep nested' binding left') := by
  intro s s' hs
  refine .ask ?_
  rw [← hs.look Operator.of? (fun _ _ => rfl) operator_close]
  cases hop : (Operator.of? s.kind s.secondKind).filter (binding ≤ ·.level.binding) with
  | none => exact carries_pure rfl s s' hs
  | some op =>
      have hk := kind_ne_end_of_operator (Option.filter_eq_some_iff.mp hop).1
      refine (carriesBehind_operatorTail hn hb op hleft s s' hs hk).bind fun e e' t t' he ht => ?_
      exact carries_pure (by rw [Option.map_some, Option.map_some, he]) t t' ht

theorem carries_expressionLayer (binding : Nat) :
    Carries tail Expr.bare (expressionLayer nested binding) (expressionLayer nested' binding) :=
  (carries_operand hn hb).bind fun _ _ hfirst =>
    carries_repeatWhile (fun _ _ hleft => carries_operatorStep hn hb binding hleft) hfirst

end Brackets

end Nested

theorem carries_expressionFuel {fuel : Nat} : ∀ {fuel' : Nat}, fuel ≤ fuel' → ∀ binding : Nat,
    Carries tail Expr.bare (expressionFuel fuel binding) (expressionFuel fuel' binding) := by
  induction fuel with
  | zero => exact fun _ _ _ _ _ => .of_fails fails_stuck
  | succ fuel ih =>
      intro fuel' hle binding
      obtain ⟨fuel', rfl⟩ : ∃ k, fuel' = k + 1 := ⟨fuel' - 1, by omega⟩
      exact carries_expressionLayer (ih (Nat.le_of_succ_le_succ hle)) (blocked_expressionFuel fuel) binding

/-- An expression that was read does not start with a closing parenthesis, wherever it stands. -/
theorem kind_ne_close {s s' t : ParserState} {fuel binding : Nat} {e : Expr} (hs : s.Faces tail s')
    (hrun : expressionFuel fuel binding s = (some e, t)) : s'.kind ≠ .punct parenClose := by
  intro hk
  have hstarts : s.kind.startsExpression = false := by
    rcases hs.kind with ⟨hend, -⟩ | hsame
    · rw [hend]
      rfl
    · rw [hsame, hk]
      rfl
  exact (fails_expressionFuel hstarts fuel binding).not_some hrun

/-! ## Whole texts -/

/-- The tokens in front of the end of the file are read as an expression, and all of them are. -/
def SpellsExpr (tokens : List Token) (eof : Token) (e : Expr) : Prop :=
  parseExpression (tokens ++ [eof]) = .ok e ∧
    ∃ s, expression Precedence.lowest.binding { rest := tokens ++ [eof] } = (some e, s) ∧ s.rest = [eof]

/-- Whatever tokens spell an expression, between parentheses they spell the same one, up to spans. -/
theorem spells_parenthesized {tokens : List Token} {opening closing eof eof' : Token} {e : Expr}
    (h : SpellsExpr tokens eof e) (hopen : opening.kind = .punct parenOpen)
    (hclose : closing.kind = .punct parenClose) (heof : eof.kind = .endOfFile)
    (heof' : eof'.kind = .endOfFile) :
    ∃ e', SpellsExpr (opening :: tokens ++ [closing]) eof' e' ∧ e'.bare = e.bare := by
  obtain ⟨-, s, hrun, hall⟩ := h
  have hend : s.kinds = [.endOfFile] := by simp [ParserState.kinds, hall, heof]
  have hfaces {s₁ : ParserState}
      (h₁ : s₁.kinds = tokens.map (·.kind) ++ .punct parenClose :: [.endOfFile]) :
      ParserState.Faces [.endOfFile] { rest := tokens ++ [eof] } s₁ :=
    ⟨tokens.map (·.kind), by simp [ParserState.kinds, heof], h₁⟩
  have hgives : Gives (expression Precedence.lowest.binding)
      { rest := opening :: tokens ++ [closing] ++ [eof'] } [.endOfFile] fun e' => e'.bare = e.bare := by
    have hkinds : ParserState.kinds { rest := opening :: tokens ++ [closing] ++ [eof'] } =
        .punct parenOpen :: (tokens.map (·.kind) ++ .punct parenClose :: [.endOfFile]) := by
      simp [ParserState.kinds, hopen, hclose, heof']
    refine (Climbed.of_operand (gives_group (fun _ h₁ => kind_ne_close (hfaces h₁) hrun) hkinds
      fun s₁ h₁ => ?_)).gives (stops_of_none 0 rfl fun _ => rfl)
    have hle : (tokens ++ [eof]).length + 1 ≤ (opening :: tokens ++ [closing] ++ [eof']).length := by
      simp
    obtain ⟨e', s₂, hrun', hfaces', hbare⟩ :=
      carries_expressionFuel hle Precedence.lowest.binding _ _ (hfaces h₁) e s hrun
    exact ⟨e', s₂, hrun', hfaces'.kinds_of_end hend, hbare.symm⟩
  obtain ⟨e', s', hrun', hkinds', hbare⟩ := hgives
  have hread := reads_expression (P := .nothing) _ Precedence.lowest.binding
    { rest := opening :: tokens ++ [closing] ++ [eof'] } (Nat.lt_succ_self _)
  have hu := (hread.value (ParserState.kept_nothing _) hrun').1
  have hleft : s'.rest = [eof'] :=
    hu.reaches.rest_eq rfl (by rw [← s'.kinds_length, hkinds']; rfl)
  exact ⟨e', ⟨parseExpression_of_run hrun', s', hrun', hleft⟩, hbare⟩

/-- `yield a, b not in c,`, which ends with a comma that nothing follows. -/
theorem spells_parenthesized_sample :
    ∃ tokens e, tokens.map Token.kind = [.keyword yieldKw, .name "a", .punct comma, .name "b",
        .keyword notKw, .keyword inKw, .name "c", .punct comma] ∧
      e.bare = .yield .nowhere (some (.tuple .nowhere [.name .nowhere "a",
        .compare .nowhere (.name .nowhere "b") [.notIn] [.name .nowhere "c"]])) ∧
      SpellsExpr tokens ⟨.endOfFile, .nowhere⟩ e ∧
      ∃ e', SpellsExpr (⟨.punct parenOpen, .nowhere⟩ :: tokens ++ [⟨.punct parenClose, .nowhere⟩])
        ⟨.endOfFile, .nowhere⟩ e' ∧ e'.bare = e.bare := by
  have hspells : SpellsExpr (List.map (⟨·, .nowhere⟩) [.keyword yieldKw, .name "a", .punct comma,
      .name "b", .keyword notKw, .keyword inKw, .name "c", .punct comma]) ⟨.endOfFile, .nowhere⟩ _ :=
    ⟨rfl, _, rfl, rfl⟩
  exact ⟨_, _, rfl, rfl, hspells, spells_parenthesized hspells rfl rfl rfl rfl⟩

end MysToCpp.Parser
