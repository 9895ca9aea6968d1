/-
# Operators are read back

What stands behind the left end of a printed expression is read as it was printed, one lemma for each
way of going on.

An expression that starts with an operand of its own, such as `a + b`, is not read from its parts: the
parser reads the operand at its left end and climbs from there.  `Climbed` says that it comes to the
expression on the way.  Everything else in an expression is read by `nested`, of which `ReadsBack` says
that it reads back what is printed where fewer tokens are left.
-/
import MysToCpp.Proofs.Parser.Expressions
import MysToCpp.Proofs.Parser.Printer
import MysToCpp.Proofs.Tree.Bare

namespace MysToCpp.Parser

open Keyword Punct

/-- `nested` reads back every printed expression, wherever fewer than `n` tokens are left. -/
def ReadsBack (nested : Nested) (n : Nat) : Prop :=
  ∀ ⦃e : Expr⦄, Plain e → ∀ ⦃need : Nat⦄, need ≤ 32 → need ∉ [27, 28] →
    ∀ ⦃s : ParserState⦄ ⦃tail : List TokenKind⦄, s.kinds = e.printAt need ++ tail →
      s.kinds.length < n → Stops need tail →
      Gives (nested need) s tail fun e' => e'.bare = e.bare

/-- Reading an expression at `s` starts with an operand, and operators of the level `binding` lead from
there to `e`. -/
def Climbed (nested : Nested) (binding : Nat) (s : ParserState) (tail : List TokenKind)
    (e : Expr) : Prop :=
  ∃ first s₁ e' s', operand nested s = (some first, s₁) ∧
    Climbs (operatorStep nested binding) first s₁ e' s' ∧ s'.kinds = tail ∧ e'.bare = e.bare

def Argument.print : Argument → List TokenKind
  | positional e => e.print
  | keyword k => k.print

/-- An argument that is printed: a plain expression, with a name if it is a keyword argument. -/
def Argument.IsPlain : Argument → Prop
  | positional e => Plain e
  | keyword k => k.name.isSome ∧ Plain k.value

/-- The arguments of a call, the positional ones first. -/
def Argument.all (args : List Expr) (keywords : List KeywordArg) : List Argument :=
  args.map positional ++ keywords.map keyword

def Argument.bare : Argument → Argument
  | positional e => positional e.bare
  | keyword k => keyword k.bare

/-- The operator at the front of some tokens. -/
def operatorAt (tokens : List TokenKind) : Option Operator :=
  Operator.of? (tokens.headD .endOfFile) (tokens.tail.headD .endOfFile)

section Nested

variable {nested : Nested} {n binding : Nat} {s : ParserState} {mid tail : List TokenKind}
  {left e : Expr} {op : Operator}

theorem Climbed.of_operand (h : Gives (operand nested) s tail fun e' => e'.bare = e.bare) :
    Climbed nested binding s tail e := by
  obtain ⟨e', s', hrun, htail, he⟩ := h
  exact ⟨e', s', e', s', hrun, .refl e' s', htail, he⟩

/-- An operator goes on with what was read so far. -/
theorem Climbed.operator (h : Climbed nested binding s mid left) (hop : operatorAt mid = some op)
    (hb : binding ≤ op.level.binding) (hless : tail.length < mid.length)
    (htail : ∀ left' (s₁ : ParserState), s₁.kinds = mid → left'.bare = left.bare →
      Gives (operatorTail nested op left') s₁ tail fun e' => e'.bare = e.bare) :
    Climbed nested binding s tail e := by
  obtain ⟨first, s₁, left', s₂, hrun, hclimbs, hmid, hleft⟩ := h
  obtain ⟨e', s₃, hrun₃, hs₃, he⟩ := htail left' s₂ hmid hleft
  refine ⟨first, s₁, e', s₃, hrun, hclimbs.round ?_ ?_, hs₃, he⟩
  · have hnext : nextOperator binding s₂ = (some (some op), s₂) := by
      have hat : Operator.of? s₂.kind s₂.secondKind = some op := by
        rw [s₂.kind_eq, s₂.secondKind_eq, hmid]
        exact hop
      show (some ((Operator.of? s₂.kind s₂.secondKind).filter _), s₂) = _
      rw [hat, Option.filter_some, if_pos (decide_eq_true hb)]
    rw [operatorStep, bind_some hnext]
    exact bind_some hrun₃
  · rw [← s₂.kinds_length, ← s₃.kinds_length, hmid, hs₃]
    exact hless

/-- Where no operator goes on, climbing is over. -/
theorem Climbed.gives (h : Climbed nested binding s tail e) (hstop : Stops binding tail) :
    Gives (expressionLayer nested binding) s tail fun e' => e'.bare = e.bare := by
  obtain ⟨first, s₁, e', s', hrun, hclimbs, htail, he⟩ := h
  have hnext : nextOperator binding s' = (some none, s') := by
    show (some ((Operator.of? s'.kind s'.secondKind).filter _), s') = _
    rw [s'.kind_eq, s'.secondKind_eq, htail]
    cases hop : Operator.of? (tail.headD .endOfFile) (tail.tail.headD .endOfFile) with
    | none => rfl
    | some op =>
        have hlt := hstop.2 op hop
        rw [Option.filter_some, if_neg (by simpa using hlt)]
  have hend : operatorStep nested binding e' s' = (some none, s') := by
    rw [operatorStep, bind_some hnext]
    rfl
  refine ⟨e', s', ?_, htail, he⟩
  rw [expressionLayer, bind_some hrun]
  exact hclimbs.run hend

/-! ## Operators -/

theorem operatorAt_binary (op : BinaryOp) :
    ∃ level, (∀ rest, operatorAt (.punct op.mark :: rest) = some (.binary op level)) ∧
      level.binding = op.level ∧ (Operator.binary op level).rightBinding = op.rightNeed := by
  cases op <;> exact ⟨_, fun _ => rfl, rfl, rfl⟩

theorem operatorAt_compare (op : CompareOp) (rest : List TokenKind) :
    operatorAt (op.tokens ++ rest) = some .comparison := by
  cases op with
  | is =>
      show Option.map _ (if _ then some (CompareOp.isNot, true) else some (.is, false)) = _
      split <;> rfl
  | _ => rfl

theorem operator_of_compareOp {first second : TokenKind} {found : CompareOp × Bool}
    (h : CompareOp.of? first second = some found) :
    Operator.of? first second = some .comparison := by
  have hop : Operator.of? first second = (CompareOp.of? first second).map fun _ => .comparison := by
    unfold CompareOp.of? at h
    split at h
    case h_10 => cases h
    all_goals rfl
  rw [hop, h]
  rfl

theorem compareOp_of_stops (h : Stops 12 tail) :
    CompareOp.of? (tail.headD .endOfFile) (tail.tail.headD .endOfFile) = none := by
  cases hc : CompareOp.of? (tail.headD .endOfFile) (tail.tail.headD .endOfFile) with
  | none => rfl
  | some found => exact absurd (h.2 _ (operator_of_compareOp hc)) (by decide)

theorem length_lt_of_kinds {s₁ : ParserState} {k : TokenKind} {rest : List TokenKind}
    (hs : s.kinds = k :: rest) (h₁ : s₁.kinds = rest) (hlt : s.kinds.length ≤ n) :
    s₁.kinds.length < n := by
  rw [hs, List.length_cons] at hlt
  rw [h₁]
  exact hlt

theorem length_lt_of_append {s₁ : ParserState} {k : TokenKind} {read rest : List TokenKind}
    (hs : s.kinds = read ++ k :: rest) (h₁ : s₁.kinds = rest) (hlt : s.kinds.length ≤ n) :
    s₁.kinds.length < n := by
  rw [hs, List.length_append, List.length_cons] at hlt
  rw [h₁]
  omega

variable (hn : ReadsBack nested n)

include hn

theorem gives_binaryTail {op : BinaryOp} {right : Expr} {mark : TokenKind} (hr : Plain right)
    (hs : s.kinds = mark :: (right.printAt op.rightNeed ++ tail)) (hlt : s.kinds.length ≤ n)
    (hstop : Stops op.rightNeed tail) :
    Gives (binaryTail nested op op.rightNeed left) s tail fun e' =>
      e'.bare = .binary .nowhere left.bare op right.bare := by
  refine gives_advance hs fun s₁ h₁ => ?_
  have hbound := length_lt_of_kinds hs h₁ hlt
  refine (hn hr (by cases op <;> decide) (by cases op <;> decide) h₁ hbound hstop).bind
    fun r s₂ h₂ hr => gives_pure h₂ ?_
  rw [Expr.bare, hr]

omit hn in
theorem stops_boolWord (op : BoolOp) (rest : List TokenKind) :
    Stops (op.level + 1) (.keyword (boolWord op) :: rest) := by
  refine ⟨by rintro k ⟨⟩; rfl, fun found hop => ?_⟩
  cases op <;> cases hop <;> decide

omit hn in
theorem kind_ne_of_stops {op : BoolOp} (hs : s.kinds = tail) (h : Stops op.level tail) :
    s.kind ≠ .keyword (boolWord op) := by
  intro hk
  rw [s.kind_eq, hs] at hk
  have hop : Operator.of? (tail.headD .endOfFile) (tail.tail.headD .endOfFile) =
      some (.boolean op) := by
    rw [hk]
    cases op <;> rfl
  have hlt := h.2 _ hop
  cases op <;> exact absurd hlt (by decide)

theorem gives_boolTail {op : BoolOp} {values : List Expr} (hv : ∀ v ∈ values, Plain v)
    (hs : s.kinds = (values.flatMap fun v => .keyword (boolWord op) ::
      v.printAt (op.level + 1)) ++ tail)
    (hlt : s.kinds.length ≤ n) (hstop : Stops op.level tail) :
    Gives (boolTail nested op (op.level + 1) left) s tail fun e' =>
      e'.bare = .boolOp .nowhere op (left.bare :: values.map Expr.bare) := by
  have hneed : op.level + 1 ≤ 32 ∧ op.level + 1 ∉ [27, 28] := by cases op <;> decide
  have hmany : Gives (many (after (boolWord op) (nested (op.level + 1)))) s tail fun more =>
      more.map Expr.bare = values.map Expr.bare := by
    refine gives_many (n := n + 1) (fun v => .keyword (boolWord op) :: v.printAt (op.level + 1))
      (Stops (op.level + 1)) Expr.bare Expr.bare (fun s₁ h₁ => ?_) (hstop.mono (Nat.le_succ _))
      (fun v _ => ⟨nofun, fun rest => stops_boolWord op _⟩) (fun v hmem s₁ rest h₁ hlt₁ hrest => ?_)
      s hs (by rw [← s.kinds_length]; omega)
    · exact gives_no_skip (kind_ne_of_stops h₁ hstop) (gives_pure h₁ rfl)
    · refine gives_skip h₁ fun s₂ h₂ => ?_
      have hbound := length_lt_of_kinds (n := n) h₁ h₂ (by rw [s₁.kinds_length]; omega)
      exact (hn (hv v hmem) hneed.1 hneed.2 h₂ hbound hrest).bind fun v' s₃ h₃ hv' =>
        gives_pure h₃ ⟨v', rfl, hv'⟩
  refine hmany.bind fun more s₁ h₁ hmore => gives_ask (gives_pure h₁ ?_)
  rw [Expr.bare, Expr.bareAll_eq_map, List.map_cons, hmore]

omit hn in
theorem stops_compare (op : CompareOp) (rest : List TokenKind) : Stops 13 (op.tokens ++ rest) := by
  refine ⟨fun k hk => ?_, fun found hop => ?_⟩
  · cases op <;> cases hk <;> rfl
  · have hat := operatorAt_compare op rest
    rw [operatorAt, hop] at hat
    cases hat
    decide

omit hn in
/-- The tokens of a comparison are recognised; what follows does not start with `not`, so that `is` is
not taken for `is not`. -/
theorem compareOp_of_tokens (op : CompareOp) {k : TokenKind} {more : List TokenKind}
    (hk : k ≠ .keyword notKw) :
    CompareOp.of? ((op.tokens ++ k :: more).headD .endOfFile)
      ((op.tokens ++ k :: more).tail.headD .endOfFile) =
        some (op, decide (op.tokens.length = 2)) := by
  cases op with
  | is =>
      have hnot : k.isKeyword notKw = false := decide_eq_false hk
      show (if k.isKeyword notKw = true then some (CompareOp.isNot, true) else some (.is, false)) = _
      rw [hnot]
      rfl
  | _ => rfl

theorem gives_comparison {op : CompareOp} {e : Expr} (he : Plain e)
    (hs : s.kinds = op.tokens ++ (e.printAt 13 ++ tail)) (hlt : s.kinds.length ≤ n)
    (hstop : Stops 13 tail) :
    Gives (comparison nested 13) s tail fun r =>
      ∃ found, r = some found ∧ (found.1, found.2.bare) = (op, e.bare) := by
  have hat : CompareOp.of? s.kind s.secondKind = some (op, decide (op.tokens.length = 2)) := by
    obtain ⟨k, more, hlead, -, hnot⟩ := (he.leadsAt 13).head tail
    rw [s.kind_eq, s.secondKind_eq, hs, hlead]
    exact compareOp_of_tokens op fun hk => absurd (hnot hk) (by decide)
  have hright (s₁ : ParserState) (h₁ : s₁.kinds = e.printAt 13 ++ tail) :
      Gives (do let e ← nested 13; pure (some (op, e))) s₁ tail fun r =>
        ∃ found, r = some found ∧ (found.1, found.2.bare) = (op, e.bare) := by
    have hbound : s₁.kinds.length < n := by
      have hpos : 0 < op.tokens.length := by cases op <;> decide
      rw [hs, List.length_append] at hlt
      rw [h₁]
      omega
    refine (hn he (by decide) (by decide) h₁ hbound hstop).bind fun e' s₂ h₂ he' => ?_
    exact gives_pure h₂ ⟨(op, e'), rfl, by rw [he']⟩
  refine gives_ask (gives_ask ?_)
  rw [hat]
  cases op with
  | isNot | notIn => exact gives_advance hs fun s₁ h₁ => gives_advance h₁ hright
  | _ => exact gives_advance hs hright

omit hn in
theorem map_of_map_zip {α β γ δ : Type} {f : α → γ} {g : β → δ} {pairs : List (α × β)}
    {as : List α} {bs : List β} (hlen : as.length = bs.length)
    (h : pairs.map (fun p => (f p.1, g p.2)) = (as.zip bs).map fun p => (f p.1, g p.2)) :
    pairs.map (fun p => f p.1) = as.map f ∧ pairs.map (fun p => g p.2) = bs.map g := by
  have hfst := congrArg (List.map Prod.fst) h
  have hsnd := congrArg (List.map Prod.snd) h
  rw [List.map_map, List.map_map] at hfst hsnd
  constructor
  · calc pairs.map (fun p => f p.1) = (as.zip bs).map (fun p => f p.1) := hfst
      _ = ((as.zip bs).map Prod.fst).map f := by rw [List.map_map]; rfl
      _ = as.map f := by rw [List.map_fst_zip (Nat.le_of_eq hlen)]
  · calc pairs.map (fun p => g p.2) = (as.zip bs).map (fun p => g p.2) := hsnd
      _ = ((as.zip bs).map Prod.snd).map g := by rw [List.map_map]; rfl
      _ = bs.map g := by rw [List.map_snd_zip (Nat.le_of_eq hlen.symm)]

theorem gives_compareTail {ops : List CompareOp} {es : List Expr} (hlen : ops.length = es.length)
    (he : ∀ e ∈ es, Plain e)
    (hs : s.kinds = (List.zipWith (fun op e => op.tokens ++ e.printAt 13) ops es).flatten ++ tail)
    (hlt : s.kinds.length ≤ n) (hstop : Stops 12 tail) :
    Gives (compareTail nested 13 left) s tail fun e' =>
      e'.bare = .compare .nowhere left.bare ops (es.map Expr.bare) := by
  have hmany : Gives (many (comparison nested 13)) s tail fun more =>
      more.map (fun found => (id found.1, found.2.bare)) =
        (ops.zip es).map fun found => (id found.1, found.2.bare) := by
    refine gives_many (n := n + 1) (fun found => found.1.tokens ++ found.2.printAt 13)
      (Stops 13) _ _ (fun s₁ h₁ => ?_) (hstop.mono (Nat.le_succ _))
      (fun found _ => ⟨?_, fun rest => ?_⟩) (fun found hmem s₁ rest h₁ hlt₁ hrest => ?_)
      s ?_ (by rw [← s.kinds_length]; omega)
    · refine gives_ask (gives_ask ?_)
      rw [s₁.kind_eq, s₁.secondKind_eq, h₁, compareOp_of_stops hstop]
      exact gives_pure h₁ rfl
    · cases found.1 <;> simp [CompareOp.tokens]
    · rw [List.append_assoc]
      exact stops_compare _ _
    · rw [List.append_assoc] at h₁
      exact gives_comparison hn (he _ (List.of_mem_zip hmem).2) h₁ (by rw [s₁.kinds_length]; omega)
        hrest
    · rw [hs, List.flatMap, List.map_zip_eq_zipWith]
      rfl
  refine hmany.bind fun more s₁ h₁ hmore => gives_ask (gives_pure h₁ ?_)
  obtain ⟨hops, hes⟩ := map_of_map_zip hlen hmore
  have hops' : more.map (fun found => found.1) = ops := hops.trans (List.map_id ops)
  rw [Expr.bare, Expr.bareAll_eq_map, List.map_map, hops']
  exact congrArg (Expr.compare .nowhere left.bare ops) hes

omit hn in
theorem stops_of_none {k : TokenKind} {rest : List TokenKind} (b : Nat)
    (hk : k.isString = false) (hop : ∀ second, Operator.of? k second = none) : Stops b (k :: rest) := by
  refine ⟨fun k' hk' => ?_, fun op h => ?_⟩
  · cases hk'
    exact hk
  · exact absurd (h.symm.trans (hop _)) nofun

theorem gives_conditionalTail {test orelse : Expr} (ht : Plain test) (ho : Plain orelse)
    (hs : s.kinds = .keyword ifKw :: (test.printAt 6 ++ .keyword elseKw ::
      (orelse.printAt 4 ++ tail)))
    (hlt : s.kinds.length ≤ n) (hstop : Stops 4 tail) :
    Gives (conditionalTail nested 4 left) s tail fun e' =>
      e'.bare = .conditional .nowhere test.bare left.bare orelse.bare := by
  refine gives_advance hs fun s₁ h₁ => ?_
  have hbound := length_lt_of_kinds hs h₁ hlt
  refine (hn ht (by decide) (by decide) h₁ hbound (stops_of_none 6 rfl fun _ => rfl)).bind
    fun test' s₂ h₂ ht' => ?_
  refine gives_expect h₂ fun _ s₃ h₃ => ?_
  have hbound₃ := length_lt_of_append h₁ h₃ (Nat.le_of_lt hbound)
  refine (hn ho (by decide) (by decide) h₃ hbound₃ hstop).bind fun orelse' s₄ h₄ ho' => ?_
  refine gives_ask (gives_pure h₄ ?_)
  rw [Expr.bare, ht', ho']

theorem gives_namedTail {value : Expr} {id : String} (hv : Plain value)
    (hleft : left.bare = .name .nowhere id)
    (hs : s.kinds = .punct walrus :: (value.printAt 2 ++ tail)) (hlt : s.kinds.length ≤ n)
    (hstop : Stops 2 tail) :
    Gives (namedTail nested 2 left) s tail fun e' =>
      e'.bare = .named .nowhere (.name .nowhere id) value.bare := by
  unfold namedTail
  rw [Expr.name?_of_bare hleft, if_neg (by simp)]
  refine gives_advance hs fun s₁ h₁ => ?_
  have hbound := length_lt_of_kinds hs h₁ hlt
  refine (hn hv (by decide) (by decide) h₁ hbound hstop).bind fun value' s₂ h₂ hv' => ?_
  refine gives_pure h₂ ?_
  rw [Expr.bare, hleft, hv']

omit hn in
theorem gives_memberTail {attr : Ident} (hs : s.kinds = .punct dot :: .name attr.name :: tail) :
    Gives (memberTail left) s tail fun e' => e'.bare = .member .nowhere left.bare attr.bare := by
  refine gives_advance hs fun s₁ h₁ => gives_identifier h₁ fun span s₂ h₂ => ?_
  exact gives_ask (gives_pure h₂ rfl)

/-! ## Lists -/

omit hn in
theorem gives_moreItems {ι α γ : Type} {item : Parser α} {closing : TokenKind} {xs : List ι}
    {stop : List TokenKind} (text : ι → List TokenKind) (view : α → γ) (goal : ι → γ)
    [closing.Fixed] (hstop : ∀ rest, Stops 0 (closing :: rest))
    (hcomma : closing ≠ .punct comma)
    (hend : stop = closing :: tail ∨ stop = .punct comma :: closing :: tail)
    (hitem : ∀ x ∈ xs, ∀ (s : ParserState) rest, s.kinds = text x ++ rest → s.kinds.length < n →
      Stops 0 rest → s.kind ≠ closing ∧ Gives item s rest fun a => view a = goal x)
    (hs : s.kinds = (xs.flatMap fun x => .punct comma :: text x) ++ stop)
    (hlt : s.kinds.length ≤ n) :
    Gives (moreItems closing item) s (closing :: tail) fun found =>
      found.map view = xs.map goal := by
  refine gives_many (n := n + 1) (fun x => .punct comma :: text x) (Stops 0) view goal
    (fun s₁ h₁ => ?_) ?_ (fun x _ => ⟨nofun, fun rest => stops_of_none 0 rfl fun _ => rfl⟩)
    (fun x hmem s₁ rest h₁ hlt₁ hrest => ?_) s hs (by rw [← s.kinds_length]; omega)
  · rcases hend with rfl | rfl
    · have hk : s₁.kind ≠ .punct comma := by
        rw [ParserState.kind_of_kinds h₁]
        exact hcomma
      exact gives_no_skip hk (gives_pure h₁ rfl)
    · refine gives_skip h₁ fun s₂ h₂ => gives_isAt (ParserState.kind_of_kinds h₂) ?_
      exact gives_pure h₂ rfl
  · rcases hend with rfl | rfl
    · exact hstop tail
    · exact stops_of_none 0 rfl fun _ => rfl
  · refine gives_skip h₁ fun s₂ h₂ => ?_
    have hbound := length_lt_of_kinds (n := n) h₁ h₂ (by rw [s₁.kinds_length]; omega)
    obtain ⟨hk, hgives⟩ := hitem x hmem s₂ rest h₂ hbound hrest
    exact gives_not_isAt hk (hgives.bind fun a s₃ h₃ ha => gives_pure h₃ ⟨a, rfl, ha⟩)

omit hn in
theorem gives_items {ι α γ : Type} {item : Parser α} {closing : TokenKind} {xs : List ι}
    (text : ι → List TokenKind) (view : α → γ) (goal : ι → γ)
    [closing.Fixed] (hcomma : closing ≠ .punct comma)
    (hitem : ∀ x ∈ xs, text x ≠ [] ∧ ∀ (s : ParserState) next rest,
      s.kinds = text x ++ next :: rest → s.kinds.length < n → next = .punct comma ∨ next = closing →
        s.kind ≠ closing ∧ Gives item s (next :: rest) fun a => view a = goal x)
    (hs : s.kinds = joined (.punct comma) (xs.map text) ++ closing :: tail)
    (hlt : s.kinds.length < n) :
    Gives (items closing item) s (closing :: tail) fun found => found.map view = xs.map goal := by
  suffices h : ∃ found s', Unfolds (itemStep closing item) true s found s' ∧
      s'.kinds = closing :: tail ∧ found.map view = xs.map goal by
    obtain ⟨found, s', hu, htail, hview⟩ := h
    exact ⟨found, s', hu.run, htail, hview⟩
  induction xs generalizing s with
  | nil =>
      have hstep : Gives (itemStep closing item true) s (closing :: tail) (· = none) := by
        refine gives_ask ?_
        rw [isAt_of_kinds hs]
        exact gives_pure hs rfl
      obtain ⟨r, s', hrun, htail, rfl⟩ := hstep
      exact ⟨[], s', .stop hrun, htail, rfl⟩
  | cons x xs ih =>
      obtain ⟨hne, hread⟩ := hitem x List.mem_cons_self
      rw [List.map_cons, joined, List.append_assoc] at hs
      -- whether another item follows decides whether the loop goes on
      have hround {goesOn : Bool} {k : TokenKind} {rest next : List TokenKind}
          (hrest : (xs.map text).flatMap (.punct comma :: ·) ++ closing :: tail = k :: rest)
          (hk : k = .punct comma ∨ k = closing)
          (hskip : ∀ s₁ : ParserState, s₁.kinds = k :: rest →
            Gives (skip comma) s₁ next (· = goesOn)) :
          Gives (itemStep closing item true) s next fun r =>
            ∃ a, r = some (a, goesOn) ∧ view a = goal x := by
        obtain ⟨hk, hgives⟩ := hread s k rest (hrest ▸ hs) hlt hk
        refine gives_ask ?_
        rw [not_isAt_of_kind hk]
        refine hgives.bind fun a s₁ h₁ ha => (hskip s₁ h₁).bind fun b s₂ h₂ hb => ?_
        exact gives_pure h₂ ⟨a, by rw [hb], ha⟩
      have hpos := List.length_pos_iff.mpr hne
      have hlen := congrArg List.length hs
      cases xs with
      | nil =>
          have hstep : Gives (itemStep closing item true) s (closing :: tail) fun r =>
              ∃ a, r = some (a, false) ∧ view a = goal x := by
            refine hround rfl (.inr rfl) fun s₁ h₁ => ⟨false, s₁, ?_, h₁, rfl⟩
            have hk : s₁.kind ≠ .punct comma := by
              rw [ParserState.kind_of_kinds h₁]
              exact hcomma
            simp [skip, not_isAt_of_kind hk]
          obtain ⟨r, s₁, hrun, h₁, a, rfl, ha⟩ := hstep
          have hless : s₁.rest.length < s.rest.length := by
            rw [← s₁.kinds_length, ← s.kinds_length, h₁, hlen]
            simpa using hpos
          exact ⟨[a], s₁, .round hrun hless (.stop rfl), h₁, by rw [List.map_cons, ha]; rfl⟩
      | cons y ys =>
          have hstep : Gives (itemStep closing item true) s
              (joined (.punct comma) ((y :: ys).map text) ++ closing :: tail) fun r =>
              ∃ a, r = some (a, true) ∧ view a = goal x := by
            refine hround rfl (.inl rfl) fun s₁ h₁ => ?_
            refine ⟨true, s₁.advance, by simp [skip, isAt_of_kinds h₁], ?_, rfl⟩
            exact kinds_advance_of_kinds h₁
          obtain ⟨r, s₁, hrun, h₁, a, rfl, ha⟩ := hstep
          have hless : s₁.kinds.length < s.kinds.length := by
            rw [h₁, hlen]
            simp [joined]
            omega
          obtain ⟨found, s', hu, htail, hview⟩ :=
            ih (fun x hx => hitem x (.tail _ hx)) h₁ (by omega)
          rw [s₁.kinds_length, s.kinds_length] at hless
          exact ⟨a :: found, s', .round hrun hless hu, htail, by rw [List.map_cons, ha, hview]; rfl⟩

theorem gives_anyExpr (he : Plain e) (hs : s.kinds = e.print ++ tail) (hlt : s.kinds.length < n)
    (hstop : Stops 0 tail) : Gives (anyExpr nested) s tail fun e' => e'.bare = e.bare :=
  hn he (by decide) (by decide) hs hlt hstop

omit hn in
theorem kind_ne_of_leads {k : TokenKind} {need : Nat} {tokens : List TokenKind}
    (h : Leads need tokens) (hs : s.kinds = tokens ++ tail) (hk : k.startsExpression = false) :
    s.kind ≠ k := by
  obtain ⟨k', more, hmore, hstart, -⟩ := h.head tail
  rw [hmore] at hs
  rw [ParserState.kind_of_kinds hs]
  rintro rfl
  rw [hk] at hstart
  cases hstart

omit hn in
theorem kind_ne_of_plain {k : TokenKind} (he : Plain e) (hs : s.kinds = e.print ++ tail)
    (hk : k.startsExpression = false) : s.kind ≠ k :=
  kind_ne_of_leads he.leads hs hk

/-! ## Subscripts and calls -/

theorem gives_sliceItem (he : Plain e) (hs : s.kinds = e.print ++ .punct squareClose :: tail)
    (hlt : s.kinds.length < n) :
    Gives (sliceItem nested) s (.punct squareClose :: tail) fun e' => e'.bare = e.bare := by
  refine gives_ask (gives_not_isAt (kind_ne_of_plain he hs rfl) ?_)
  refine (gives_anyExpr hn he hs hlt (stops_of_none 0 rfl fun _ => rfl)).bind fun e' s₁ h₁ he' => ?_
  refine gives_not_isAt ?_ (gives_pure h₁ he')
  rw [ParserState.kind_of_kinds h₁]
  decide

theorem gives_subscriptTail {index : Expr} (hi : Plain index)
    (hs : s.kinds = .punct squareOpen :: (index.print ++ .punct squareClose :: tail))
    (hlt : s.kinds.length ≤ n) :
    Gives (subscriptTail nested left) s tail fun e' =>
      e'.bare = .subscript .nowhere left.bare index.bare := by
  refine gives_advance hs fun s₁ h₁ => gives_ask ?_
  have hbound := length_lt_of_kinds hs h₁ hlt
  refine (gives_sliceItem hn hi h₁ hbound).bind fun first s₂ h₂ hfirst => gives_ask ?_
  have hk : s₂.isAt comma = false :=
    not_isAt_of_kind (by rw [ParserState.kind_of_kinds h₂]; decide)
  rw [hk]
  have hmore : Gives (moreItems squareClose (sliceItem nested)) s₂ (.punct squareClose :: tail)
      fun found => found.map Expr.bare = ([] : List Expr).map Expr.bare :=
    gives_moreItems (n := n) (fun e => e.print) Expr.bare Expr.bare
      (fun _ => stops_of_none 0 rfl fun _ => rfl) (by decide) (.inl rfl)
      (fun _ h => absurd h List.not_mem_nil) h₂
      (by rw [h₂]; rw [h₁, List.length_append] at hbound; omega)
  refine hmore.bind fun more s₃ h₃ _ => gives_ask ?_
  refine gives_expect h₃ fun _ s₄ h₄ => gives_ask (gives_pure h₄ ?_)
  rw [if_neg Bool.false_ne_true, Expr.bare, hfirst]

omit hn in
theorem gives_not_atComprehension {α : Type} {p q : Parser α} {Q : α → Prop} {mark : Punct}
    (hk : s.kind = .punct mark) (h : Gives q s tail Q) :
    Gives (atComprehension >>= fun b => if b = true then p else q) s tail Q := by
  refine gives_ask ?_
  have hfor : s.isAt forKw = false := not_isAt_of_kind (by rw [hk]; nofun)
  have hasync : s.isAt asyncKw = false := not_isAt_of_kind (by rw [hk]; nofun)
  rw [hfor, hasync, Bool.false_and, Bool.or_false, if_neg Bool.false_ne_true]
  exact h

omit hn in
/-- A positional argument does not start with a name and `=`. -/
theorem not_atKeywordArg {need : Nat} {tokens rest : List TokenKind} {next : TokenKind}
    (h : Leads need tokens) (hs : s.kinds = tokens ++ next :: rest) (hnext : next ≠ .punct assign) :
    (s.kind.isName && s.secondKind.isPunct assign) = false := by
  have hleads : Leads 0 (tokens ++ next :: rest) := h.append (fun _ => Nat.zero_le 10) hnext
  obtain ⟨k, more, hlead, -, hmore, -⟩ := hleads
  rw [hlead] at hs
  have hsecond : s.secondKind ≠ .punct assign := by
    rw [s.secondKind_eq, hs]
    cases more with
    | nil => exact nofun
    | cons m ms => exact fun h => hmore (congrArg some h)
  have hno : s.secondKind.isPunct assign = false := decide_eq_false hsecond
  rw [hno, Bool.and_false]

omit hn in
/-- An argument without a name is read as the expression that it is. -/
theorem gives_positional {need : Nat} {tokens rest : List TokenKind} {next : TokenKind} {bare : Expr}
    (h : Leads need tokens) (hs : s.kinds = tokens ++ next :: rest)
    (hnext : next = .punct comma ∨ next = .punct parenClose)
    (hread : Gives (anyExpr nested) s (next :: rest) fun e' => e'.bare = bare) :
    Gives (argument nested) s (next :: rest) fun a => a.bare = .positional bare := by
  have hassign : next ≠ .punct assign := by rcases hnext with rfl | rfl <;> decide
  refine gives_ask (gives_no_skip (kind_ne_of_leads h hs rfl) (gives_ask ?_))
  rw [not_atKeywordArg h hs hassign, if_neg Bool.false_ne_true]
  refine Gives.bind (P := fun e' => e'.bare = bare) ?_ fun e' s₁ h₁ he' =>
    gives_pure h₁ (congrArg Argument.positional he')
  refine hread.bind fun e' s₁ h₁ he' => ?_
  rcases hnext with rfl | rfl <;>
    exact gives_not_atComprehension (ParserState.kind_of_kinds h₁) (gives_pure h₁ he')

theorem gives_argument {a : Argument} {next : TokenKind} {rest : List TokenKind}
    (ha : a.IsPlain) (hs : s.kinds = a.print ++ next :: rest) (hlt : s.kinds.length < n)
    (hnext : next = .punct comma ∨ next = .punct parenClose) :
    Gives (argument nested) s (next :: rest) fun a' => a'.bare = a.bare := by
  have hstop : Stops 0 (next :: rest) := by
    rcases hnext with rfl | rfl <;> exact stops_of_none 0 rfl fun _ => rfl
  cases a with
  | positional e => exact gives_positional (Plain.leads ha) hs hnext (gives_anyExpr hn ha hs hlt hstop)
  | keyword k =>
      refine gives_ask ?_
      obtain ⟨name, value, span⟩ := k
      obtain ⟨hname, hvalue⟩ := ha
      obtain ⟨id, rfl⟩ := Option.isSome_iff_exists.mp hname
      change s.kinds = .name id.name :: .punct assign :: (value.print ++ next :: rest) at hs
      have hk := ParserState.kind_of_kinds hs
      refine gives_no_skip (by rw [hk]; nofun) (gives_ask ?_)
      rw [s.secondKind_eq, hs, hk]
      refine Gives.bind (P := fun k' => k'.bare = KeywordArg.bare ⟨some id, value, span⟩) ?_
        fun k' s₁ h₁ hk' => gives_pure h₁ (congrArg Argument.keyword hk')
      refine gives_identifier hs fun span' s₁ h₁ => gives_advance h₁ fun s₂ h₂ => ?_
      have hbound : s₂.kinds.length < n := by
        rw [hs] at hlt
        rw [h₂]
        simp only [List.length_cons] at hlt
        omega
      refine (gives_anyExpr hn hvalue h₂ hbound hstop).bind fun value' s₃ h₃ hv' => ?_
      refine gives_ask (gives_pure h₃ ?_)
      rw [KeywordArg.bare, KeywordArg.bare, hv']
      rfl

omit hn in
theorem positionals_bare (found : List Argument) :
    (found.map Argument.bare).filterMap (·.positional?) =
      (found.filterMap (·.positional?)).map Expr.bare := by
  rw [List.filterMap_map, List.map_filterMap]
  congr 1
  funext a
  cases a <;> rfl

omit hn in
theorem keywords_bare (found : List Argument) :
    (found.map Argument.bare).filterMap (·.keyword?) =
      (found.filterMap (·.keyword?)).map KeywordArg.bare := by
  rw [List.filterMap_map, List.map_filterMap]
  congr 1
  funext a
  cases a <;> rfl

omit hn in
theorem positionals_all (args : List Expr) (keywords : List KeywordArg) :
    (Argument.all args keywords).filterMap (·.positional?) = args := by
  rw [Argument.all, List.filterMap_append, List.filterMap_map, List.filterMap_map]
  show args.filterMap some ++ keywords.filterMap (fun _ => none) = args
  simp

omit hn in
theorem keywords_all (args : List Expr) (keywords : List KeywordArg) :
    (Argument.all args keywords).filterMap (·.keyword?) = keywords := by
  rw [Argument.all, List.filterMap_append, List.filterMap_map, List.filterMap_map]
  show args.filterMap (fun _ => none) ++ keywords.filterMap some = keywords
  simp

omit hn in
theorem print_arguments (args : List Expr) (keywords : List KeywordArg) :
    Expr.printAll 0 args ++ KeywordArg.printAll keywords =
      (Argument.all args keywords).map Argument.print := by
  rw [Expr.printAll_eq_map, KeywordArg.printAll_eq_map, Argument.all, List.map_append, List.map_map,
    List.map_map]
  rfl

omit hn in
theorem Argument.isPlain_all {args : List Expr} {keywords : List KeywordArg}
    (ha : ∀ a ∈ args, Plain a) (hname : ∀ k ∈ keywords, k.name.isSome)
    (hk : ∀ k ∈ keywords, Plain k.value) : ∀ a ∈ Argument.all args keywords, a.IsPlain := by
  intro a hmem
  rcases List.mem_append.mp hmem with h | h
  · obtain ⟨e, he, rfl⟩ := List.mem_map.mp h
    exact ha e he
  · obtain ⟨k, hkmem, rfl⟩ := List.mem_map.mp h
    exact ⟨hname k hkmem, hk k hkmem⟩

omit hn in
theorem Argument.IsPlain.head {a : Argument} (ha : a.IsPlain) (tail : List TokenKind) :
    ∃ k more, a.print ++ tail = k :: more ∧ k.startsExpression = true := by
  cases a with
  | positional e =>
      obtain ⟨k, more, hmore, hk, -⟩ := Leads.head (Plain.leads ha) tail
      exact ⟨k, more, hmore, hk⟩
  | keyword k =>
      obtain ⟨name, value, span⟩ := k
      exact ⟨_, _, rfl, rfl⟩

omit hn in
theorem gives_call {ι : Type} {xs : List ι} (text : ι → List TokenKind) (goal : ι → Argument)
    (hargs : ∀ x ∈ xs, (∃ k more, text x = k :: more ∧ k.startsExpression = true) ∧
      ∀ (s : ParserState) next rest, s.kinds = text x ++ next :: rest → s.kinds.length < n →
        next = .punct comma ∨ next = .punct parenClose →
        Gives (argument nested) s (next :: rest) fun a => a.bare = goal x)
    (hs : s.kinds = .punct parenOpen :: (joined (.punct comma) (xs.map text) ++
      .punct parenClose :: tail))
    (hlt : s.kinds.length ≤ n) :
    Gives (callTail nested left) s tail fun e' =>
      e'.bare = .call .nowhere left.bare ((xs.map goal).filterMap (·.positional?))
        ((xs.map goal).filterMap (·.keyword?)) := by
  refine gives_advance hs fun s₁ h₁ => ?_
  have hitems : Gives (items parenClose (argument nested)) s₁ (.punct parenClose :: tail) fun found =>
      found.map Argument.bare = xs.map goal := by
    refine gives_items text Argument.bare goal (by decide)
      (fun x hmem => ⟨?_, fun s₂ next rest h₂ hlt₂ hnext => ⟨?_, ?_⟩⟩) h₁
      (length_lt_of_kinds hs h₁ hlt)
    · obtain ⟨k, more, hmore, -⟩ := (hargs x hmem).1
      rw [hmore]
      exact List.cons_ne_nil k more
    · obtain ⟨k, more, hmore, hstart⟩ := (hargs x hmem).1
      rw [hmore] at h₂
      rw [ParserState.kind_of_kinds h₂]
      rintro rfl
      cases hstart
    · exact (hargs x hmem).2 s₂ next rest h₂ hlt₂ hnext
  refine hitems.bind fun found s₂ h₂ hfound => gives_expect h₂ fun _ s₃ h₃ => ?_
  refine gives_ask (gives_pure h₃ ?_)
  rw [Expr.bare, Expr.bareAll_eq_map, KeywordArg.bareAll_eq_map, ← hfound, positionals_bare,
    keywords_bare]

theorem gives_callTail {args : List Expr} {keywords : List KeywordArg} (ha : ∀ a ∈ args, Plain a)
    (hname : ∀ k ∈ keywords, k.name.isSome) (hk : ∀ k ∈ keywords, Plain k.value)
    (hs : s.kinds = .punct parenOpen :: (joined (.punct comma)
      (Expr.printAll 0 args ++ KeywordArg.printAll keywords) ++ .punct parenClose :: tail))
    (hlt : s.kinds.length ≤ n) :
    Gives (callTail nested left) s tail fun e' =>
      e'.bare = .call .nowhere left.bare (args.map Expr.bare) (keywords.map KeywordArg.bare) := by
  rw [print_arguments] at hs
  have hplain := Argument.isPlain_all ha hname hk
  refine (gives_call Argument.print Argument.bare (fun a hmem => ⟨?_, ?_⟩) hs hlt).imp fun e' he' => ?_
  · obtain ⟨k, more, hmore, hstart⟩ := (hplain a hmem).head []
    rw [List.append_nil] at hmore
    exact ⟨k, more, hmore, hstart⟩
  · exact fun s₁ next rest h₁ hlt₁ hnext => gives_argument hn (hplain a hmem) h₁ hlt₁ hnext
  · rw [he', positionals_bare, positionals_all, keywords_bare, keywords_all]

end Nested

end MysToCpp.Parser
