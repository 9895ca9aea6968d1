/-
# Printed expressions are read back

The parser of expressions gives back what `Expr.print` was given, whatever stands behind it, as long as
that does not go on with the expression (`Stops`).  `Plain.climbed` follows the left end of an
expression, where the operators are met in the order in which they were printed; an induction over the
fuel of the parser does the rest.
-/
import MysToCpp.Proofs.Parser.ReadBack

namespace MysToCpp.Parser

open Keyword Punct

section Nested

variable {nested : Nested} {n binding : Nat} {s : ParserState} {tail : List TokenKind} {e : Expr}

/-! ## Operands -/

theorem gives_name {id : String} (hs : s.kinds = .name id :: tail) :
    Gives (operand nested) s tail fun e' => e'.bare = .name .nowhere id := by
  refine gives_ask (gives_ask ?_)
  rw [ParserState.kind_of_kinds hs]
  exact gives_advance hs fun s₁ h₁ => gives_pure h₁ rfl

theorem gives_text {text : String} (hs : s.kinds = .text text :: tail) (hstop : Stops 33 tail) :
    Gives (operand nested) s tail fun e' => e'.bare = .constant .nowhere (.text text) := by
  refine gives_ask (gives_ask ?_)
  rw [ParserState.kind_of_kinds hs]
  have hmany : Gives (many stringToken) s tail fun parts =>
      parts.map id = [TokenKind.text text].map id := by
    refine gives_many (n := s.rest.length + 1) (fun k => [k]) (fun _ => True) id id (fun s₁ h₁ => ?_)
      trivial (fun k _ => ⟨nofun, fun _ => trivial⟩) (fun k hmem s₁ rest h₁ _ _ => ?_) s hs
      (Nat.lt_succ_self _)
    · refine gives_ask ?_
      have hno := hstop.1
      rw [s₁.kind_eq, h₁]
      cases tail with
      | nil => exact gives_pure h₁ rfl
      | cons k ks =>
          have hk := hno k rfl
          cases k with
          | text | bytes | formatted => cases hk
          | _ => exact gives_pure h₁ rfl
    · obtain rfl := List.mem_singleton.mp hmem
      refine gives_ask ?_
      rw [ParserState.kind_of_kinds h₁]
      exact gives_advance h₁ fun s₂ h₂ => gives_pure h₂ ⟨_, rfl, rfl⟩
  refine hmany.bind fun parts s₁ h₁ hparts => gives_ask ?_
  rw [List.map_id, List.map_id] at hparts
  rw [hparts]
  refine gives_pure h₁ ?_
  simp [Expr.bare, literalText, String.join]

theorem gives_constant {value : Constant} {k : TokenKind} (hk : value.token? = some k)
    (hs : s.kinds = k :: tail) (hstop : Stops 33 tail) :
    Gives (operand nested) s tail fun e' => e'.bare = .constant .nowhere value := by
  cases value with
  | text text =>
      cases hk
      exact gives_text hs hstop
  | float x | bytes x => cases hk
  | bool b =>
      refine gives_ask (gives_ask ?_)
      cases b <;> cases hk <;> rw [ParserState.kind_of_kinds hs] <;>
        exact gives_advance hs fun s₁ h₁ => gives_pure h₁ rfl
  | _ =>
      refine gives_ask (gives_ask ?_)
      cases hk
      rw [ParserState.kind_of_kinds hs]
      exact gives_advance hs fun s₁ h₁ => gives_pure h₁ rfl

theorem gives_operator {op : UnaryOp} {tokens : List TokenKind} {bare : Expr}
    (hs : s.kinds = op.token :: tokens)
    (hread : ∀ s₁ : ParserState, s₁.kinds = tokens →
      Gives (nested op.level) s₁ tail fun e' => e'.bare = bare) :
    Gives (operand nested) s tail fun e' => e'.bare = .unary .nowhere op bare := by
  have hunary (level : Precedence) (hlevel : level.binding = op.level) (start : Span) :
      Gives (unary nested op level start) s tail fun e' => e'.bare = .unary .nowhere op bare := by
    refine gives_advance hs fun s₁ h₁ => ?_
    rw [hlevel]
    refine (hread s₁ h₁).bind fun e' s₂ h₂ he' => gives_ask (gives_pure h₂ ?_)
    rw [Expr.bare, he']
  refine gives_ask (gives_ask ?_)
  rw [ParserState.kind_of_kinds hs]
  cases op with
  | not => exact hunary .not rfl s.span
  | _ => exact hunary .unary rfl s.span

/-- Parentheses leave no trace. -/
theorem gives_group {tokens : List TokenKind} {bare : Expr}
    (hfirst : ∀ s₁ : ParserState, s₁.kinds = tokens ++ .punct parenClose :: tail →
      s₁.kind ≠ .punct parenClose)
    (hs : s.kinds = .punct parenOpen :: (tokens ++ .punct parenClose :: tail))
    (hread : ∀ s₁ : ParserState, s₁.kinds = tokens ++ .punct parenClose :: tail →
      Gives (anyExpr nested) s₁ (.punct parenClose :: tail) fun e' => e'.bare = bare) :
    Gives (operand nested) s tail fun e' => e'.bare = bare := by
  refine gives_ask (gives_ask ?_)
  rw [ParserState.kind_of_kinds hs]
  refine gives_advance hs fun s₁ h₁ => gives_no_skip (hfirst s₁ h₁) ?_
  refine (hread s₁ h₁).bind fun e' s₂ h₂ he' =>
    gives_not_atComprehension (ParserState.kind_of_kinds h₂) ?_
  refine gives_not_isAt (by rw [ParserState.kind_of_kinds h₂]; decide) ?_
  exact gives_expect h₂ fun _ s₃ h₃ => gives_pure h₃ he'

variable (hn : ReadsBack nested n)

include hn

theorem gives_unary {op : UnaryOp} (he : Plain e)
    (hs : s.kinds = op.token :: (e.printAt op.level ++ tail)) (hlt : s.kinds.length ≤ n)
    (hstop : Stops op.level tail) :
    Gives (operand nested) s tail fun e' => e'.bare = .unary .nowhere op e.bare :=
  gives_operator hs fun _ h₁ => hn he (by cases op <;> decide) (by cases op <;> decide) h₁
    (length_lt_of_kinds hs h₁ hlt) hstop

theorem gives_lambda (he : Plain e)
    (hs : s.kinds = .keyword lambdaKw :: .punct colon :: (e.printAt 4 ++ tail))
    (hlt : s.kinds.length ≤ n) (hstop : Stops 4 tail) :
    Gives (operand nested) s tail fun e' => e'.bare = .lambda .nowhere [] e.bare := by
  refine gives_ask (gives_ask ?_)
  rw [ParserState.kind_of_kinds hs]
  refine gives_advance hs fun s₁ h₁ => ?_
  have hparams : Gives (parameters nested colon false) s₁ (.punct colon :: (e.printAt 4 ++ tail))
      (· = []) := by
    have hat : isAt colon s₁ = (some true, s₁) :=
      congrArg (fun b => (some b, s₁)) (isAt_of_kinds h₁)
    refine Gives.bind (P := (· = [])) ⟨[], s₁, Unfolds.run (.stop ?_), h₁, rfl⟩
      fun found s₂ h₂ hfound => gives_pure h₂ (by rw [hfound]; rfl)
    exact bind_some hat
  refine hparams.bind fun params s₂ h₂ hparams => gives_expect h₂ fun _ s₃ h₃ => ?_
  have hbound := length_lt_of_kinds h₁ h₃ (Nat.le_of_lt (length_lt_of_kinds hs h₁ hlt))
  refine (hn he (by decide) (by decide) h₃ hbound hstop).bind fun e' s₄ h₄ he' => ?_
  refine gives_ask (gives_pure h₄ ?_)
  rw [hparams, Expr.bare, he']
  rfl

theorem gives_await (he : Plain e) (hs : s.kinds = .keyword awaitKw :: (e.printAt 31 ++ tail))
    (hlt : s.kinds.length ≤ n) (hstop : Stops 31 tail) :
    Gives (operand nested) s tail fun e' => e'.bare = .await .nowhere e.bare := by
  refine gives_ask (gives_ask ?_)
  rw [ParserState.kind_of_kinds hs]
  refine gives_advance hs fun s₁ h₁ => ?_
  refine (hn he (by decide) (by decide) h₁ (length_lt_of_kinds hs h₁ hlt) hstop).bind
    fun e' s₂ h₂ he' => gives_ask (gives_pure h₂ ?_)
  rw [Expr.bare, he']

/-! ## Brackets -/

theorem gives_parens (he : Plain e)
    (hs : s.kinds = .punct parenOpen :: (e.print ++ .punct parenClose :: tail))
    (hlt : s.kinds.length ≤ n) :
    Gives (operand nested) s tail fun e' => e'.bare = e.bare :=
  gives_group (fun _ h₁ => kind_ne_of_leads he.leads h₁ rfl) hs fun _ h₁ =>
    gives_anyExpr hn he h₁ (length_lt_of_kinds hs h₁ hlt) (stops_of_none 0 rfl fun _ => rfl)

omit hn in
/-- Behind an element there is a comma or the closing bracket. -/
theorem exists_follow {closing : Punct} {stop : List TokenKind} (parts : List (List TokenKind))
    (hend : stop = .punct closing :: tail ∨ stop = .punct comma :: .punct closing :: tail) :
    ∃ mark rest, parts.flatMap (.punct comma :: ·) ++ stop = .punct mark :: rest ∧
      (mark = comma ∨ mark = closing) := by
  cases parts with
  | nil =>
      rcases hend with rfl | rfl
      · exact ⟨_, _, rfl, .inr rfl⟩
      · exact ⟨_, _, rfl, .inl rfl⟩
  | cons part parts => exact ⟨_, _, rfl, .inl rfl⟩

omit hn in
theorem closing_ends {closing : Punct} (h : closing ∈ [parenClose, squareClose, braceClose]) :
    (TokenKind.punct closing).startsExpression = false ∧
      (∀ rest, Stops 0 (.punct closing :: rest)) ∧ TokenKind.punct closing ≠ .punct comma := by
  simp only [List.mem_cons, List.not_mem_nil, or_false] at h
  rcases h with rfl | rfl | rfl <;> exact ⟨rfl, fun _ => stops_of_none 0 rfl fun _ => rfl, by decide⟩

theorem gives_closeElements {es : List Expr} {closing : Punct} {stop : List TokenKind} {start : Span}
    {build : List Expr → Span → Expr} {goal : Expr} (hes : ∀ e ∈ es, Plain e)
    (hclosing : closing ∈ [parenClose, squareClose, braceClose])
    (hend : stop = .punct closing :: tail ∨ stop = .punct comma :: .punct closing :: tail)
    (hs : s.kinds = (Expr.printAll 0 es).flatMap (.punct comma :: ·) ++ stop)
    (hlt : s.kinds.length ≤ n)
    (hbuild : ∀ more span, more.map Expr.bare = es.map Expr.bare → (build more span).bare = goal) :
    Gives (do
      let more ← moreItems closing (anyExpr nested)
      let _ ← expect closing
      let span ← spanFrom start
      pure (build more span)) s tail fun e' => e'.bare = goal := by
  obtain ⟨hstarts, hstop, hcomma⟩ := closing_ends hclosing
  rw [Expr.printAll_eq_map, List.flatMap_map] at hs
  have hmore : Gives (moreItems closing (anyExpr nested)) s (.punct closing :: tail) fun found =>
      found.map Expr.bare = es.map Expr.bare := by
    refine gives_moreItems Expr.print Expr.bare Expr.bare hstop hcomma hend
      (fun e hmem s₁ rest h₁ hlt₁ hrest => ⟨?_, ?_⟩) hs hlt
    · exact kind_ne_of_plain (hes e hmem) h₁ hstarts
    · exact gives_anyExpr hn (hes e hmem) h₁ hlt₁ hrest
  refine hmore.bind fun more s₁ h₁ hmore => gives_expect h₁ fun _ s₂ h₂ => ?_
  exact gives_ask (gives_pure h₂ (hbuild more _ hmore))

/-- The first element of a display: it is read up to a mark, behind which the others are left. -/
theorem gives_firstElement {first : Expr} {es : List Expr} {closing : Punct}
    {stop : List TokenKind} (he : Plain first)
    (hclosing : closing ∈ [parenClose, squareClose, braceClose])
    (hend : stop = .punct closing :: tail ∨ stop = .punct comma :: .punct closing :: tail)
    (hs : s.kinds = joined (.punct comma) (Expr.printAll 0 (first :: es)) ++ stop)
    (hlt : s.kinds.length < n) {α : Type} {f : Expr → Parser α} {Q : α → Prop}
    (hf : ∀ first' (s₁ : ParserState) (mark : Punct), first'.bare = first.bare →
      s₁.kinds = (Expr.printAll 0 es).flatMap (.punct comma :: ·) ++ stop → s₁.kinds.length ≤ n →
      s₁.kind = .punct mark → mark = comma ∨ mark = closing → Gives (f first') s₁ tail Q) :
    Gives (anyExpr nested >>= f) s tail Q := by
  obtain ⟨mark, rest, hrest, hmark⟩ := exists_follow (Expr.printAll 0 es) hend
  change s.kinds = (first.print ++ _) ++ _ at hs
  rw [List.append_assoc, hrest] at hs
  have hstop : Stops 0 (.punct mark :: rest) := by
    rcases hmark with rfl | rfl
    · exact stops_of_none 0 rfl fun _ => rfl
    · exact (closing_ends hclosing).2.1 rest
  refine (gives_anyExpr hn he hs hlt hstop).bind fun first' s₁ h₁ hfirst => ?_
  have hbound : s₁.kinds.length ≤ n := by
    rw [hs, List.length_append] at hlt
    rw [h₁]
    omega
  exact hf first' s₁ mark hfirst (h₁.trans hrest.symm) hbound (ParserState.kind_of_kinds h₁) hmark

omit hn in
theorem kind_ne_of_elements {first : Expr} {es : List Expr} {stop : List TokenKind} {k : TokenKind}
    (he : Plain first)
    (hs : s.kinds = joined (.punct comma) (Expr.printAll 0 (first :: es)) ++ stop)
    (hk : k.startsExpression = false) : s.kind ≠ k := by
  change s.kinds = (first.print ++ _) ++ _ at hs
  rw [List.append_assoc] at hs
  exact kind_ne_of_plain he hs hk

theorem gives_list {es : List Expr} (hes : ∀ e ∈ es, Plain e)
    (hs : s.kinds = .punct squareOpen :: (joined (.punct comma) (Expr.printAll 0 es) ++
      .punct squareClose :: tail))
    (hlt : s.kinds.length ≤ n) :
    Gives (operand nested) s tail fun e' => e'.bare = .list .nowhere (es.map Expr.bare) := by
  refine gives_ask (gives_ask ?_)
  rw [ParserState.kind_of_kinds hs]
  refine gives_advance hs fun s₁ h₁ => ?_
  cases es with
  | nil => exact gives_skip h₁ fun s₂ h₂ => gives_ask (gives_pure h₂ rfl)
  | cons first es =>
      have hfirst := hes first List.mem_cons_self
      have hmore : ∀ e ∈ es, Plain e := fun e he => hes e (.tail _ he)
      refine gives_no_skip (kind_ne_of_elements hfirst h₁ rfl) ?_
      refine gives_firstElement hn hfirst (by simp) (.inl rfl) h₁ (length_lt_of_kinds hs h₁ hlt) ?_
      intro first' s₂ mark hf h₂ hlt₂ hk _
      refine gives_not_atComprehension hk ?_
      refine gives_closeElements hn hmore (by simp) (.inl rfl) h₂ hlt₂ fun more span hm => ?_
      rw [Expr.bare, Expr.bareAll_eq_map, List.map_cons, List.map_cons, hf, hm]

theorem gives_tuple {es : List Expr} (hes : ∀ e ∈ es, Plain e)
    (hs : s.kinds = .punct parenOpen :: (joined (.punct comma) (Expr.printAll 0 es) ++
      ((if es.length = 1 then [.punct comma, .punct parenClose] else [.punct parenClose]) ++ tail)))
    (hlt : s.kinds.length ≤ n) :
    Gives (operand nested) s tail fun e' => e'.bare = .tuple .nowhere (es.map Expr.bare) := by
  refine gives_ask (gives_ask ?_)
  rw [ParserState.kind_of_kinds hs]
  refine gives_advance hs fun s₁ h₁ => ?_
  cases es with
  | nil => exact gives_skip h₁ fun s₂ h₂ => gives_ask (gives_pure h₂ rfl)
  | cons first es =>
      have hfirst := hes first List.mem_cons_self
      have hmore : ∀ e ∈ es, Plain e := fun e he => hes e (.tail _ he)
      have hend : ((if (first :: es).length = 1 then [.punct comma, .punct parenClose]
          else [.punct parenClose]) ++ tail : List TokenKind) = .punct parenClose :: tail ∨
          ((if (first :: es).length = 1 then [.punct comma, .punct parenClose]
          else [.punct parenClose]) ++ tail : List TokenKind) =
            .punct comma :: .punct parenClose :: tail := by
        split
        · exact .inr rfl
        · exact .inl rfl
      refine gives_no_skip (kind_ne_of_elements hfirst h₁ rfl) ?_
      refine gives_firstElement hn hfirst (by simp) hend h₁ (length_lt_of_kinds hs h₁ hlt) ?_
      intro first' s₂ mark hf h₂ hlt₂ hk _
      refine gives_not_atComprehension hk (gives_isAt ?_ ?_)
      · -- with one element the comma is the one that makes it a tuple
        cases es <;> exact ParserState.kind_of_kinds h₂
      · refine gives_closeElements hn hmore (by simp) hend h₂ hlt₂ fun more span hm => ?_
        rw [Expr.bare, Expr.bareAll_eq_map, List.map_cons, List.map_cons, hf, hm]

theorem gives_set {es : List Expr} (hne : es ≠ []) (hes : ∀ e ∈ es, Plain e)
    (hs : s.kinds = .punct braceOpen :: (joined (.punct comma) (Expr.printAll 0 es) ++
      .punct braceClose :: tail))
    (hlt : s.kinds.length ≤ n) :
    Gives (operand nested) s tail fun e' => e'.bare = .set .nowhere (es.map Expr.bare) := by
  refine gives_ask (gives_ask ?_)
  rw [ParserState.kind_of_kinds hs]
  refine gives_advance hs fun s₁ h₁ => ?_
  cases es with
  | nil => exact absurd rfl hne
  | cons first es =>
      have hfirst := hes first List.mem_cons_self
      have hmore : ∀ e ∈ es, Plain e := fun e he => hes e (.tail _ he)
      refine gives_no_skip (kind_ne_of_elements hfirst h₁ rfl) ?_
      refine gives_not_isAt (kind_ne_of_elements hfirst h₁ rfl) ?_
      refine gives_firstElement hn hfirst (by simp) (.inl rfl) h₁ (length_lt_of_kinds hs h₁ hlt) ?_
      intro first' s₂ mark hf h₂ hlt₂ hk hmark
      refine gives_no_skip ?_ (gives_not_atComprehension hk ?_)
      · rw [hk]
        rcases hmark with rfl | rfl <;> decide
      · refine gives_closeElements hn hmore (by simp) (.inl rfl) h₂ hlt₂ fun more span hm => ?_
        rw [Expr.bare, Expr.bareAll_eq_map, List.map_cons, List.map_cons, hf, hm]

def printEntry (entry : Expr × Expr) : List TokenKind :=
  entry.1.print ++ .punct colon :: entry.2.print

omit hn in
theorem print_entries (keys values : List Expr) :
    List.zipWith (fun k v => k ++ .punct colon :: v) (Expr.printAll 0 keys) (Expr.printAll 0 values) =
      (keys.zip values).map printEntry := by
  rw [Expr.printAll_eq_map, Expr.printAll_eq_map, List.zipWith_map, List.map_zip_eq_zipWith]
  rfl

theorem gives_entry {key value : Expr} (hk : Plain key) (hv : Plain value)
    (hs : s.kinds = printEntry (key, value) ++ tail) (hlt : s.kinds.length < n)
    (hstop : Stops 0 tail) :
    s.kind ≠ .punct braceClose ∧ Gives (entry nested) s tail fun found =>
      (found.1.bare, found.2.bare) = (key.bare, value.bare) := by
  rw [printEntry, List.append_assoc, List.cons_append] at hs
  refine ⟨kind_ne_of_plain hk hs rfl, ?_⟩
  refine (gives_anyExpr hn hk hs hlt (stops_of_none 0 rfl fun _ => rfl)).bind fun key' s₁ h₁ hk' => ?_
  refine gives_expect h₁ fun _ s₂ h₂ => ?_
  have hbound := length_lt_of_append hs h₂ (Nat.le_of_lt hlt)
  refine (gives_anyExpr hn hv h₂ hbound hstop).bind fun value' s₃ h₃ hv' => gives_pure h₃ ?_
  rw [hk', hv']

theorem gives_closeEntries {key value : Expr} {keys values : List Expr} {start : Span}
    (hlen : keys.length = values.length) (hkeys : ∀ k ∈ keys, Plain k)
    (hvalues : ∀ v ∈ values, Plain v)
    (hs : s.kinds = ((keys.zip values).map printEntry).flatMap (.punct comma :: ·) ++
      .punct braceClose :: tail)
    (hlt : s.kinds.length ≤ n) :
    Gives (do
      let more ← moreItems braceClose (entry nested)
      let _ ← expect braceClose
      let span ← spanFrom start
      pure (Expr.dict span (key :: more.map (·.1)) (value :: more.map (·.2)))) s tail fun e' =>
        e'.bare =
          .dict .nowhere (key.bare :: keys.map Expr.bare) (value.bare :: values.map Expr.bare) := by
  rw [List.flatMap_map] at hs
  have hmore : Gives (moreItems braceClose (entry nested)) s (.punct braceClose :: tail) fun found =>
      found.map (fun p => (p.1.bare, p.2.bare)) =
        (keys.zip values).map fun p => (p.1.bare, p.2.bare) := by
    refine gives_moreItems printEntry _ _ (fun _ => stops_of_none 0 rfl fun _ => rfl) (by decide)
      (.inl rfl) (fun found hmem s₁ rest h₁ hlt₁ hrest => ?_) hs hlt
    obtain ⟨hk, hv⟩ := List.of_mem_zip hmem
    exact gives_entry hn (hkeys _ hk) (hvalues _ hv) h₁ hlt₁ hrest
  refine hmore.bind fun more s₁ h₁ hmore => gives_expect h₁ fun _ s₂ h₂ => ?_
  refine gives_ask (gives_pure h₂ ?_)
  obtain ⟨hks, hvs⟩ := map_of_map_zip hlen hmore
  rw [Expr.bare, Expr.bareAll_eq_map, Expr.bareAll_eq_map, List.map_cons, List.map_cons,
    List.map_map, List.map_map, ← hks, ← hvs]
  rfl

theorem gives_dict {keys values : List Expr} (hlen : keys.length = values.length)
    (hkeys : ∀ k ∈ keys, Plain k) (hvalues : ∀ v ∈ values, Plain v)
    (hs : s.kinds = .punct braceOpen :: (joined (.punct comma)
      (List.zipWith (fun k v => k ++ .punct colon :: v) (Expr.printAll 0 keys)
        (Expr.printAll 0 values)) ++ .punct braceClose :: tail))
    (hlt : s.kinds.length ≤ n) :
    Gives (operand nested) s tail fun e' =>
      e'.bare = .dict .nowhere (keys.map Expr.bare) (values.map Expr.bare) := by
  rw [print_entries] at hs
  refine gives_ask (gives_ask ?_)
  rw [ParserState.kind_of_kinds hs]
  refine gives_advance hs fun s₁ h₁ => ?_
  have hbound := length_lt_of_kinds hs h₁ hlt
  match keys, values with
  | [], [] => exact gives_skip h₁ fun s₂ h₂ => gives_ask (gives_pure h₂ rfl)
  | key :: keys, value :: values =>
      have hkey := hkeys key List.mem_cons_self
      have hvalue := hvalues value List.mem_cons_self
      have hfollow : ∃ mark rest, ((keys.zip values).map printEntry).flatMap (.punct comma :: ·) ++
          .punct braceClose :: tail = .punct mark :: rest ∧ (mark = comma ∨ mark = braceClose) :=
        exists_follow _ (.inl rfl)
      obtain ⟨mark, rest, hrest, hmark⟩ := hfollow
      have hstop : Stops 0 (.punct mark :: rest) := by
        rcases hmark with rfl | rfl <;> exact stops_of_none 0 rfl fun _ => rfl
      rw [List.zip_cons_cons, List.map_cons, joined, List.append_assoc, hrest, printEntry,
        List.append_assoc, List.cons_append] at h₁
      refine gives_no_skip (kind_ne_of_plain hkey h₁ rfl) ?_
      refine gives_not_isAt (kind_ne_of_plain hkey h₁ rfl) ?_
      refine (gives_anyExpr hn hkey h₁ hbound (stops_of_none 0 rfl fun _ => rfl)).bind
        fun key' s₂ h₂ hk' => ?_
      refine gives_skip h₂ fun s₃ h₃ => ?_
      have hbound₃ := length_lt_of_append h₁ h₃ (Nat.le_of_lt hbound)
      refine (gives_anyExpr hn hvalue h₃ hbound₃ hstop).bind fun value' s₄ h₄ hv' => ?_
      refine gives_not_atComprehension (ParserState.kind_of_kinds h₄) ?_
      have hbound₄ : s₄.kinds.length ≤ n := by
        rw [h₃, List.length_append] at hbound₃
        rw [h₄]
        omega
      rw [List.map_cons, List.map_cons, ← hk', ← hv']
      exact gives_closeEntries hn (Nat.succ.inj hlen) (fun k hk => hkeys k (.tail _ hk))
        (fun v hv => hvalues v (.tail _ hv)) (h₄.trans hrest.symm) hbound₄

/-! ## Climbing along the left end -/

/-- A printed expression is come to by climbing, unless what stands behind it is drawn in. -/
def ClimbsBack (nested : Nested) (n : Nat) (e : Expr) : Prop :=
  ∀ ⦃binding : Nat⦄ ⦃s : ParserState⦄ ⦃tail : List TokenKind⦄, binding ≤ e.level →
    s.kinds = e.print ++ tail → s.kinds.length ≤ n → Stops e.edge tail →
    Climbed nested binding s tail e

/-- In its place an expression is climbed to, or read as an operand in parentheses. -/
theorem ClimbsBack.at (he : Plain e) (h : ClimbsBack nested n e) {need : Nat}
    (hb : binding ≤ need) (hs : s.kinds = e.printAt need ++ tail) (hlt : s.kinds.length ≤ n)
    (hstop : Stops (e.edgeAt need) tail) : Climbed nested binding s tail e := by
  unfold Expr.printAt wrap at hs
  unfold Expr.edgeAt at hstop
  split at hs
  · rw [List.cons_append, List.append_assoc] at hs
    exact .of_operand (gives_parens hn he hs hlt)
  · next hlevel =>
    rw [if_neg hlevel] at hstop
    exact h (by omega) hs hlt hstop

theorem ClimbsBack.operator {left : Expr} {need : Nat} {k : TokenKind} {more : List TokenKind}
    (op : Operator) (hl : Plain left) (ih : ClimbsBack nested n left)
    (hprint : e.print = left.printAt need ++ k :: more) (hneed : e.level ≤ need)
    (hop : ∀ tail, operatorAt (k :: (more ++ tail)) = some op) (hk : k.isString = false)
    (hlevel : e.level ≤ op.level.binding) (hedge : op.level.binding < left.edgeAt need)
    (htail : ∀ left' (s : ParserState) tail, left'.bare = left.bare →
      s.kinds = k :: (more ++ tail) → s.kinds.length ≤ n → Stops e.edge tail →
      Gives (operatorTail nested op left') s tail fun e' => e'.bare = e.bare) :
    ClimbsBack nested n e := by
  intro binding s tail hb hs hlt hstop
  rw [hprint, List.append_assoc, List.cons_append] at hs
  have hmid : Stops (left.edgeAt need) (k :: (more ++ tail)) := by
    refine ⟨fun k' hk' => ?_, fun op' hop' => ?_⟩
    · cases hk'
      exact hk
    · cases (hop tail).symm.trans hop'
      exact hedge
  refine (ih.at hn hl (Nat.le_trans hb hneed) hs hlt hmid).operator (hop tail)
    (Nat.le_trans hb hlevel) ?_ fun left' s₁ h₁ hleft => htail left' s₁ tail hleft h₁ ?_ hstop
  · rw [List.length_cons, List.length_append]
    omega
  · rw [hs, List.length_append] at hlt
    rw [h₁]
    omega

theorem climbsBack_binary {left right : Expr} (op : BinaryOp) (span : Span) (hl : Plain left)
    (hr : Plain right) (ih : ClimbsBack nested n left) :
    ClimbsBack nested n (.binary span left op right) := by
  obtain ⟨level, hop, hlevel, hright⟩ := operatorAt_binary op
  have hneed : op.level ≤ op.leftNeed := by cases op <;> decide
  refine ih.operator hn (.binary op level) hl rfl hneed (fun tail => hop _) rfl
    (Nat.le_of_eq hlevel.symm) ?_ ?_
  · show level.binding < _
    rw [hlevel]
    cases op with
    | pow => exact Nat.lt_of_succ_lt (lt_edgeAt (t := 29) (by decide) (by decide) (by decide))
    | _ => exact lt_edgeAt (by decide) (by decide) (by decide)
  · intro left' s tail hleft hs hlt hstop
    rw [operatorTail, hright]
    refine (gives_binaryTail hn hr hs hlt hstop).imp fun e' he' => ?_
    rw [he', hleft, Expr.bare]

theorem climbsBack_boolOp {values : List Expr} (op : BoolOp) (span : Span)
    (hlen : 2 ≤ values.length) (hv : ∀ v ∈ values, Plain v)
    (ih : ∀ v ∈ values, ClimbsBack nested n v) : ClimbsBack nested n (.boolOp span op values) := by
  match values with
  | left :: second :: more =>
      have hlevel : op.level = (Operator.boolean op).level.binding := by cases op <;> rfl
      have hmore : ∀ v ∈ second :: more, Plain v := fun v hmem => hv v (.tail _ hmem)
      have hprint : (Expr.boolOp span op (left :: second :: more)).print =
          left.printAt (op.level + 1) ++ .keyword (boolWord op) ::
            (second.printAt (op.level + 1) ++ more.flatMap fun v => .keyword (boolWord op) ::
              v.printAt (op.level + 1)) := by
        rw [Expr.print, Expr.printAll_eq_map, List.map_cons, List.map_cons, joined,
          List.flatMap_cons, List.flatMap_map]
        rfl
      refine (ih left List.mem_cons_self).operator hn (.boolean op) (hv left List.mem_cons_self)
        hprint (Nat.le_succ _) (fun tail => by cases op <;> rfl) rfl (Nat.le_of_eq hlevel) ?_ ?_
      · rw [← hlevel]
        refine Nat.lt_of_succ_lt (lt_edgeAt (Nat.le_refl (op.level + 1)) ?_ ?_) <;>
          cases op <;> decide
      · intro left' s tail hleft hs hlt hstop
        have hs' : s.kinds = ((second :: more).flatMap fun v => .keyword (boolWord op) ::
            v.printAt (op.level + 1)) ++ tail := by
          rw [hs, List.flatMap_cons, List.cons_append, List.cons_append]
        have hright : (Operator.boolean op).rightBinding = op.level + 1 := by cases op <;> rfl
        rw [operatorTail, hright]
        refine (gives_boolTail hn hmore hs' hlt hstop).imp fun e' he' => ?_
        rw [he', hleft, Expr.bare, Expr.bareAll_eq_map]
        rfl

theorem climbsBack_compare {left : Expr} {ops : List CompareOp} {es : List Expr} (span : Span)
    (hne : ops ≠ []) (hlen : ops.length = es.length) (hl : Plain left) (he : ∀ e ∈ es, Plain e)
    (ih : ClimbsBack nested n left) : ClimbsBack nested n (.compare span left ops es) := by
  match ops, es with
  | [], _ => exact absurd rfl hne
  | op :: ops, e :: es =>
      have hfirst : ∃ k rest, op.tokens = k :: rest ∧ k.isString = false := by
        cases op <;> exact ⟨_, _, rfl, rfl⟩
      obtain ⟨k, rest, hk, hstring⟩ := hfirst
      have hprint : (List.zipWith (·.tokens ++ ·) (op :: ops) (Expr.printAll 13 (e :: es))).flatten =
          k :: (rest ++ (e.printAt 13 ++
            (List.zipWith (·.tokens ++ ·) ops (Expr.printAll 13 es)).flatten)) := by
        show op.tokens ++ e.printAt 13 ++ _ = _
        rw [hk, List.append_assoc]
        rfl
      refine ih.operator hn .comparison hl (congrArg (left.printAt 13 ++ ·) hprint) (Nat.le_succ 12)
        (fun tail => ?_) hstring (Nat.le_refl 12) ?_ ?_
      · have hop := operatorAt_compare op (e.printAt 13 ++
            (List.zipWith (·.tokens ++ ·) ops (Expr.printAll 13 es)).flatten ++ tail)
        rw [hk] at hop
        rw [List.append_assoc]
        exact hop
      · exact Nat.lt_of_succ_lt (lt_edgeAt (Nat.le_refl 13) (by decide) (by decide))
      · intro left' s tail hleft hs hlt hstop
        have hs' : s.kinds = (List.zipWith (fun op e => op.tokens ++ e.printAt 13) (op :: ops)
            (e :: es)).flatten ++ tail := by
          rw [hs, ← List.cons_append, ← hprint, Expr.printAll_eq_map, List.zipWith_map_right]
        refine (gives_compareTail hn hlen he hs' hlt hstop).imp fun e' he' => ?_
        rw [he', hleft, Expr.bare, Expr.bareAll_eq_map]

theorem climbsBack_conditional {test body orelse : Expr} (span : Span) (ht : Plain test)
    (hbody : Plain body) (ho : Plain orelse) (ih : ClimbsBack nested n body) :
    ClimbsBack nested n (.conditional span test body orelse) := by
  refine ih.operator hn .conditional hbody rfl (show 4 ≤ 6 by decide) (fun _ => rfl) rfl
    (Nat.le_refl 4) ?_ fun body' s tail hbody' hs hlt hstop => ?_
  · exact Nat.lt_of_succ_lt (lt_edgeAt (show 5 ≤ 6 by decide) (by decide) (by decide))
  · rw [List.append_assoc, List.cons_append] at hs
    refine (gives_conditionalTail hn ht ho hs hlt hstop).imp fun e' he' => ?_
    rw [he', hbody', Expr.bare]

theorem climbsBack_named {value : Expr} (span span' : Span) (id : String) (hv : Plain value) :
    ClimbsBack nested n (.named span (.name span' id) value) := by
  intro binding s tail hb hs hlt hstop
  have hname : Climbed nested binding s (.punct walrus :: (value.printAt 2 ++ tail))
      (.name span' id) := .of_operand (gives_name hs)
  refine hname.operator rfl hb ?_ fun target s₁ h₁ htarget => ?_
  · rw [List.length_cons, List.length_append]
    omega
  · have hlt₁ : s₁.kinds.length ≤ n := by
      rw [hs] at hlt
      rw [h₁]
      exact Nat.le_of_succ_le hlt
    exact gives_namedTail hn hv htarget h₁ hlt₁ hstop

theorem climbsBack_member {value : Expr} (span : Span) (attr : Ident) (hv : Plain value)
    (ih : ClimbsBack nested n value) : ClimbsBack nested n (.member span value attr) := by
  refine ih.operator hn .member hv rfl (Nat.le_refl 32) (fun _ => rfl) rfl (Nat.le_refl 32)
    (lt_edgeAt (Nat.le_refl 32) (by decide) (by decide)) fun value' s tail hv' hs _ _ => ?_
  refine (gives_memberTail hs).imp fun e' he' => ?_
  rw [he', hv', Expr.bare]

theorem climbsBack_subscript {value index : Expr} (span : Span) (hv : Plain value)
    (hi : Plain index) (ih : ClimbsBack nested n value) :
    ClimbsBack nested n (.subscript span value index) := by
  refine ih.operator hn .subscript hv rfl (Nat.le_refl 32) (fun _ => rfl) rfl (Nat.le_refl 32)
    (lt_edgeAt (Nat.le_refl 32) (by decide) (by decide)) fun value' s tail hv' hs hlt _ => ?_
  rw [List.append_assoc] at hs
  refine (gives_subscriptTail hn hi hs hlt).imp fun e' he' => ?_
  rw [he', hv', Expr.bare]

theorem climbsBack_call {func : Expr} {args : List Expr} {keywords : List KeywordArg} (span : Span)
    (hf : Plain func) (ha : ∀ a ∈ args, Plain a) (hname : ∀ k ∈ keywords, k.name.isSome)
    (hk : ∀ k ∈ keywords, Plain k.value) (ih : ClimbsBack nested n func) :
    ClimbsBack nested n (.call span func args keywords) := by
  refine ih.operator hn .call hf rfl (Nat.le_refl 32) (fun _ => rfl) rfl (Nat.le_refl 32)
    (lt_edgeAt (Nat.le_refl 32) (by decide) (by decide)) fun func' s tail hf' hs hlt _ => ?_
  rw [List.append_assoc] at hs
  refine (gives_callTail hn ha hname hk hs hlt).imp fun e' he' => ?_
  rw [he', hf', Expr.bare, Expr.bareAll_eq_map, KeywordArg.bareAll_eq_map]

/-- Every printed expression is come to by climbing. -/
theorem Plain.climbsBack (h : Plain e) : ClimbsBack nested n e := by
  induction h with
  | name span id => exact fun _ _ _ _ hs _ _ => .of_operand (gives_name hs)
  | @constant span value hc =>
      intro binding s tail _ hs _ hstop
      obtain ⟨k, hk⟩ := Option.isSome_iff_exists.mp hc
      rw [Expr.print, hk] at hs
      exact .of_operand (gives_constant hk hs hstop)
  | unary span op he _ =>
      exact fun _ _ _ _ hs hlt hstop => .of_operand (gives_unary hn he hs hlt hstop)
  | binary span op hl hr ih _ => exact climbsBack_binary hn op span hl hr ih
  | boolOp span op hlen hv ih => exact climbsBack_boolOp hn op span hlen hv ih
  | compare span hne hlen hl he ih _ => exact climbsBack_compare hn span hne hlen hl he ih
  | conditional span ht hb ho _ ih _ => exact climbsBack_conditional hn span ht hb ho ih
  | lambda span he _ =>
      exact fun _ _ _ _ hs hlt hstop => .of_operand (gives_lambda hn he hs hlt hstop)
  | named span span' id hv _ => exact climbsBack_named hn span span' id hv
  | await span he _ =>
      exact fun _ _ _ _ hs hlt hstop => .of_operand (gives_await hn he hs hlt hstop)
  | member span attr hv ih => exact climbsBack_member hn span attr hv ih
  | subscript span hv hi ih _ => exact climbsBack_subscript hn span hv hi ih
  | call span hf ha hname hk ih _ _ => exact climbsBack_call hn span hf ha hname hk ih
  | tuple span hes _ =>
      intro binding s tail _ hs hlt _
      rw [Expr.print, List.cons_append, List.append_assoc] at hs
      refine .of_operand ((gives_tuple hn hes hs hlt).imp fun e' he' => ?_)
      rw [he', Expr.bare, Expr.bareAll_eq_map]
  | list span hes _ =>
      intro binding s tail _ hs hlt _
      rw [Expr.print, List.cons_append, List.append_assoc] at hs
      refine .of_operand ((gives_list hn hes hs hlt).imp fun e' he' => ?_)
      rw [he', Expr.bare, Expr.bareAll_eq_map]
  | set span hne hes _ =>
      intro binding s tail _ hs hlt _
      rw [Expr.print, List.cons_append, List.append_assoc] at hs
      refine .of_operand ((gives_set hn hne hes hs hlt).imp fun e' he' => ?_)
      rw [he', Expr.bare, Expr.bareAll_eq_map]
  | dict span hlen hkeys hvalues _ _ =>
      intro binding s tail _ hs hlt _
      rw [Expr.print, List.cons_append, List.append_assoc] at hs
      refine .of_operand ((gives_dict hn hlen hkeys hvalues hs hlt).imp fun e' he' => ?_)
      rw [he', Expr.bare, Expr.bareAll_eq_map, Expr.bareAll_eq_map]

/-- A layer more of the parser reads back what has a token more. -/
theorem readsBack_expressionLayer : ReadsBack (expressionLayer nested) (n + 1) := by
  intro e he need hneed hne s tail hs hlt hstop
  have hedge : Stops (e.edgeAt need) tail := hstop.mono (le_edgeAt hneed hne)
  have hclimbs := Plain.climbsBack hn he
  exact (hclimbs.at hn he (Nat.le_refl need) hs (Nat.le_of_lt_succ hlt) hedge).gives hstop

end Nested

theorem readsBack_expressionFuel (fuel : Nat) : ReadsBack (expressionFuel fuel) fuel := by
  induction fuel with
  | zero => exact fun _ _ _ _ _ _ _ _ hlt => absurd hlt (Nat.not_lt_zero _)
  | succ fuel ih => exact readsBack_expressionLayer ih

/-- An expression printed with no more parentheses than its levels ask for is read back, up to spans,
from tokens that may stand anywhere, and what follows is left, if it does not go on with the
expression. -/
theorem parse_print {e : Expr} (he : Plain e) (tokens rest : List Token)
    (htokens : tokens.map (·.kind) = e.print) (hrest : Stops 0 (rest.map (·.kind))) :
    ∃ e' s, parseExpression (tokens ++ rest) = .ok e' ∧ e'.bare = e.bare ∧
      expression Precedence.lowest.binding { rest := tokens ++ rest } = (some e', s) ∧
      s.rest = rest ∧ s.errors = [] := by
  have hs : ParserState.kinds { rest := tokens ++ rest } =
      e.printAt 0 ++ rest.map (·.kind) := by
    show (tokens ++ rest).map _ = _
    rw [List.map_append, htokens]
    rfl
  have hlt : (ParserState.kinds { rest := tokens ++ rest }).length < (tokens ++ rest).length + 1 := by
    rw [ParserState.kinds_length]
    exact Nat.lt_succ_self _
  obtain ⟨e', s, hrun, hkinds, hbare⟩ :=
    readsBack_expressionFuel _ he (by decide) (by decide) hs hlt hrest
  have hread := reads_expression (P := .nothing) ((tokens ++ rest).length + 1)
    Precedence.lowest.binding { rest := tokens ++ rest } (Nat.lt_succ_self _)
  obtain ⟨hu, herrors, -⟩ := hread.value (ParserState.kept_nothing _) hrun
  -- as many tokens are left as there are behind the expression
  have hleft : s.rest = rest :=
    hu.reaches.rest_eq rfl (by rw [← s.kinds_length, hkinds, List.length_map])
  exact ⟨e', s, parseExpression_of_run hrun, hbare, hrun, hleft, herrors⟩

/-- `- a ** - b if x not in (y := z).w else lambda: (not p) is q`, read back from its tokens. -/
theorem parse_print_sample :
    ∃ e', parseExpression (List.map (⟨·, .nowhere⟩) [.punct minus, .name "a", .punct doubleStar,
        .punct minus, .name "b", .keyword ifKw, .name "x", .keyword notKw, .keyword inKw,
        .punct parenOpen, .name "y", .punct walrus, .name "z", .punct parenClose, .punct dot,
        .name "w", .keyword elseKw, .keyword lambdaKw, .punct colon, .punct parenOpen,
        .keyword notKw, .name "p", .punct parenClose, .keyword isKw, .name "q"] ++
        [⟨.endOfFile, .nowhere⟩]) = .ok e' ∧
      e'.bare = .conditional .nowhere
        (.compare .nowhere (.name .nowhere "x") [.notIn] [.member .nowhere
          (.named .nowhere (.name .nowhere "y") (.name .nowhere "z")) ⟨"w", .nowhere⟩])
        (.unary .nowhere .minus (.binary .nowhere (.name .nowhere "a") .pow
          (.unary .nowhere .minus (.name .nowhere "b"))))
        (.lambda .nowhere [] (.compare .nowhere
          (.unary .nowhere .not (.name .nowhere "p")) [.is] [.name .nowhere "q"])) := by
  have hname (id : String) : Plain (.name .nowhere id) := .name _ id
  have htest : Plain (.compare .nowhere (.name .nowhere "x") [.notIn] [.member .nowhere
      (.named .nowhere (.name .nowhere "y") (.name .nowhere "z")) ⟨"w", .nowhere⟩]) := by
    refine .compare _ nofun rfl (hname _) fun c hc => ?_
    obtain rfl := List.mem_singleton.mp hc
    exact .member _ _ (.named _ _ _ (hname _))
  have hbody : Plain (.unary .nowhere .minus (.binary .nowhere (.name .nowhere "a") .pow
      (.unary .nowhere .minus (.name .nowhere "b")))) :=
    .unary _ _ (.binary _ _ (hname _) (.unary _ _ (hname _)))
  have horelse : Plain (.lambda .nowhere [] (.compare .nowhere
      (.unary .nowhere .not (.name .nowhere "p")) [.is] [.name .nowhere "q"])) := by
    refine .lambda _ (.compare _ nofun rfl (.unary _ _ (hname _)) fun c hc => ?_)
    obtain rfl := List.mem_singleton.mp hc
    exact hname _
  refine Exists.elim (parse_print (.conditional .nowhere htest hbody horelse) _
    [⟨.endOfFile, .nowhere⟩] ?_ (stops_of_none 0 rfl fun _ => rfl))
    fun e' ⟨s, hok, hbare, _⟩ => ⟨e', hok, hbare⟩
  rfl

end MysToCpp.Parser
