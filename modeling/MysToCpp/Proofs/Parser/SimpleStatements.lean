/-
# The parsers of simple statements

What every parser of a statement without blocks does, one lemma for each.  A statement that a keyword
starts is gathered from where its `start` says, which is the token at hand or, for an expression, not behind
it.  That a deletion, an import or a list of names is never empty is decided by the first one, which is
read without a choice; that an assignment has a target, by the `=` that it was recognised by.
-/
import MysToCpp.Proofs.Parser.Expressions

namespace MysToCpp

theorem Stmt.filled_of_blocks {s : Stmt} (h : s.blocks = []) : s.Filled := by
  cases s with
  | functionDef | classDef | forLoop | whileLoop | ifElse | withBlock | tryBlock => cases h
  | _ => exact trivial

theorem Stmt.decorators_of_blocks {s : Stmt} (h : s.blocks = []) : s.decorators = [] := by
  cases s with
  | functionDef | classDef => cases h
  | _ => rfl

namespace Parser

open Keyword Punct
open ParserState (Begins Gathered Kept Opens)
open Text (OneLine oneLine_literal)

variable {P : Promise} {n m : Nat} {start : Span} {s : ParserState} {xs : List Part}

theorem gathers_closeSimple {build : Span → Stmt} (g : s.Gathered P n m start xs)
    (hspan : ∀ x, (build x).span = x) (hparts : ∀ x, (Node.stmt (build x)).partsAt .plain ⊆ xs)
    (hshape : ∀ x, (build x).WellFormed) (hblocks : ∀ x, (build x).blocks = []) :
    Gathers P n m start (do let x ← spanFrom start; pure (build x))
      (do let x ← spanFrom start; pure (build x)) s (one .stmt) := by
  refine g.closeStmt (fun x => ?_) fun x => Stmt.decorators_of_blocks (hblocks x)
  refine ⟨hspan x, hparts x, hshape x, fun _ => Stmt.filled_of_blocks (hblocks x), fun _ b hb => ?_⟩
  rw [hblocks] at hb
  exact absurd hb List.not_mem_nil

/-! ## Values and targets -/

theorem starts_value : Starts P n value value (one .expr) fun _ => True := reads_expression n _

theorem starts_values : Starts P n values values (one .expr) fun _ => True :=
  starts_expressionList (reads_expression n) _

theorem starts_assignedValue :
    Starts P n assignedValue assignedValue (one .expr) fun _ => True :=
  fun s hs => keeps_ask (keeps_if (fun _ => starts_value s hs) fun _ => starts_values s hs)

theorem starts_target : Starts P n target target (one .expr) Expr.IsTarget := by
  refine fun s hs => (reads_expression n _ s hs).bind fun e s₁ _ hq => ?_
  have he : e.Formed P := hq.1.held.formed _ List.mem_cons_self
  exact hq.1.pass (quiet_checkTarget_of_formed he) fun _ s₂ g htarget => keeps_pure ⟨g, htarget⟩

/-! ## Assignments -/

theorem gathers_annotated {target : Expr} (g : s.Gathered P n m start (one .expr target))
    (hk : s.kind ≠ .endOfFile) :
    Gathers P n m start (annotated start target) (annotated start target) s (one .stmt) := by
  have hspan (hp : P.placed) := g.held.between List.mem_cons_self hp
  refine keeps_if (fun hsingle => ?_) fun _ => ?_
  · have hshape := Expr.isVariable_of_isSingleTarget hsingle
    refine g.step hk fun s₁ g => g.bind starts_value.places fun hint s₂ g _ => ?_
    refine g.bind (places_after starts_assignedValue.places) fun assigned s₃ g _ => ?_
    refine gathers_closeSimple g (fun _ => rfl) (fun _ => ?_) (fun _ => hshape) fun _ => rfl
    simp [Node.partsAt, Node.parts, Stmt.parts]
  · have hstart : OneLine "illegal target for annotation: " := oneLine_literal (by decide)
    exact keeps_failWith (hstart.append target.oneLine_describe) hspan

theorem gathers_augmented {target : Expr} (op : BinaryOp) (g : s.Gathered P n m start (one .expr target))
    (hk : s.kind ≠ .endOfFile) :
    Gathers P n m start (augmented start target op) (augmented start target op) s (one .stmt) := by
  have hspan (hp : P.placed) := g.held.between List.mem_cons_self hp
  refine keeps_if (fun hsingle => ?_) fun _ => ?_
  · have hshape := Expr.isVariable_of_isSingleTarget hsingle
    refine g.step hk fun s₁ g => g.bind starts_assignedValue.places fun assigned s₂ g _ => ?_
    exact gathers_closeSimple g (fun _ => rfl) (fun _ => List.Subset.refl _) (fun _ => hshape) fun _ => rfl
  · have hopen : OneLine "'" := oneLine_literal (by decide)
    have hclose : OneLine "' is an illegal expression for augmented assignment" :=
      oneLine_literal (by decide)
    exact keeps_failWith ((hopen.append target.oneLine_describe).append hclose) hspan

theorem quiet_checkTargets {targets : List Expr} (h : ∀ e ∈ targets, e.Formed P) :
    Quiet P n (checkTargets targets) (checkTargets targets) fun _ => ∀ e ∈ targets, e.IsTarget := by
  induction targets with
  | nil => exact places_pure rfl nofun
  | cons e rest ih =>
      obtain ⟨he, hrest⟩ := List.forall_mem_cons.mp h
      refine fun s hs => (quiet_checkTarget_of_formed he s hs).bind fun _ s₁ hu hq => ?_
      refine (ih hrest s₁ (Nat.lt_of_le_of_lt hu.reaches.length_le hs)).imp fun _ s₂ _ hq₂ => ?_
      exact ⟨hq₂.1.lower hu.back, List.forall_mem_cons.mpr ⟨hq.2, hq₂.2⟩⟩

theorem targets_append (first : Expr) (more : List Expr) :
    (first :: more).dropLast ++ [more.getLast?.getD first] = first :: more := by
  rcases List.eq_nil_or_concat more with rfl | ⟨init, last, rfl⟩
  · rfl
  · rw [List.concat_eq_append, List.getLast?_concat, Option.getD_some, ← List.cons_append,
      List.dropLast_concat]

/-- At `=` there is a value, so that what stands before it is a target. -/
theorem gathers_assignment {first : Expr} (g : s.Gathered P n m start (one .expr first))
    (h : s.isAt assign = true) :
    Gathers P n m start (assignment start first) (assignment start first) s (one .stmt) := by
  have hvalue := starts_assignedValue (P := P) (n := n).places
  refine g.many_first (steps_after hvalue) (keeps_after hvalue g.few_left h) fun more s₁ g _ hne => ?_
  have hparts : one .expr first ++ more.flatMap (one .expr) =
      (first :: more).map fun e => ((.plain, .expr e) : Part) := by
    rw [flatMap_one]
    rfl
  rw [hparts] at g
  have htargets : ∀ e ∈ (first :: more).dropLast, e.Formed P := fun e he =>
    g.held.formed _ (List.mem_map_of_mem (List.dropLast_subset _ he))
  refine g.pass (quiet_checkTargets htargets) fun _ s₂ g hcheck => ?_
  obtain ⟨second, rest, rfl⟩ := List.exists_cons_of_ne_nil hne
  refine gathers_closeSimple g (fun _ => rfl) (fun _ => ?_) (fun _ => ⟨List.cons_ne_nil _ _, hcheck⟩)
    fun _ => rfl
  simp only [Node.partsAt, Node.parts, Stmt.parts, targets_append, List.map_map]
  exact List.Subset.refl _

theorem kind_ne_end_of_augmentedOp {k : TokenKind} {op : BinaryOp} (h : augmentedOp? k = some op) :
    k ≠ .endOfFile := by
  rintro rfl
  cases h

theorem gathers_expressionStatement (hb : s.Begins P n m start) (hs : s.rest.length < n) :
    Gathers P n m start (expressionStatement start) (expressionStatement start) s (one .stmt) := by
  refine hb.bind hs starts_assignedValue fun first s₁ g _ => keeps_ask (keeps_if (fun h => ?_) fun _ => ?_)
  · exact gathers_annotated g (s₁.kind_ne_end_of_isAt h)
  · refine keeps_ask ?_
    split
    · next h => exact gathers_augmented _ g (kind_ne_end_of_augmentedOp h)
    · refine keeps_ask (keeps_if (fun h => gathers_assignment g h) fun _ => ?_)
      exact gathers_closeSimple g (fun _ => rfl) (fun _ => List.Subset.refl _) (fun _ => trivial)
        fun _ => rfl

/-! ## Statements that a keyword starts -/

theorem keeps_keywordStatement {stmt : Stmt} (hk : s.kind ≠ .endOfFile) :
    Keeps P (keywordStatement stmt) (keywordStatement stmt) s fun st s' => st = stmt ∧ s' = s.advance :=
  keeps_advance hk fun _ => keeps_pure ⟨rfl, rfl⟩

theorem gathers_returnStatement (ho : s.Opens P n m start) :
    Gathers P n m start (returnStatement start) (returnStatement start) s (one .stmt) := by
  refine ho.step fun g => keeps_ask (keeps_if (fun _ => ?_) fun _ => ?_)
  · refine g.bind starts_values.places fun result s₁ g _ => ?_
    exact gathers_closeSimple g (fun _ => rfl) (fun _ => List.Subset.refl _) (fun _ => trivial) fun _ => rfl
  · exact gathers_closeSimple g (fun _ => rfl) (fun _ => List.Subset.refl _) (fun _ => trivial) fun _ => rfl

theorem gathers_raiseStatement (ho : s.Opens P n m start) :
    Gathers P n m start (raiseStatement start) (raiseStatement start) s (one .stmt) := by
  refine ho.step fun g => keeps_ask (keeps_if (fun _ => ?_) fun _ => ?_)
  · refine g.bind starts_value.places fun exception s₁ g _ => ?_
    refine g.bind (places_after starts_value.places) fun cause s₂ g _ => ?_
    refine gathers_closeSimple g (fun _ => rfl) (fun _ => ?_) (fun _ => trivial) fun _ => rfl
    simp [Node.partsAt, Node.parts, Stmt.parts]
  · exact gathers_closeSimple g (fun _ => rfl) (fun _ => List.Subset.refl _) (fun _ => trivial) fun _ => rfl

theorem gathers_assertStatement (ho : s.Opens P n m start) :
    Gathers P n m start (assertStatement start) (assertStatement start) s (one .stmt) := by
  refine ho.step fun g => g.bind starts_value.places fun test s₁ g _ => ?_
  refine g.bind (places_after starts_value.places) fun message s₂ g _ => ?_
  refine gathers_closeSimple g (fun _ => rfl) (fun _ => ?_) (fun _ => trivial) fun _ => rfl
  simp [Node.partsAt, Node.parts, Stmt.parts]

def nextTarget : Parser (Option Expr) := do
  if ← skip comma then
    if ← atLineEnd then pure none
    else
      let e ← target
      pure (some e)
  else pure none

theorem deleteStatement_eq (start : Span) : deleteStatement start = (do
    advance
    let first ← target
    let more ← many nextTarget
    pure (.delete (← spanFrom start) (first :: more))) := rfl

theorem steps_nextTarget : Steps P n nextTarget nextTarget (one .expr) Expr.IsTarget :=
  steps_skip (places_ask fun _ => places_if places_none starts_target.places.some) steps_none

theorem gathers_deleteStatement (ho : s.Opens P n m start) :
    Gathers P n m start (deleteStatement start) (deleteStatement start) s (one .stmt) := by
  rw [deleteStatement_eq]
  refine ho.step fun g => g.bind starts_target.places fun first s₁ g hfirst => ?_
  refine g.bind (places_many steps_nextTarget) fun more s₂ g hmore => ?_
  have htargets : ∀ e ∈ first :: more, e.IsTarget := List.forall_mem_cons.mpr ⟨hfirst, hmore⟩
  refine gathers_closeSimple g (fun _ => rfl) (fun _ => ?_) (fun _ => ⟨List.cons_ne_nil _ _, htargets⟩)
    fun _ => rfl
  simp [Node.partsAt, Node.parts, Stmt.parts]

theorem keeps_scopeNames (ho : s.Opens P n m start) :
    Keeps P scopeNames scopeNames s fun names s' =>
      s'.Gathered P n m start (names.flatMap (one .ident)) ∧ names ≠ [] := by
  refine ho.step fun g => g.bind starts_identifier.places fun first s₁ g _ => ?_
  refine g.bind (places_many (steps_after starts_identifier.places)) fun more s₂ g _ => ?_
  exact keeps_pure ⟨g, List.cons_ne_nil _ _⟩

theorem gathers_globalStatement (ho : s.Opens P n m start) :
    Gathers P n m start (globalStatement start) (globalStatement start) s (one .stmt) := by
  refine (keeps_scopeNames ho).bind fun names s₁ _ hq => ?_
  refine gathers_closeSimple hq.1 (fun _ => rfl) (fun _ => ?_) (fun _ => hq.2) fun _ => rfl
  simp [Node.partsAt, Node.parts, Stmt.parts]

theorem gathers_nonlocalStatement (ho : s.Opens P n m start) :
    Gathers P n m start (nonlocalStatement start) (nonlocalStatement start) s (one .stmt) := by
  refine (keeps_scopeNames ho).bind fun names s₁ _ hq => ?_
  refine gathers_closeSimple hq.1 (fun _ => rfl) (fun _ => ?_) (fun _ => hq.2) fun _ => rfl
  simp [Node.partsAt, Node.parts, Stmt.parts]

/-! ## Imports -/

theorem gathers_closeAlias {build : Span → Alias} (g : s.Gathered P n m start xs)
    (hspan : ∀ x, (build x).span = x) (hparts : ∀ x, clause Alias.parts (build x) = xs) :
    Gathers P n m start (do let x ← spanFrom start; pure (build x))
      (do let x ← spanFrom start; pure (build x)) s (one .imported) :=
  g.closePlain .imported hspan (fun _ => ⟨trivial, nofun, trivial, fun _ => trivial⟩) hparts (fun _ => rfl)
    fun _ => rfl

/-- The names between the points are no nodes. -/
theorem starts_dottedName : Starts P n dottedName dottedName (fun _ => []) fun _ => True := by
  refine fun s hs => (starts_identifier s hs).bind fun first s₁ _ hq => ?_
  have hmore := (places_many (steps_after (k := dot) (starts_identifier (P := P) (n := n)).places)).quiet
  exact hq.1.forget.pass hmore fun _ _ g _ => keeps_pure ⟨g, trivial⟩

theorem starts_moduleAlias : Starts P n moduleAlias moduleAlias (one .imported) fun _ => True := by
  refine fun s hs => keeps_ask ((starts_dottedName s hs).bind fun name s₁ _ hq => ?_)
  refine hq.1.bind (places_after starts_identifier.places) fun asName s₂ g _ => ?_
  refine (gathers_closeAlias g (fun _ => rfl) fun _ => ?_).imp fun _ _ _ g => ⟨g, trivial⟩
  simp [clause, Alias.parts]

theorem gathers_importStatement (ho : s.Opens P n m start) :
    Gathers P n m start (importStatement start) (importStatement start) s (one .stmt) := by
  refine ho.step fun g => g.bind starts_moduleAlias.places fun first s₁ g _ => ?_
  refine g.bind (places_many (steps_after starts_moduleAlias.places)) fun more s₂ g _ => ?_
  refine gathers_closeSimple g (fun _ => rfl) (fun _ => ?_) (fun _ => List.cons_ne_nil _ _) fun _ => rfl
  simp [Node.partsAt, Node.parts, Stmt.parts]

/-- A round of `importLevel`. -/
def importPoints : Parser (Option Nat) := do
  if ← skip dot then pure (some 1)
  else if ← skip ellipsis then pure (some 3)
  else pure none

theorem importLevel_eq : importLevel = (do
    let points ← many importPoints
    pure (points.foldl Nat.add 0)) := rfl

theorem steps_importPoints : Steps P n importPoints importPoints (fun _ => []) fun _ => True :=
  steps_skip (places_pure rfl fun _ _ => trivial)
    (steps_skip (places_pure rfl fun _ _ => trivial) steps_none)

theorem quiet_importLevel : Quiet P n importLevel importLevel fun _ => True := by
  rw [importLevel_eq]
  exact (places_many steps_importPoints).quiet.map (fun _ => rfl) fun _ _ => trivial

theorem starts_nameAlias : Starts P n nameAlias nameAlias (one .imported) fun _ => True := by
  refine fun s hs => keeps_ask ((starts_identifier s hs).bind fun name s₁ _ hq => ?_)
  refine hq.1.forget.bind (places_after starts_identifier.places) fun asName s₂ g _ => ?_
  refine (gathers_closeAlias g (fun _ => rfl) fun _ => ?_).imp fun _ _ _ g => ⟨g, trivial⟩
  simp [clause, Alias.parts]

theorem starts_importedNames :
    Starts P n importedNames importedNames (List.flatMap (one .imported)) (· ≠ []) := by
  refine fun s hs => .of_kept fun hkept => keeps_ask ?_
  have hb := hkept.begins (Nat.le_of_lt hs)
  refine keeps_skip (fun hstar _ => ?_) (hb.skip (fun g => ?_) ?_)
  · -- the star is an imported name of its own
    have ho := hb.opens_of_isAt hstar
    exact keeps_pure ⟨(ho.gathered_advance hkept).closedBare (ParserState.spanFrom_advance ho.kind).symm
      ⟨trivial, nofun, trivial, fun _ => trivial⟩ (List.nil_subset _) rfl rfl, List.cons_ne_nil _ _⟩
  · refine g.bind starts_nameAlias.places fun first s₁ g _ => ?_
    refine g.bind (places_moreItems starts_nameAlias.places) fun more s₂ g _ => ?_
    exact g.expect fun _ s₃ g => keeps_pure ⟨g, List.cons_ne_nil _ _⟩
  · refine hb.bind hs starts_nameAlias fun first s₁ g _ => ?_
    refine g.bind (places_many (steps_after starts_nameAlias.places)) fun more s₂ g _ => ?_
    exact keeps_pure ⟨g, List.cons_ne_nil _ _⟩

/-- Without points in front of it, the module has a name. -/
theorem quiet_importedModule (level : Nat) :
    Quiet P n (importedModule level) (importedModule level) fun module => module ≠ none ∨ 1 ≤ level := by
  refine places_ask fun _ => places_if ?_ fun s hs => keeps_if (fun _ => ?_) fun hlevel => ?_
  · exact starts_dottedName.places.map (fun _ => rfl) fun _ _ => .inl nofun
  · exact keeps_failExpected (oneLine_literal (by decide))
  · exact places_pure (V := fun module => module ≠ none ∨ 1 ≤ level) rfl
      (.inr (Nat.one_le_iff_ne_zero.mpr hlevel)) s hs

theorem gathers_importFromStatement (ho : s.Opens P n m start) :
    Gathers P n m start (importFromStatement start) (importFromStatement start) s (one .stmt) := by
  refine ho.step fun g => g.pass quiet_importLevel fun level s₁ g _ => ?_
  refine g.pass (quiet_importedModule level) fun module s₂ g hmodule => g.expect fun _ s₃ g => ?_
  refine g.bind starts_importedNames.places fun names s₄ g hnames => ?_
  refine gathers_closeSimple g (fun _ => rfl) (fun _ => ?_) (fun _ => ⟨hnames, hmodule⟩) fun _ => rfl
  simp [Node.partsAt, Node.parts, Stmt.parts]

/-! ## Lines -/

theorem starts_smallStatement :
    Starts P n smallStatement smallStatement (one .stmt) fun _ => True := by
  refine fun s hs => .of_kept fun hkept => keeps_ask (keeps_ask ?_)
  have hb := hkept.begins (Nat.le_of_lt hs)
  have hword {stmt : Stmt} {k : TokenKind} [k.Fixed] (hk : s.kind = k) (hspan : stmt.span = s.span)
      (hparts : stmt.parts = []) (hshape : stmt.WellFormed) (hblocks : stmt.blocks = []) :
      Keeps P (keywordStatement stmt) (keywordStatement stmt) s fun st s' =>
        s'.Gathered P n s.rest.length s.span (one .stmt st) ∧ True := by
    have ho := hb.opens hk
    refine (keeps_keywordStatement ho.kind).imp ?_
    rintro st s' - ⟨rfl, rfl⟩
    refine ⟨(ho.gathered_advance hkept).closedStmt ⟨?_, ?_, hshape, ?_, ?_⟩ ?_, trivial⟩
    · rw [hspan, ParserState.spanFrom_advance ho.kind]
    · simp [Node.partsAt, Node.parts, hparts]
    · exact fun _ => Stmt.filled_of_blocks hblocks
    · simp [hblocks]
    · simp [Stmt.decorators_of_blocks hblocks]
  have start {p : Parser Stmt} {k : TokenKind} [k.Fixed] (h : s.Opens P n s.rest.length s.span →
      Gathers P n s.rest.length s.span p p s (one .stmt)) (hk : s.kind = k) :
      Keeps P p p s fun st s' => s'.Gathered P n s.rest.length s.span (one .stmt st) ∧ True :=
    (h (hb.opens hk)).imp fun _ _ _ g => ⟨g, trivial⟩
  split
  case h_1 h | h_2 h | h_3 h => exact hword h rfl rfl trivial rfl
  case h_4 h => exact start gathers_returnStatement h
  case h_5 h => exact start gathers_raiseStatement h
  case h_6 h => exact start gathers_assertStatement h
  case h_7 h => exact start gathers_deleteStatement h
  case h_8 h => exact start gathers_globalStatement h
  case h_9 h => exact start gathers_nonlocalStatement h
  case h_10 h => exact start gathers_importStatement h
  case h_11 h => exact start gathers_importFromStatement h
  case h_12 => exact (gathers_expressionStatement hb hs).imp fun _ _ _ g => ⟨g, trivial⟩

def nextSimple : Parser (Option Stmt) := do
  if ← skip semicolon then
    if ← atLineEnd then pure none
    else
      let stmt ← smallStatement
      pure (some stmt)
  else pure none

theorem simpleStatements_eq : simpleStatements = (do
    let first ← smallStatement
    let more ← many nextSimple
    if ← atEnd then pure (first :: more)
    else
      let _ ← expect .newline
      pure (first :: more)) := rfl

theorem steps_nextSimple : Steps P n nextSimple nextSimple (one .stmt) fun _ => True :=
  steps_skip (places_ask fun _ => places_if places_none starts_smallStatement.places.some) steps_none

theorem starts_simpleStatements :
    Starts P n simpleStatements simpleStatements (List.flatMap (one .stmt)) (· ≠ []) := by
  rw [simpleStatements_eq]
  refine fun s hs => (starts_smallStatement s hs).bind fun first s₁ _ hq => ?_
  refine hq.1.bind (places_many steps_nextSimple) fun more s₂ g _ => keeps_ask ?_
  refine keeps_if (fun _ => keeps_pure ⟨g, List.cons_ne_nil _ _⟩) fun _ => ?_
  exact g.expect fun _ s₃ g => keeps_pure ⟨g, List.cons_ne_nil _ _⟩

end Parser

end MysToCpp
