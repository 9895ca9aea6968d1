/-
# What parsed programs are like

A module that is read from tokens is well formed at every depth, and the spans of a module that is read
from a text nest.  Whether its blocks hold something depends on the layout of the text: a line that
starts with a backslash can open a block that nothing stands in.
-/
import MysToCpp.Proofs.Diagnostics
import MysToCpp.Text.Unicode

namespace MysToCpp

section

variable [Text.IdentifierTable]

/-- How many statements each block of each statement of a program holds, if a text is one. -/
def blockSizes? (source : String) : Option (List (List Nat)) :=
  match parseSource source with
  | .ok m => some (m.body.map fun s => s.blocks.map List.length)
  | .error _ => none

theorem blockSizes?_eq_some {source : String} {sizes : List (List Nat)}
    (h : blockSizes? source = some sizes) :
    ∃ m, parseSource source = .ok m ∧ m.body.map (fun s => s.blocks.map List.length) = sizes := by
  unfold blockSizes? at h
  split at h
  · next m hparse => exact ⟨m, hparse, Option.some.inj h⟩
  · cases h

end

/-! ## Shape -/

/-- Every node of a module that is read is well formed, and slices are indices. -/
theorem parseTokens_wellFormed {tokens : List Token} {m : Module} (h : parseTokens tokens = .ok m)
    {r : Role} {x : Node} (hx : m.Has r x) : x.WellFormed ∧ (x.isSlice = true → r ≠ .plain) := by
  have hformed := parseTokens_formed (Promise.kept_nothing tokens) False.elim h
  have hshaped := (Node.Formed.of_has hformed.1 hx).shaped
  exact ⟨hshaped.wellFormed, hshaped.role⟩

/-- Slices, chained comparisons and a comprehension, assigned to several targets. -/
theorem parseTokens_wellFormed_sample : ∃ tokens m,
    tokenize "x[1:2, a], *c = {k: v for k, (v, w) in t} if a < b <= c else (y := d and e)\n" =
      .ok tokens ∧
    parseTokens tokens = .ok m ∧ m.body.length = 1 ∧
    ∀ r x, m.Has r x → x.WellFormed ∧ (x.isSlice = true → r ≠ .plain) := by
  obtain ⟨m, hparse, hsizes⟩ := blockSizes?_eq_some (by decide +kernel :
    blockSizes? "x[1:2, a], *c = {k: v for k, (v, w) in t} if a < b <= c else (y := d and e)\n" =
      some [[]])
  obtain ⟨tokens, htokens, hm⟩ := parseSource_cases hparse
  refine ⟨tokens, m, htokens, hm, by simpa using congrArg List.length hsizes, ?_⟩
  intro r x hx
  exact parseTokens_wellFormed hm hx

/-! ## Spans -/

/-- The spans of a node and of the nodes directly below it nest: the node holds its parts, stands behind
its decorators, and the statements of each of its blocks follow each other. -/
structure Node.SpansNest (x : Node) : Prop where
  ordered : x.span.start.offset ≤ x.span.stop.offset
  parts : ∀ c ∈ x.parts, x.span.start.offset ≤ c.span.start.offset ∧
    c.span.stop.offset ≤ x.span.stop.offset
  decorators : ∀ d ∈ x.decorators, d.span.stop.offset ≤ x.span.start.offset
  blocks : ∀ block ∈ x.blocks, Follow block

theorem Node.Nested.spansNest {place : Position → Prop} {x : Node} (h : x.Nested place) :
    x.SpansNest := by
  have hspaced := h.spaced
  exact ⟨hspaced.between.ordered, hspaced.parts, hspaced.decorators, hspaced.blocks⟩

/-- The statements of a module follow each other, and the spans of all its nodes nest. -/
theorem parseSource_spansNest [Text.IdentifierTable] {source : String} {m : Module}
    (h : parseSource source = .ok m) :
    Node.Follow m.body ∧ ∀ r x, m.Has r x → x.SpansNest := by
  obtain ⟨hformed, hfollow⟩ := parseSource_formed False h False.elim
  refine ⟨hfollow, ?_⟩
  intro r x hx
  exact ((Node.Formed.of_has hformed hx).nested trivial).spansNest

/-- A decorated function with handlers. -/
theorem parseSource_spansNest_sample : ∃ m,
    parseSource "@d(1)\ndef f(a, *b: int) -> c:\n  try:\n    x = 1, 2\n  except e as g: pass\n  return" =
      .ok m ∧
    m.body.map (fun s => s.blocks.map List.length) = [[2]] ∧
    Node.Follow m.body ∧ ∀ r x, m.Has r x → x.SpansNest := by
  obtain ⟨m, hparse, hsizes⟩ := blockSizes?_eq_some (by decide +kernel :
    blockSizes? "@d(1)\ndef f(a, *b: int) -> c:\n  try:\n    x = 1, 2\n  except e as g: pass\n  return" =
      some [[2]])
  exact ⟨m, hparse, hsizes, parseSource_spansNest hparse⟩

/-! ## Blocks -/

/-- Every statement of a module whose blocks do not begin with a backslash holds something. -/
theorem parseSource_filled [Text.IdentifierTable] {source : String} {m : Module}
    (h : parseSource source = .ok m)
    (hopens : ∀ tokens, tokenize source = .ok tokens →
      Lexer.NoBackslashOpens source.toList tokens)
    {r : Role} {s : Stmt} (hs : m.Has r (.stmt s)) : s.Filled := by
  have hformed := (parseSource_formed True h fun _ => hopens).1
  exact (Node.Formed.of_has hformed hs).shaped.filled trivial

/-- A text without a backslash. -/
theorem parseSource_filled_sample : ∃ m,
    parseSource "if a:\n    b\n    while c:\n        d\nelse: e\n" = .ok m ∧
    m.body.map (fun s => s.blocks.map List.length) = [[2, 1]] ∧
    ∀ r s, m.Has r (.stmt s) → s.Filled := by
  obtain ⟨m, hparse, hsizes⟩ := blockSizes?_eq_some (by decide +kernel :
    blockSizes? "if a:\n    b\n    while c:\n        d\nelse: e\n" = some [[2, 1]])
  refine ⟨m, hparse, hsizes, ?_⟩
  intro r s hs
  refine parseSource_filled hparse ?_ hs
  intro tokens _ t _ _ before after hsource
  have hmem : '\\' ∈ "if a:\n    b\n    while c:\n        d\nelse: e\n".toList := by
    rw [hsource]
    exact List.mem_append_right _ List.mem_cons_self
  exact absurd hmem (by decide)

/-- A statement holds something in the first of its blocks. -/
theorem Stmt.Filled.head_blocks {s : Stmt} (h : s.Filled) : s.blocks.head? ≠ some [] := by
  cases s with
  | functionDef | classDef | forLoop | whileLoop | ifElse | withBlock =>
      simpa [Stmt.blocks, Stmt.Filled] using h
  | tryBlock => simpa [Stmt.blocks] using h.1
  | _ => simp [Stmt.blocks]

/-- A backslash that opens a block, with nothing but the end of the text behind it. -/
theorem parseSource_unfilled : ∃ m s, parseSource "if x:\n    \\\n" = .ok m ∧
    m.Has .plain (.stmt s) ∧ ¬ s.Filled := by
  obtain ⟨m, hparse, hsizes⟩ := blockSizes?_eq_some (by decide +kernel :
    blockSizes? "if x:\n    \\\n" = some [[0, 0]])
  obtain ⟨s, hbody, hs⟩ := List.map_eq_singleton_iff.mp hsizes
  have hmem : s ∈ m.body := by
    rw [hbody]
    exact List.mem_singleton_self s
  refine ⟨m, s, hparse, .top hmem, ?_⟩
  intro hfilled
  refine hfilled.head_blocks ?_
  cases hblocks : s.blocks with
  | nil =>
      rw [hblocks] at hs
      cases hs
  | cons block rest =>
      rw [hblocks, List.map_cons] at hs
      rw [List.head?_cons, List.eq_nil_of_length_eq_zero (List.cons.inj hs).1]

end MysToCpp
