/-
# What parsed programs are lowered to

The C++ text of every statement of a program is tidy, unless a string of the program holds C++ code.  The
names of a program are identifiers because its tokens were read from a text; all else is a matter of
lowering.

The nodes of a module stand in layers, each below the one before, and behind an empty layer nothing
follows.  So what holds of all nodes of a program can be computed.
-/
import MysToCpp.Proofs.Cpp.TidyStatements
import MysToCpp.Proofs.Parsed
import MysToCpp.Text.Unicode

namespace MysToCpp

/-! ## Layers -/

/-- The nodes directly below some nodes, decorators included. -/
def Node.below (xs : List (Role × Node)) : List (Role × Node) :=
  xs.flatMap fun x => x.2.partsAt x.1 ++ x.2.decorators.map fun d => (.plain, d)

/-- The nodes of a module that stand a number of steps below its statements. -/
def Module.layer (m : Module) : Nat → List (Role × Node)
  | 0 => m.body.map fun s => (.plain, .stmt s)
  | depth + 1 => Node.below (m.layer depth)

theorem Module.Has.exists_layer {m : Module} {r : Role} {x : Node} (h : m.Has r x) :
    ∃ depth, (r, x) ∈ m.layer depth := by
  induction h with
  | top hs => exact ⟨0, List.mem_map_of_mem hs⟩
  | part _ hc ih =>
      obtain ⟨depth, hmem⟩ := ih
      exact ⟨depth + 1, List.mem_flatMap_of_mem hmem (List.mem_append_left _ hc)⟩
  | decorator _ hd ih =>
      obtain ⟨depth, hmem⟩ := ih
      exact ⟨depth + 1, List.mem_flatMap_of_mem hmem (List.mem_append_right _ (List.mem_map_of_mem hd))⟩

theorem Module.layer_eq_nil {m : Module} {depth : Nat} (h : m.layer depth = []) (more : Nat) :
    m.layer (depth + more) = [] := by
  induction more with
  | zero => exact h
  | succ more ih => rw [← Nat.add_assoc, Module.layer, ih, Node.below, List.flatMap_nil]

/-- Whether all nodes of a module satisfy `p`, and stand in the first layers. -/
def Module.allWithin (m : Module) (depth : Nat) (p : Node → Bool) : Bool :=
  (m.layer depth).isEmpty && (List.range depth).all fun d => (m.layer d).all fun x => p x.2

theorem Module.Has.of_allWithin {m : Module} {depth : Nat} {p : Node → Bool}
    (hall : m.allWithin depth p = true) {r : Role} {x : Node} (h : m.Has r x) : p x = true := by
  simp only [Module.allWithin, Bool.and_eq_true, List.isEmpty_iff, List.all_eq_true,
    List.mem_range] at hall
  obtain ⟨hempty, hlayers⟩ := hall
  obtain ⟨d, hd⟩ := h.exists_layer
  rcases Nat.lt_or_ge d depth with hlt | hge
  · exact hlayers d hlt (r, x) hd
  · obtain ⟨more, rfl⟩ := Nat.exists_eq_add_of_le hge
    rw [layer_eq_nil hempty] at hd
    cases hd

section

variable [Text.IdentifierTable]

/-- A text that is read as a module with a property that can be computed. -/
theorem exists_parsed {source : String} {p : Module → Bool}
    (h : (parseSource source).toOption.any p = true) : ∃ m, parseSource source = .ok m ∧ p m = true := by
  cases hparse : parseSource source with
  | error e =>
      rw [hparse] at h
      cases h
  | ok m =>
      rw [hparse] at h
      exact ⟨m, rfl, h⟩

/-! ## Tidy code -/

theorem parseSource_spelled {source : String} {m : Module} (h : parseSource source = .ok m)
    {r : Role} {x : Node} (hx : m.Has r x) : x.Spelled Lexer.IsIdentifier :=
  (Node.Formed.of_has (parseSource_formed False h False.elim).1 hx).shaped.spelled

/-- The C++ text of every statement of a program without C++ code in its strings is tidy. -/
theorem lowerStmt_tidy {source : String} {m : Module} (h : parseSource source = .ok m)
    (hplain : ∀ r span s, m.Has r (.expr (.constant span (.text s))) →
      ¬ Cpp.embeddedSentinel.toList <+: s.toList)
    {r : Role} {stmt : Stmt} {text : String} (hstmt : m.Has r (.stmt stmt))
    (hlower : Cpp.lowerStmt stmt = .ok text) : Cpp.Tidy text.toList := by
  have hharmless : Cpp.Harmless m := by
    constructor
    · rintro x ⟨r, hx⟩
      exact parseSource_spelled h hx
    · rintro span s ⟨r, hx⟩
      exact hplain r span s hx
  exact (Cpp.gives_lowerStmt hharmless ⟨r, hstmt⟩ text hlower).tidy

end

def Node.isEmbedded : Node → Bool
  | .expr (.constant _ (.text s)) => Cpp.embeddedSentinel.toList.isPrefixOf s.toList
  | _ => false

/-- A bracket in a string, a block that is moved back, and one that is written twice. -/
theorem lowerStmt_tidy_sample : ∃ m stmt text,
    parseSource "if a:\n    try: f(\"\x7d\\n\", [1])\n    except e.E as g: pass\n    finally: h()\n" =
      .ok m ∧
    (∀ r span s, m.Has r (.expr (.constant span (.text s))) →
      ¬ Cpp.embeddedSentinel.toList <+: s.toList) ∧
    m.Has .plain (.stmt stmt) ∧ Cpp.lowerStmt stmt = .ok text ∧ Cpp.Tidy text.toList := by
  obtain ⟨m, hparse, hm⟩ := exists_parsed (by decide +kernel : (parseSource
    "if a:\n    try: f(\"\x7d\\n\", [1])\n    except e.E as g: pass\n    finally: h()\n").toOption.any
      (fun m => m.allWithin 7 (!·.isEmbedded) &&
        m.body.any fun stmt => (Cpp.lowerStmt stmt).toOption.isSome) = true)
  obtain ⟨hall, hlowered⟩ := Bool.and_eq_true_iff.mp hm
  have hplain : ∀ r span s, m.Has r (.expr (.constant span (.text s))) →
      ¬ Cpp.embeddedSentinel.toList <+: s.toList := by
    intro r span s hs hprefix
    have hyes : Cpp.embeddedSentinel.toList.isPrefixOf s.toList = true :=
      List.isPrefixOf_iff_prefix.mpr hprefix
    have hnot := hs.of_allWithin hall
    simp [Node.isEmbedded, hyes] at hnot
  obtain ⟨stmt, hmem, hstmt⟩ := List.any_eq_true.mp hlowered
  cases hlower : Cpp.lowerStmt stmt with
  | error e =>
      rw [hlower] at hstmt
      cases hstmt
  | ok text =>
      exact ⟨m, stmt, text, hparse, hplain, .top hmem, hlower,
        lowerStmt_tidy hparse hplain (.top hmem) hlower⟩

end MysToCpp
