/-
# How modules are put together

The statements of a module are gone through in order, and what each of them adds is put behind what was
there before: the prototype of a function, and a text in any case (`Parts.add`).  So the parts of two
bodies, one behind the other, are the parts of the first and then those of the second
(`partsOf_append`), and the first error in the order of the statements is the one reported.

A function is announced by the signature that its text starts with (`Announces`), also where the
signature is not the one that was written, as in `main`.
-/
import Mathlib.Data.List.Forall2
import Mathlib.Data.List.Induction
import MysToCpp.Cpp.Module

namespace MysToCpp.Cpp

/-- What the statements of a module have added to it. -/
structure Parts where
  prototypes : List String
  texts : List String
  deriving DecidableEq, Repr

def Parts.none : Parts := ⟨[], []⟩

def Parts.append (p q : Parts) : Parts := ⟨p.prototypes ++ q.prototypes, p.texts ++ q.texts⟩

/-- Registers the prototype of a statement, if it has one, and puts its text behind the others. -/
def Parts.add (parts : Parts) (stmt : Stmt) : Lowered Parts := do
  let d ← declare stmt
  .ok ⟨parts.prototypes ++ (d.prototype.map (· ++ ";")).toList, parts.texts ++ [d.text]⟩

/-- The parts of a module with this body, added one after the other. -/
def partsOf (body : List Stmt) : Lowered Parts := body.foldlM Parts.add .none

/-- The functions of a module with their texts. -/
def definitions (body : List Stmt) (texts : List String) : List (FunctionDef × String) :=
  (body.zip texts).filterMap fun
    | (.functionDef _ f, text) => some (f, text)
    | _ => none

/-- A prototype announces a function by the signature that its text starts with. -/
def Announces (definition : FunctionDef × String) (proto : String) : Prop :=
  ∃ sig rest, signature definition.1 = .ok sig ∧ proto = sig.prototype ++ ";" ∧
    definition.2 = sig.prototype ++ "\n\x7b\n" ++ rest

/-- What the parts of a body are. -/
structure Parts.Of (body : List Stmt) (parts : Parts) : Prop where
  /-- Every statement has a text. -/
  texts : List.Forall₂ (fun stmt text => ∃ d, declare stmt = .ok d ∧ d.text = text) body parts.texts
  /-- The functions are announced in the order of their definitions, each of them once. -/
  prototypes : List.Forall₂ Announces (definitions body parts.texts) parts.prototypes

/-! ## One statement -/

theorem announces_functionText {f : FunctionDef} {proto text : String}
    (h : functionText f = .ok (proto, text)) : Announces (f, text) (proto ++ ";") := by
  obtain ⟨sig, hsig, h⟩ := bind_eq_ok h
  obtain ⟨body, -, h⟩ := bind_eq_ok h
  cases h
  -- behind the opening brace there is at least the closing one
  obtain ⟨line, rest, hlines⟩ : ∃ line rest,
      sig.prelude ++ body.map Text.indent ++ epilogue f.name.name ++ ["\x7d"] = line :: rest :=
    List.exists_cons_of_ne_nil (List.append_ne_nil_of_right_ne_nil _ (List.cons_ne_nil _ _))
  refine ⟨sig, unlines (line :: rest), hsig, rfl, ?_⟩
  show unlines (sig.prototype :: "\x7b" ::
    (sig.prelude ++ body.map Text.indent ++ epilogue f.name.name ++ ["\x7d"])) = _
  rw [hlines, unlines, unlines, String.intercalate_cons_cons, String.intercalate_cons_cons]
  simp only [String.append_assoc]
  rfl

/-- A function has a prototype, which announces it, and no other statement has one. -/
theorem declare_prototype {stmt : Stmt} {d : Declaration} (h : declare stmt = .ok d) :
    List.Forall₂ Announces (definitions [stmt] [d.text]) (d.prototype.map (· ++ ";")).toList := by
  cases stmt with
  | functionDef span f =>
      simp only [declare] at h
      split at h
      · cases h
      · obtain ⟨⟨proto, text⟩, htext, h⟩ := bind_eq_ok h
        cases h
        exact .cons (announces_functionText htext) .nil
  | importModules | importFrom =>
      cases h
      exact .nil
  | _ =>
      obtain ⟨text, -, h⟩ := bind_eq_ok h
      cases h
      exact .nil

/-! ## One statement behind others -/

theorem definitions_append {a b : List Stmt} {ta tb : List String} (h : a.length = ta.length) :
    definitions (a ++ b) (ta ++ tb) = definitions a ta ++ definitions b tb := by
  rw [definitions, List.zip_append h, List.filterMap_append]
  rfl

theorem Parts.Of.add {body : List Stmt} {stmt : Stmt} {parts parts' : Parts} (h : parts.Of body)
    (hadd : parts.add stmt = .ok parts') : parts'.Of (body ++ [stmt]) := by
  obtain ⟨d, hd, hadd⟩ := bind_eq_ok hadd
  cases hadd
  refine ⟨List.rel_append h.texts (.cons ⟨d, hd, rfl⟩ .nil), ?_⟩
  rw [definitions_append h.texts.length_eq]
  exact List.rel_append h.prototypes (declare_prototype hd)

theorem Parts.add_append (p q : Parts) (stmt : Stmt) :
    (p.append q).add stmt = (do let q' ← q.add stmt; .ok (p.append q')) := by
  unfold Parts.add
  cases declare stmt with
  | error e => rfl
  | ok d =>
      show Except.ok _ = Except.ok _
      simp [Parts.append, List.append_assoc]

/-! ## All statements -/

theorem partsOf_of (body : List Stmt) :
    ∀ {parts : Parts}, partsOf body = .ok parts → parts.Of body := by
  induction body using List.reverseRecOn with
  | nil =>
      intro parts h
      cases h
      exact ⟨.nil, .nil⟩
  | append_singleton body stmt ih =>
      intro parts h
      rw [partsOf, List.foldlM_append] at h
      obtain ⟨before, hbefore, h⟩ := bind_eq_ok h
      obtain ⟨after, hadd, h⟩ := bind_eq_ok h
      cases h
      exact (ih hbefore).add hadd

theorem foldlM_add_append (body : List Stmt) :
    ∀ p q : Parts, body.foldlM Parts.add (p.append q) =
      (do let q' ← body.foldlM Parts.add q; .ok (p.append q')) := by
  induction body with
  | nil => exact fun p q => rfl
  | cons stmt body ih =>
      intro p q
      rw [List.foldlM_cons, List.foldlM_cons, Parts.add_append]
      cases q.add stmt with
      | error e => rfl
      | ok q' => exact ih p q'

theorem Parts.append_none (p : Parts) : p.append .none = p := by simp [Parts.append, Parts.none]

theorem partsOf_append (a b : List Stmt) :
    partsOf (a ++ b) = (do let p ← partsOf a; let q ← partsOf b; .ok (p.append q)) := by
  unfold partsOf
  rw [List.foldlM_append]
  cases a.foldlM Parts.add .none with
  | error e => rfl
  | ok p =>
      have hb := foldlM_add_append b p .none
      rw [Parts.append_none] at hb
      exact hb

theorem partsOf_singleton (stmt : Stmt) :
    partsOf [stmt] =
      (do let d ← declare stmt; .ok ⟨(d.prototype.map (· ++ ";")).toList, [d.text]⟩) := by
  rw [partsOf, List.foldlM_cons]
  unfold Parts.add
  cases declare stmt <;> rfl

theorem declarations_cons (stmt : Stmt) (body : List Stmt) :
    declarations (stmt :: body) =
      (do let d ← declare stmt; let ds ← declarations body; .ok (d :: ds)) :=
  List.mapM_cons

/-- Adding the parts one after the other comes to what the statements declare. -/
theorem partsOf_eq (body : List Stmt) :
    partsOf body = (do let ds ← declarations body; .ok ⟨prototypes ds, ds.map (·.text)⟩) := by
  induction body with
  | nil => rfl
  | cons stmt body ih =>
      rw [← List.singleton_append, partsOf_append, partsOf_singleton, ih, List.singleton_append,
        declarations_cons]
      cases declare stmt with
      | error e => rfl
      | ok d =>
          cases declarations body with
          | error e => rfl
          | ok ds =>
              show Except.ok _ = Except.ok _
              cases hd : d.prototype <;> simp [Parts.append, prototypes, hd]

theorem translate_eq (body : List Stmt) :
    translate ⟨body⟩ = (do
      let parts ← partsOf body
      .ok ("\n\n".intercalate (preamble :: parts.prototypes ++ parts.texts) ++ "\n")) := by
  rw [partsOf_eq, translate]
  cases declarations body <;> rfl

theorem translate_eq_ok {body : List Stmt} {text : String} :
    translate ⟨body⟩ = .ok text ↔ ∃ parts, partsOf body = .ok parts ∧
      text = "\n\n".intercalate (preamble :: parts.prototypes ++ parts.texts) ++ "\n" := by
  rw [translate_eq]
  cases partsOf body with
  | error e => exact ⟨nofun, fun ⟨_, h, _⟩ => nomatch h⟩
  | ok parts =>
      refine ⟨fun h => ?_, fun ⟨q, hq, htext⟩ => ?_⟩
      · cases h
        exact ⟨parts, rfl, rfl⟩
      · cases hq
        rw [htext]
        rfl

theorem translate_eq_error {body : List Stmt} {e : LoweringError} :
    translate ⟨body⟩ = .error e ↔ partsOf body = .error e := by
  rw [translate_eq]
  cases partsOf body with
  | error e' =>
      refine ⟨fun h => ?_, fun h => ?_⟩ <;> cases h <;> rfl
  | ok parts => exact ⟨nofun, nofun⟩

theorem exists_translate {body : List Stmt} :
    (∃ text, translate ⟨body⟩ = .ok text) ↔ ∃ parts, partsOf body = .ok parts := by
  simp only [translate_eq_ok]
  exact ⟨fun ⟨_, parts, h, _⟩ => ⟨parts, h⟩, fun ⟨parts, h⟩ => ⟨_, parts, h, rfl⟩⟩

/-- A module is its header with its prototypes and texts, and two bodies are translated one behind the
other as each of them is alone. -/
theorem translate_assembles (a b : List Stmt) :
    (∀ text, translate ⟨a⟩ = .ok text ↔ ∃ parts, partsOf a = .ok parts ∧
      text = "\n\n".intercalate (preamble :: parts.prototypes ++ parts.texts) ++ "\n") ∧
    (∀ parts, partsOf a = .ok parts → parts.Of a) ∧
    ((∃ text, translate ⟨a ++ b⟩ = .ok text) ↔
      (∃ text, translate ⟨a⟩ = .ok text) ∧ ∃ text, translate ⟨b⟩ = .ok text) ∧
    (∀ p q, partsOf a = .ok p → partsOf b = .ok q → partsOf (a ++ b) = .ok (p.append q)) ∧
    (∀ e, translate ⟨a⟩ = .error e → translate ⟨a ++ b⟩ = .error e) ∧
    (∀ text e, translate ⟨a⟩ = .ok text → translate ⟨b⟩ = .error e →
      translate ⟨a ++ b⟩ = .error e) := by
  have happend := partsOf_append a b
  refine ⟨fun _ => translate_eq_ok, fun _ => partsOf_of a, ?_, ?_, ?_, ?_⟩
  · simp only [exists_translate]
    constructor
    · rintro ⟨parts, h⟩
      rw [happend] at h
      obtain ⟨p, hp, h⟩ := bind_eq_ok h
      obtain ⟨q, hq, -⟩ := bind_eq_ok h
      exact ⟨⟨p, hp⟩, ⟨q, hq⟩⟩
    · rintro ⟨⟨p, hp⟩, ⟨q, hq⟩⟩
      exact ⟨p.append q, by rw [happend, hp, hq]; rfl⟩
  · intro p q hp hq
    rw [happend, hp, hq]
    rfl
  · intro e ha
    rw [translate_eq_error] at ha ⊢
    rw [happend, ha]
    rfl
  · intro text e ha hb
    obtain ⟨p, hp, -⟩ := translate_eq_ok.mp ha
    rw [translate_eq_error] at hb ⊢
    rw [happend, hp, hb]
    rfl

/-- A `main` that takes arguments stands in front of the function that it calls, and a statement without a
C++ form stands before and behind that function. -/
theorem translate_assembles_sample :
    let main := Stmt.functionDef .nowhere ⟨⟨"main", .nowhere⟩,
      [⟨⟨"args", .nowhere⟩, some (.list .nowhere [.name .nowhere "str"]), none, .positional, .nowhere⟩],
      [.expr .nowhere (.call .nowhere (.name .nowhere "f") [] [])], [], none, false⟩
    let f := Stmt.functionDef .nowhere ⟨⟨"f", .nowhere⟩, [], [.pass .nowhere], [], none, false⟩
    let bad := Stmt.ret .nowhere none
    let mainParts : Parts := ⟨["int main(int __argc, const char *__argv[]);"],
      ["int main(int __argc, const char *__argv[])\n\x7b\n    auto args = create_args(__argc, " ++
        "__argv);\n    f();\n\n    return 0;\n\x7d"]⟩
    let fParts : Parts := ⟨["void f();"], ["void f()\n\x7b\n\n\x7d"]⟩
    let fText := "#include \"mys.hpp\"\n\nvoid f();\n\nvoid f()\n\x7b\n\n\x7d\n"
    let e := LoweringError.unsupported .bareReturn .nowhere
    (partsOf [main] = .ok mainParts ∧ mainParts.Of [main]) ∧
    (partsOf [f] = .ok fParts ∧ partsOf ([main] ++ [f]) = .ok (mainParts.append fParts)) ∧
    translate ⟨[f]⟩ = .ok fText ∧
    (translate ⟨[bad]⟩ = .error e ∧ translate ⟨[bad] ++ [f]⟩ = .error e ∧
      translate ⟨[f] ++ [bad]⟩ = .error e) := by
  intro main f bad mainParts fParts fText e
  have hmain : partsOf [main] = .ok mainParts := by cbv
  have hf : partsOf [f] = .ok fParts := rfl
  have hbad : translate ⟨[bad]⟩ = .error e := rfl
  obtain ⟨-, hof, -, happend, -, -⟩ := translate_assembles [main] [f]
  obtain ⟨hparts, -, -, -, -, hsecond⟩ := translate_assembles [f] [bad]
  obtain ⟨-, -, -, -, hfirst, -⟩ := translate_assembles [bad] [f]
  have htext := (hparts fText).mpr ⟨fParts, hf, by decide⟩
  exact ⟨⟨hmain, hof _ hmain⟩, ⟨hf, happend _ _ hmain hf⟩, htext, hbad, hfirst _ hbad,
    hsecond _ _ htext hbad⟩

end MysToCpp.Cpp
