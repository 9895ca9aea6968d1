/-
# The entry point

`main` is checked by the C++ text of its result and of its parameters, not by its annotations.  The text
of a result is `void` for no annotation, for `None` and for the name `void` itself (`NoResult`), and the
text of a parameter starts like a list of strings only where the annotation is `[str]` (`TakesStrings`):
all other types start with other characters.  So the check admits exactly the functions that
`translate_main` lists, and these are announced as C++ wants its `main`.
-/
import MysToCpp.Proofs.Cpp.Assembly
import MysToCpp.Proofs.Cpp.TypeTree

namespace MysToCpp.Cpp

open Text (indent)

/-! ## No result -/

/-- The annotations of a function without a result.  A name passes through, and so does that of `void`. -/
inductive NoResult : Option Expr → Prop
  | absent : NoResult none
  | none (span) : NoResult (some (.constant span .none))
  | void (span) : NoResult (some (.name span "void"))

theorem typeName_eq_void {id : String} : typeName id = "void" ↔ id = "void" := by
  unfold typeName
  split
  · next h =>
    rw [h]
    decide
  · exact .rfl

theorem getLast?_template (name : String) (args : List String) :
    (template name args).toList.getLast? = some '>' := by
  rw [template, String.toList_append]
  exact List.getLast?_append_of_ne_nil _ (by decide)

/-- Only a name has a type without an angle bracket behind it. -/
theorem resolveType_eq_void {e : Expr} : resolveType e = .ok "void" ↔ ∃ span, e = .name span "void" := by
  constructor
  · intro h
    obtain ⟨t, ht, htext⟩ := resolveType_eq_ok.mp h
    cases ht with
    | name span id => exact ⟨span, by rw [typeName_eq_void.mp htext.symm]⟩
    | optional | list | tuple | dict =>
        have hlast := congrArg (fun s : String => s.toList.getLast?) htext
        simp only [CppType.text, getLast?_template] at hlast
        exact absurd hlast (by decide)
  · rintro ⟨span, rfl⟩
    rfl

theorem returnType_eq_void {returns : Option Expr} : returnType returns = .ok "void" ↔ NoResult returns := by
  constructor
  · intro h
    unfold returnType at h
    split at h
    · exact .absent
    · exact .none _
    · obtain ⟨span, rfl⟩ := resolveType_eq_void.mp h
      exact .void span
  · rintro (_ | span | span) <;> rfl

/-! ## The arguments of the program -/

/-- A parameter for the arguments of the program. -/
structure TakesStrings (p : Param) : Prop where
  kind : p.kind = .positional
  default : p.default = none
  hint : ∃ outer inner, p.hint = some (.list outer [.name inner "str"])

/-- What `main` may take. -/
inductive EntryParams : List Param → Prop
  | none : EntryParams []
  | strings {p} : TakesStrings p → EntryParams [p]

theorem head?_append_of_some {a : List Char} {x : Char} (b : List Char) (h : a.head? = some x) :
    (a ++ b).head? = some x := by
  rw [List.head?_append, h]
  rfl

theorem head?_template {name : String} {x : Char} (args : List String) (h : name.toList.head? = some x) :
    (template name args).toList.head? = some x := by
  simp only [template, String.toList_append, List.append_assoc]
  exact head?_append_of_some _ h

theorem head?_heldName {id : String} (h : id ≠ "str") :
    (heldName id).text.toList.head? ∈ [some 'i', some 'f', some 'b', some 's'] := by
  rw [heldName, if_neg h]
  split
  · next hprimitive =>
    simp only [isPrimitive, Bool.or_eq_true, decide_eq_true_eq] at hprimitive
    rcases hprimitive with (rfl | rfl) | rfl <;> decide
  · rw [CppType.text, head?_template _ rfl]
    decide

/-- The types of containers and optional values do not start like that of strings. -/
theorem Resolves.head? {e : Expr} {t : CppType} (h : Resolves e t) (hname : e.name? = none) :
    t.text.toList.head? ∈ [some 's', some 'L', some 'T', some 'D'] := by
  cases h with
  | name => cases hname
  | optional | list | tuple | dict =>
      rw [CppType.text, head?_template _ rfl]
      decide

theorem Held.strings {e : Expr} {t : CppType} (h : Held e t) (hstart : t.text.toList.head? = some 'S') :
    ∃ span, e = .name span "str" := by
  cases h with
  | name span id =>
      by_cases hstr : id = "str"
      · exact ⟨span, by rw [hstr]⟩
      · have hhead := head?_heldName hstr
        rw [hstart] at hhead
        exact absurd hhead (by decide)
  | nested hname ht =>
      have hhead := ht.head? hname
      rw [hstart] at hhead
      exact absurd hhead (by decide)

theorem Passed.list_of_head {hint : Expr} {t : CppType} (h : Passed hint t)
    (hstart : t.text.toList.head? = some 'L') :
    ∃ span e element, hint = .list span [e] ∧ Held e element ∧ t = .list element := by
  cases h with
  | list span he => exact ⟨span, _, _, rfl, he, rfl⟩
  | name span id =>
      by_cases hstr : id = "str"
      · rw [hstr] at hstart
        exact absurd hstart (by decide)
      · have hhead := head?_heldName hstr
        rw [hstart] at hhead
        exact absurd hhead (by decide)
  | optional | tuple | dict =>
      rw [CppType.text, head?_template _ rfl] at hstart
      exact absurd hstart (by decide)

theorem head?_of_append {a b : List Char} {x y : Char} (h : (a ++ b).head? = some x)
    (hb : b.head? = some y) (hne : x ≠ y) : a.head? = some x := by
  cases a with
  | nil =>
      rw [List.nil_append, hb] at h
      exact absurd (Option.some.inj h).symm hne
  | cons z a => exact h

theorem head?_extended {a b : List Char} {x : Char} (h : a <+: b) (ha : a.head? = some x) :
    b.head? = some x := by
  obtain ⟨more, rfl⟩ := h
  exact head?_append_of_some more ha

/-- What the declaration of a list of strings starts with. -/
def stringsStart : String := "List<String>& "

theorem head?_passed {hint : Expr} {t : CppType} {name : String}
    (h : stringsStart.toList <+:
      ((if byValue hint then t.text else t.text ++ "&") ++ " " ++ name).toList) :
    t.text.toList.head? = some 'L' := by
  have hhead := head?_extended h rfl
  split at hhead
  all_goals
    simp only [String.toList_append, List.append_assoc] at hhead
    exact head?_of_append hhead (head?_append_of_some _ rfl) (by decide)

theorem toList_listText (element : CppType) (name : String) :
    (element.list.text ++ "&" ++ " " ++ name).toList =
      "List<".toList ++ (element.text.toList ++ (">& ".toList ++ name.toList)) := by
  simp [CppType.text, template, commas]

/-- A parameter is declared as a list of strings if it is annotated as one, and otherwise its text does not
even start like that. -/
theorem paramText_strings (function : String) {p : Param} :
    (∃ text, paramText function p = .ok text ∧ startsWith stringsStart text = true) ↔ TakesStrings p := by
  constructor
  · rintro ⟨text, htext, hstart⟩
    obtain ⟨hkind, hdefault, hint, type, hhint, htype, rfl⟩ := paramText_eq_ok.mp htext
    obtain ⟨t, ht, rfl⟩ := passed_of_paramType htype
    rw [startsWith, List.isPrefixOf_iff_prefix] at hstart
    obtain ⟨span, e, element, rfl, he, rfl⟩ := ht.list_of_head (head?_passed hstart)
    -- the rest of the start is that of the element
    have helement : "String>& ".toList <+: element.text.toList ++ (">& ".toList ++ p.name.name.toList) := by
      refine (List.prefix_append_right_inj "List<".toList).mp ?_
      rw [← toList_listText]
      exact hstart
    have hhead := head?_of_append (head?_extended helement rfl) rfl (by decide)
    obtain ⟨inner, rfl⟩ := he.strings hhead
    exact ⟨hkind, hdefault, span, inner, hhint⟩
  · rintro ⟨hkind, hdefault, outer, inner, hhint⟩
    refine ⟨stringsStart ++ p.name.name, ?_, ?_⟩
    · exact paramText_eq_ok.mpr ⟨hkind, hdefault, _, "List<String>&", hhint, rfl, rfl⟩
    · rw [startsWith, List.isPrefixOf_iff_prefix, String.toList_append]
      exact List.prefix_append _ _

/-! ## The check -/

/-- How `main` is announced: with the arguments of the program, or without. -/
def mainPrototype (params : List Param) : String :=
  if params.isEmpty then "int main()" else "int main(int __argc, const char *__argv[])"

/-- How `main` comes by its parameter. -/
def mainPrelude (params : List Param) : List String :=
  params.map fun p => indent ("auto " ++ p.name.name ++ " = create_args(__argc, __argv);")

theorem paramTexts_cons {function : String} {p : Param} {rest : List Param} {texts : List String}
    (h : paramTexts function (p :: rest) = .ok texts) :
    ∃ text more, paramText function p = .ok text ∧ paramTexts function rest = .ok more ∧
      texts = text :: more := by
  rw [paramTexts, List.mapM_cons] at h
  obtain ⟨text, htext, h⟩ := bind_eq_ok h
  obtain ⟨more, hmore, h⟩ := bind_eq_ok h
  cases h
  exact ⟨text, more, htext, hmore, rfl⟩

theorem EntryParams.declared {params : List Param} (h : EntryParams params) (function : String) :
    ∃ texts, paramTexts function params = .ok texts := by
  cases h with
  | none => exact ⟨[], rfl⟩
  | strings hp =>
      obtain ⟨text, htext, -⟩ := (paramText_strings function).mpr hp
      refine ⟨[text], ?_⟩
      rw [paramTexts, List.mapM_cons, htext]
      rfl

/-- Parameters that are declared pass the check of `main` if they are what it may take. -/
theorem mainSignature_eq_ok {f : FunctionDef} {texts : List String} {sig : Signature}
    (htexts : paramTexts f.name.name f.params = .ok texts) :
    mainSignature f texts = .ok sig ↔
      EntryParams f.params ∧ sig = ⟨mainPrototype f.params, mainPrelude f.params⟩ := by
  obtain ⟨name, params, body, decorators, returns, isAsync⟩ := f
  cases params with
  | nil =>
      cases htexts
      refine ⟨fun h => ?_, fun h => ?_⟩
      · cases h
        exact ⟨.none, rfl⟩
      · rw [h.2]
        rfl
  | cons p rest =>
      obtain ⟨text, more, htext, hmore, rfl⟩ := paramTexts_cons htexts
      cases rest with
      | nil =>
          obtain rfl : [] = more := Except.ok.inj hmore
          constructor
          · intro h
            rw [mainSignature] at h
            split at h
            · next hstart =>
              cases h
              exact ⟨.strings ((paramText_strings _).mp ⟨text, htext, hstart⟩), rfl⟩
            · cases h
          · rintro ⟨⟨⟩ | hp, rfl⟩
            obtain ⟨text', htext', hstart⟩ := (paramText_strings name.name).mpr hp
            cases htext.symm.trans htext'
            rw [mainSignature]
            exact if_pos hstart
      | cons q rest =>
          obtain ⟨second, more, -, -, rfl⟩ := paramTexts_cons hmore
          constructor
          · intro h
            cases h
          · rintro ⟨h, -⟩
            cases h

theorem signature_main {f : FunctionDef} (hname : f.name.name = "main") {sig : Signature} :
    signature f = .ok sig ↔ NoResult f.returns ∧ EntryParams f.params ∧
      sig = ⟨mainPrototype f.params, mainPrelude f.params⟩ := by
  rw [← returnType_eq_void]
  constructor
  · intro h
    obtain ⟨result, hresult, h⟩ := bind_eq_ok h
    obtain ⟨texts, htexts, h⟩ := bind_eq_ok h
    rw [if_pos hname] at h
    split at h
    · next hvoid =>
      rw [hvoid] at hresult
      exact ⟨hresult, (mainSignature_eq_ok htexts).mp h⟩
    · cases h
  · rintro ⟨hresult, hparams, rfl⟩
    obtain ⟨texts, htexts⟩ := hparams.declared f.name.name
    rw [signature, hresult, htexts]
    exact (if_pos hname).trans ((if_pos rfl).trans ((mainSignature_eq_ok htexts).mpr ⟨hparams, rfl⟩))

/-! ## The module of an entry point -/

/-- The text of a module that holds only an entry point, whose body has a single statement without a text
of its own. -/
def entryModule (proto : String) (prelude : List String) : String :=
  "\n\n".intercalate ["#include \"mys.hpp\"", proto ++ ";",
    unlines (proto :: "\x7b" :: (prelude ++ ["", "", "    return 0;"]) ++ ["\x7d"])] ++ "\n"

section

variable (span : Span) {passes : Span} {f : FunctionDef} (hname : f.name.name = "main")
  (hbody : f.body = [.pass passes]) (hdecorators : f.decorators = []) (hasync : f.isAsync = false)

include hname hbody hdecorators hasync

/-- The module has the signature of its function and fails as that does. -/
theorem translate_entry : translate ⟨[.functionDef span f]⟩ =
    (do let sig ← signature f; .ok (entryModule sig.prototype sig.prelude)) := by
  have hplain : ¬ (f.isAsync || !f.decorators.isEmpty) = true := by
    rw [hasync, hdecorators]
    decide
  rw [translate_eq, partsOf_singleton, declare, if_neg hplain, functionText, hname, hbody]
  cases signature f with
  | error e => rfl
  | ok sig =>
      have hlines : sig.prelude ++ [""].map indent ++ epilogue "main" =
          sig.prelude ++ ["", "", "    return 0;"] := by
        rw [List.append_assoc]
        rfl
      show Except.ok _ = Except.ok (entryModule sig.prototype sig.prelude)
      rw [entryModule, ← hlines]
      rfl

end

/-- A plain `main` whose body is `pass` is translated exactly if it has no result, or one named `void`, and
takes nothing or one list of strings; then it is announced as C++ wants it, and what it takes is rebuilt
under its own name. -/
theorem translate_main {span passes : Span} {f : FunctionDef} (hname : f.name.name = "main")
    (hbody : f.body = [.pass passes]) (hdecorators : f.decorators = []) (hasync : f.isAsync = false) :
    ((∃ text, translate ⟨[.functionDef span f]⟩ = .ok text) ↔
      NoResult f.returns ∧ EntryParams f.params) ∧
    (NoResult f.returns → f.params = [] →
      translate ⟨[.functionDef span f]⟩ = .ok (entryModule "int main()" [])) ∧
    ∀ p, NoResult f.returns → f.params = [p] → TakesStrings p →
      translate ⟨[.functionDef span f]⟩ = .ok (entryModule "int main(int __argc, const char *__argv[])"
        [indent ("auto " ++ p.name.name ++ " = create_args(__argc, __argv);")]) := by
  have hentry := translate_entry span hname hbody hdecorators hasync
  have hok (hresult : NoResult f.returns) (hparams : EntryParams f.params) :
      translate ⟨[.functionDef span f]⟩ =
        .ok (entryModule (mainPrototype f.params) (mainPrelude f.params)) := by
    rw [hentry, (signature_main hname).mpr ⟨hresult, hparams, rfl⟩]
    rfl
  refine ⟨⟨?_, ?_⟩, ?_, ?_⟩
  · rintro ⟨text, htext⟩
    rw [hentry] at htext
    obtain ⟨sig, hsig, -⟩ := bind_eq_ok htext
    obtain ⟨hresult, hparams, -⟩ := (signature_main hname).mp hsig
    exact ⟨hresult, hparams⟩
  · rintro ⟨hresult, hparams⟩
    exact ⟨_, hok hresult hparams⟩
  · intro hresult hnone
    have h := hok hresult (hnone ▸ .none)
    rw [hnone] at h
    exact h
  · intro p hresult hone hp
    have h := hok hresult (hone ▸ .strings hp)
    rw [hone] at h
    exact h

/-- `def main(argv: [str]) -> None: pass` -/
def mainWithStrings : FunctionDef where
  name := ⟨"main", .nowhere⟩
  params := [⟨⟨"argv", .nowhere⟩, some (.list .nowhere [.name .nowhere "str"]), none, .positional, .nowhere⟩]
  body := [.pass .nowhere]
  decorators := []
  returns := some (.constant .nowhere .none)
  isAsync := false

theorem translate_main_argv :
    mainWithStrings.name.name = "main" ∧ mainWithStrings.body = [.pass .nowhere] ∧
      mainWithStrings.decorators = [] ∧ mainWithStrings.isAsync = false ∧
      NoResult mainWithStrings.returns ∧ EntryParams mainWithStrings.params ∧
      translate ⟨[.functionDef .nowhere mainWithStrings]⟩ =
        .ok ("#include \"mys.hpp\"\n\nint main(int __argc, const char *__argv[]);\n\n" ++
          "int main(int __argc, const char *__argv[])\n\x7b\n    auto argv = create_args(__argc, " ++
          "__argv);\n\n\n    return 0;\n\x7d\n") := by
  have hp : TakesStrings ⟨⟨"argv", .nowhere⟩, some (.list .nowhere [.name .nowhere "str"]), none,
      .positional, .nowhere⟩ := ⟨rfl, rfl, _, _, rfl⟩
  obtain ⟨-, -, htext⟩ := @translate_main .nowhere .nowhere mainWithStrings rfl rfl rfl rfl
  refine ⟨rfl, rfl, rfl, rfl, .none _, .strings hp, (htext _ (.none _) rfl hp).trans ?_⟩
  cbv

/-- A result named `void` passes for none. -/
theorem translate_main_void :
    let f : FunctionDef :=
      ⟨⟨"main", .nowhere⟩, [], [.pass .nowhere], [], some (.name .nowhere "void"), false⟩
    ¬ (f.returns = none ∨ ∃ span, f.returns = some (.constant span .none)) ∧
      translate ⟨[.functionDef .nowhere f]⟩ =
        .ok "#include \"mys.hpp\"\n\nint main();\n\nint main()\n\x7b\n\n\n    return 0;\n\x7d\n" := by
  intro f
  refine ⟨?_, by decide⟩
  rintro (h | ⟨span, h⟩) <;> cases h

end MysToCpp.Cpp
