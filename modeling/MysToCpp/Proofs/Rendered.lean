/-
# Diagnostics in four lines

A diagnostic is shown in four lines, since its message stands in one: what the lexer quotes ends before a
line feed, what the parser names are tokens and kinds of expressions, and lowering quotes nothing but the
target of a declaration without a value.  That target is C++ code in a line unless one of its strings
holds C++ code of its own, which is taken over with its lines; then the message breaks the fourth line.
-/
import MysToCpp.Proofs.Lowered
import MysToCpp.Proofs.Source.Lines
import MysToCpp.Proofs.Token.Faults
import MysToCpp.Text.Unicode

namespace MysToCpp

open Lexer (IsIdentifier)
open Text (OneLine joinLines joinLines_cons joinLines_singleton oneLine_literal splitAt splitAt_joinLines)

/-! ## Messages -/

theorem oneLine_identifier [Text.IdentifierTable] {id : String} (h : IsIdentifier id) : OneLine id :=
  (Cpp.snug_identifier h).unbroken.not_mem

/-- What the lexer or the parser refuses is reported in a line. -/
theorem parseSource_oneLined [Text.IdentifierTable] {source : String} {e : SourceError}
    (h : parseSource source = .error e) :
    OneLine e.diagnostic.message := by
  unfold parseSource at h
  split at h
  · next lexical htokens =>
    cases h
    exact tokenize_oneLined htokens
  · next tokens htokens =>
    split at h
    · next grammatical hparse =>
      cases h
      have hkept := tokenize_kept False htokens False.elim
      have htells := parseTokens_tells hkept (fun _ => tokenize_placed htokens) hparse
      exact htells.oneLine fun _ => oneLine_identifier
    · cases h

/-- Only the target of a declaration is quoted. -/
theorem Unsupported.oneLine_message {what : Unsupported}
    (h : ∀ text, what = .uninitialized text → OneLine text) : OneLine what.message := by
  cases what with
  | mixedList count =>
      have hcount : OneLine (toString count) := (Cpp.snug_nat count).unbroken.not_mem
      have hstart : OneLine "lists must be homogeneous, found " := oneLine_literal (by decide)
      exact (hstart.append hcount).append (oneLine_literal (by decide))
  | uninitialized text =>
      have hstart : OneLine "variables must be initialized when declared ('" :=
        oneLine_literal (by decide)
      exact (hstart.append (h text rfl)).append (oneLine_literal (by decide))
  | _ => exact oneLine_literal (by decide)

/-- An expression without C++ code in its strings. -/
def Expr.Codeless (e : Expr) : Prop :=
  ∀ span s, (Node.expr e).Within (.expr (.constant span (.text s))) →
    ¬ Cpp.embeddedSentinel.toList <+: s.toList

theorem Module.Holds.within {m : Module} {x y : Node} (h : m.Holds x) (hy : x.Within y) : m.Holds y := by
  induction hy with
  | self => exact h
  | part hc _ ih => exact ih (h.part hc)

/-- An expression as the only statement of a module. -/
def Expr.alone (e : Expr) : Module := ⟨[.expr .nowhere e]⟩

theorem Expr.within_of_holds {e : Expr} {x : Node} (h : e.alone.Holds x) :
    x = .stmt (.expr .nowhere e) ∨ (Node.expr e).Within x := by
  obtain ⟨r, h⟩ := h
  induction h with
  | top hs =>
      rw [List.mem_singleton.mp hs]
      exact .inl rfl
  | part _ hc ih =>
      have hpart := Node.mem_parts hc
      rcases ih with rfl | hwithin
      · rw [List.mem_singleton.mp hpart]
        exact .inr (.self _)
      · exact .inr (hwithin.snoc hpart)
  | @decorator r x d _ hd ih =>
      rcases ih with rfl | hwithin
      · cases hd
      · have hstmt := hwithin.isStmt rfl
        cases x with
        | stmt s => cases hstmt
        | _ => cases hd

theorem Module.Holds.codeless {m : Module} {depth : Nat} {e : Expr}
    (hall : m.allWithin depth (!·.isEmbedded) = true) (h : m.Holds (.expr e)) : e.Codeless := by
  intro span s hs hprefix
  obtain ⟨r, hheld⟩ := h.within hs
  have hnot := hheld.of_allWithin hall
  have hyes : Cpp.embeddedSentinel.toList.isPrefixOf s.toList = true :=
    List.isPrefixOf_iff_prefix.mpr hprefix
  rw [Node.isEmbedded, hyes] at hnot
  cases hnot

section

variable [Text.IdentifierTable]

/-- The C++ text of an expression stands in a line if its names are identifiers and no string of it holds
C++ code. -/
theorem Expr.Codeless.oneLine {e : Expr} (h : e.Codeless)
    (hwords : ∀ x, (Node.expr e).Within x → x.Spelled IsIdentifier) {text : String}
    (htext : Cpp.lowerExpr e = .ok text) : OneLine text := by
  have hharmless : Cpp.Harmless e.alone := by
    constructor
    · intro x hx
      rcases Expr.within_of_holds hx with rfl | hwithin
      · trivial
      · exact hwords x hwithin
    · intro span s hs
      rcases Expr.within_of_holds hs with hstmt | hwithin
      · cases hstmt
      · exact h span s hwithin
  have hheld : e.alone.Holds (.expr e) := by
    have htop : e.alone.Holds (.stmt (.expr .nowhere e)) := ⟨.plain, .top List.mem_cons_self⟩
    exact htop.part List.mem_cons_self
  exact (Cpp.gives_lowerExpr hharmless hheld text htext).unbroken.not_mem

/-- What has no C++ form is reported in a line, unless it is a declaration whose target holds C++ code. -/
theorem transpileModule_oneLined {m : Module} {file : SourceFile} {d : Diagnostic} {rendered : String}
    (hwords : ∀ r x, m.Has r x → x.Spelled IsIdentifier)
    (hcode : ∀ r target hint, m.Has r (.stmt (.annAssign d.span target hint none)) → target.Codeless)
    (h : transpileModule m file = .error (.diagnostic d rendered)) : OneLine d.message := by
  unfold transpileModule at h
  cases hcpp : Cpp.translate m with
  | ok text =>
      rw [hcpp] at h
      cases h
  | error e =>
      rw [hcpp] at h
      cases e with
      | misdeclared what => cases h
      | unsupported what span =>
          cases h
          refine Unsupported.oneLine_message ?_
          intro text hwhat
          obtain ⟨x, hx, y, hwithin, hy⟩ := Cpp.accuses_translate m what span hcpp
          obtain ⟨stmt, hstmt, rfl⟩ := List.mem_map.mp hx
          have hheld : m.Holds y := Module.Holds.within ⟨.plain, .top hstmt⟩ hwithin
          obtain ⟨target, hint, rfl, htarget⟩ := hy.declared text hwhat
          obtain ⟨r, hdeclared⟩ := hheld
          have htargetHeld : m.Holds (.expr target) := hdeclared.child List.mem_cons_self
          refine (hcode r target hint hdeclared).oneLine ?_ htarget
          intro x hx
          obtain ⟨r', hx⟩ := htargetHeld.within hx
          exact hwords r' x hx

theorem transpile_oneLined {file : SourceFile} {d : Diagnostic} {rendered : String}
    (hcode : ∀ m r target hint, parseSource file.content = .ok m →
      m.Has r (.stmt (.annAssign d.span target hint none)) → target.Codeless)
    (h : transpile file = .error (.diagnostic d rendered)) : OneLine d.message := by
  unfold transpile at h
  cases hparse : parseSource file.content with
  | error e =>
      rw [hparse] at h
      cases h
      exact parseSource_oneLined hparse
  | ok m =>
      rw [hparse] at h
      have hwords (r : Role) (x : Node) (hx : m.Has r x) := parseSource_spelled hparse hx
      exact transpileModule_oneLined hwords (fun r target hint => hcode m r target hint hparse) h

end

/-! ## Lines -/

/-- The four lines that a diagnostic is shown in; `text` is the line of the file that it points at. -/
def Diagnostic.fourLines (d : Diagnostic) (name text : List Char) : List (List Char) :=
  ["  File \"".toList ++ name ++ "\", line ".toList ++ (toString d.span.start.line).toList,
    "    ".toList ++ text,
    "    ".toList ++ List.replicate (d.span.start.column - 1) ' ' ++ ['^'],
    d.kind.label.toList ++ ": ".toList ++ d.message.toList]

theorem Diagnostic.toList_render {d : Diagnostic} {file : SourceFile} {text : List Char}
    (htext : file.lineText? d.span.start.line = some text) :
    (d.render file).toList = joinLines (d.fourLines file.name.toList text) := by
  have hjoin (a b c e : List Char) :
      joinLines [a, b, c, e] = a ++ '\n' :: (b ++ '\n' :: (c ++ '\n' :: e)) := by
    rw [joinLines_cons _ (List.cons_ne_nil _ _), joinLines_cons _ (List.cons_ne_nil _ _),
      joinLines_cons _ (List.cons_ne_nil _ _), joinLines_singleton]
  have hfeed : "\n".toList = ['\n'] := rfl
  unfold render renderIn
  dsimp only
  rw [htext, fourLines, hjoin]
  simp only [TextStyle.paint, Bool.false_eq_true, if_false, Option.getD_some, String.toList_append,
    String.toList_ofList, hfeed, List.append_assoc, List.cons_append, List.nil_append]

theorem Diagnostic.splitAt_render {d : Diagnostic} {file : SourceFile} {text : List Char}
    (hname : OneLine file.name) (htext : file.lineText? d.span.start.line = some text)
    (hline : '\n' ∉ text) (hmessage : OneLine d.message) :
    splitAt '\n' (d.render file).toList = d.fourLines file.name.toList text := by
  have hnumber : '\n' ∉ (toString d.span.start.line).toList :=
    (Cpp.snug_nat d.span.start.line).unbroken.not_mem
  have hspaces : '\n' ∉ List.replicate (d.span.start.column - 1) ' ' :=
    fun h => absurd (List.eq_of_mem_replicate h) (by decide)
  have hlabel : '\n' ∉ d.kind.label.toList := by
    cases d.kind <;> decide
  rw [toList_render htext]
  refine splitAt_joinLines (List.cons_ne_nil _ _) ?_
  simp only [fourLines, List.forall_mem_cons, List.mem_append, not_or]
  refine ⟨⟨⟨⟨by decide, hname⟩, by decide⟩, hnumber⟩, ⟨by decide, hline⟩,
    ⟨⟨by decide, hspaces⟩, by decide⟩, ⟨⟨hlabel, by decide⟩, hmessage⟩, ?_⟩
  exact fun _ h => absurd h List.not_mem_nil

section

variable [Text.IdentifierTable]

theorem rendered_eq {file : SourceFile} {d : Diagnostic} {rendered : String}
    (h : transpile file = .error (.diagnostic d rendered)) : rendered = d.render file := by
  unfold transpile at h
  split at h
  · cases h
    rfl
  · next m hparse =>
    unfold transpileModule at h
    cases hcpp : Cpp.translate m with
    | ok text =>
        rw [hcpp] at h
        cases h
    | error e =>
        rw [hcpp] at h
        cases e with
        | unsupported what span =>
            cases h
            rfl
        | misdeclared what => cases h

/-- The diagnostic of a file, if there is one. -/
def diagnosed? (file : SourceFile) : Option Diagnostic :=
  match transpile file with
  | .error (.diagnostic d _) => some d
  | _ => none

theorem diagnosed?_eq_some {file : SourceFile} {d : Diagnostic} (h : diagnosed? file = some d) :
    transpile file = .error (.diagnostic d (d.render file)) := by
  unfold diagnosed? at h
  split at h
  · next d' rendered herror =>
    cases h
    rw [herror, rendered_eq herror]
  · cases h

/-- A diagnostic of a file without a line feed in its name is shown in exactly four lines, unless it is
about a declaration whose target holds C++ code. -/
theorem transpile_fourLines {file : SourceFile} {d : Diagnostic} {rendered : String}
    (hname : OneLine file.name)
    (hcode : ∀ m r target hint, parseSource file.content = .ok m →
      m.Has r (.stmt (.annAssign d.span target hint none)) → target.Codeless)
    (h : transpile file = .error (.diagnostic d rendered)) :
    1 ≤ d.span.start.line ∧ ∃ text,
      (splitAt '\n' file.chars)[d.span.start.line - 1]? = some text ∧
      splitAt '\n' rendered.toList =
        d.fourLines file.name.toList (SourceFile.dropReturns text) := by
  obtain ⟨hpos, hle⟩ := (transpile_pointsInto h).start.line
  obtain ⟨k, hk⟩ := Nat.exists_eq_add_of_le' hpos
  have hcount : k < (splitAt '\n' file.chars).length := by
    rw [← file.lineCount_eq]
    omega
  have hpiece := List.getElem?_eq_getElem hcount
  generalize (splitAt '\n' file.chars)[k] = text at hpiece
  have hline : file.lineText? d.span.start.line = some (SourceFile.dropReturns text) := by
    rw [hk, file.lineText?_succ, hpiece]
    rfl
  have hunbroken : '\n' ∉ SourceFile.dropReturns text := file.not_mem_of_lineText? (hk ▸ hline)
  refine ⟨hpos, text, ?_, ?_⟩
  · rw [hk, Nat.add_sub_cancel]
    exact hpiece
  · rw [rendered_eq h]
    exact Diagnostic.splitAt_render hname hline hunbroken (transpile_oneLined hcode h)

end

/-- The line of the declaration ends with a return, which is not shown. -/
theorem transpile_fourLines_sample : ∃ d rendered,
    transpile ⟨"a.mys", "if a:\n    x: int\r\n"⟩ = .error (.diagnostic d rendered) ∧
    splitAt '\n' rendered.toList =
      ["  File \"a.mys\", line 2".toList, "        x: int".toList, "        ^".toList,
        "LanguageError: variables must be initialized when declared ('x')".toList] := by
  have h := diagnosed?_eq_some (by decide +kernel :
    diagnosed? ⟨"a.mys", "if a:\n    x: int\r\n"⟩ = some ⟨.languageError,
      "variables must be initialized when declared ('x')", ⟨⟨2, 5, 10⟩, ⟨2, 11, 16⟩⟩⟩)
  obtain ⟨m, hparse, hall⟩ := exists_parsed (by decide +kernel : (parseSource
    "if a:\n    x: int\r\n").toOption.any (·.allWithin 4 (!·.isEmbedded)) = true)
  have hname : OneLine "a.mys" := oneLine_literal (by decide)
  obtain ⟨-, text, htext, hlines⟩ := transpile_fourLines hname (by
    intro m' r target hint hparse' hdeclared
    cases hparse.symm.trans hparse'
    have hheld : m.Holds (.expr target) := hdeclared.child List.mem_cons_self
    exact hheld.codeless hall) h
  have hpiece : (splitAt '\n' "if a:\n    x: int\r\n".toList)[1]? = some "    x: int\r".toList := by
    decide +kernel
  cases hpiece.symm.trans htext
  refine ⟨_, _, h, hlines.trans ?_⟩
  decide +kernel

/-- The C++ code that the target of a declaration holds is quoted with its lines. -/
theorem transpile_moreLines : OneLine "a.mys" ∧ ∃ d rendered,
    transpile ⟨"a.mys", "'mys-embedded-c++'.x: int\n"⟩ = .error (.diagnostic d rendered) ∧
    (splitAt '\n' rendered.toList).length = 8 := by
  have h := diagnosed?_eq_some (by decide +kernel :
    diagnosed? ⟨"a.mys", "'mys-embedded-c++'.x: int\n"⟩ = some ⟨.languageError,
      "variables must be initialized when declared (" ++
        "'/* mys-embedded-c++ start */\n\n\n\n/* mys-embedded-c++ stop */.x')",
      ⟨⟨1, 1, 0⟩, ⟨1, 26, 25⟩⟩⟩)
  have hline : SourceFile.lineText? ⟨"a.mys", "'mys-embedded-c++'.x: int\n"⟩ 1 =
      some "'mys-embedded-c++'.x: int".toList := by decide +kernel
  refine ⟨oneLine_literal (by decide), _, _, h, ?_⟩
  rw [Diagnostic.toList_render hline]
  decide +kernel

end MysToCpp
