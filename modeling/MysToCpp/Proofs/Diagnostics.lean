/-
# Diagnostics point into the source

A text that has no C++ form is refused by the lexer, by the parser or by lowering.  The places that are
reported come from three sources: the cursor of the lexer, the spans of tokens and the spans of nodes.
Each of them is known to lie between places of the text, so the diagnostic of a file, whichever stage
it comes from, can be shown in the file.
-/
import MysToCpp.Proofs.Cpp.Blamed
import MysToCpp.Proofs.Parser.Statements
import MysToCpp.Proofs.Token.Given
import MysToCpp.Text.Unicode
import MysToCpp.Transpile

namespace MysToCpp

open Position (IsPlace)

section

variable [Text.IdentifierTable]

/-- What the lexer or the parser refuses is reported between places of the text. -/
theorem parseSource_between {source : String} {e : SourceError}
    (h : parseSource source = .error e) : e.diagnostic.span.Between (IsPlace source.toList) := by
  unfold parseSource at h
  split at h
  · next lexical htokens =>
    cases h
    exact tokenize_error htokens
  · next tokens htokens =>
    split at h
    · next grammatical hparse =>
      cases h
      have hkept := tokenize_kept False htokens False.elim
      exact (parseTokens_tells hkept (fun _ => tokenize_placed htokens) hparse).between trivial
    · cases h

theorem parseSource_cases {source : String} {m : Module} (h : parseSource source = .ok m) :
    ∃ tokens, tokenize source = .ok tokens ∧ parseTokens tokens = .ok m := by
  unfold parseSource at h
  split at h
  · cases h
  · next tokens htokens =>
    split at h
    · cases h
    · next tree hparse =>
      cases h
      exact ⟨tokens, htokens, hparse⟩

theorem parseSource_formed (filled : Prop) {source : String} {m : Module}
    (h : parseSource source = .ok m) (hopens : filled → ∀ tokens, tokenize source = .ok tokens →
      Lexer.NoBackslashOpens source.toList tokens) :
    (∀ st ∈ m.body, st.Formed (Lexer.promise source.toList filled)) ∧ Node.Follow m.body := by
  obtain ⟨tokens, htokens, hparse⟩ := parseSource_cases h
  have hkept := tokenize_kept filled htokens fun hfilled => hopens hfilled tokens htokens
  obtain ⟨hformed, hfollow⟩ := parseTokens_formed hkept (fun _ => tokenize_placed htokens) hparse
  exact ⟨hformed, hfollow trivial⟩

theorem parseSource_nested {source : String} {m : Module} (h : parseSource source = .ok m) :
    ∀ stmt ∈ m.body, (Node.stmt stmt).Nested (IsPlace source.toList) := fun stmt hs =>
  ((parseSource_formed False h False.elim).1 stmt hs).nested trivial

omit [Text.IdentifierTable] in
/-- What lowering reports about a tree is shown with the span it is reported at. -/
theorem transpileModule_between {place : Position → Prop} {m : Module} {file : SourceFile}
    {d : Diagnostic} {rendered : String} (hm : ∀ stmt ∈ m.body, (Node.stmt stmt).Nested place)
    (h : transpileModule m file = .error (.diagnostic d rendered)) : d.span.Between place := by
  unfold transpileModule at h
  cases hcpp : Cpp.translate m with
  | ok text =>
      rw [hcpp] at h
      cases h
  | error e =>
      rw [hcpp] at h
      cases e with
      | misdeclared what => cases h
      | unsupported what span =>
          cases h
          exact Cpp.blames_translate hm what span hcpp

/-- Every diagnostic of a file points into the file. -/
theorem transpile_pointsInto {file : SourceFile} {d : Diagnostic} {rendered : String}
    (h : transpile file = .error (.diagnostic d rendered)) : d.span.PointsInto file := by
  unfold transpile at h
  cases hparse : parseSource file.content with
  | error e =>
      rw [hparse] at h
      cases h
      exact (parseSource_between hparse).pointsInto
  | ok m =>
      rw [hparse] at h
      exact (transpileModule_between (parseSource_nested hparse) h).pointsInto

/-- Where the diagnostic of a file points, if there is one. -/
def diagnosedSpan? (file : SourceFile) : Option Span :=
  match transpile file with
  | .error (.diagnostic d _) => some d.span
  | _ => none

theorem diagnosedSpan?_eq_some {file : SourceFile} {x : Span} (h : diagnosedSpan? file = some x) :
    ∃ d rendered, transpile file = .error (.diagnostic d rendered) ∧ d.span = x := by
  unfold diagnosedSpan? at h
  split at h
  · next d rendered herror => exact ⟨d, rendered, herror, Option.some.inj h⟩
  · cases h

end

/-- A text for each stage: a character that starts no token, a literal that is assigned to and an
argument that a call in C++ cannot have. -/
theorem transpile_pointsInto_samples :
    (∃ d rendered, transpile ⟨"a.mys", "x = 1\n$"⟩ = .error (.diagnostic d rendered) ∧
      d.span = ⟨⟨2, 1, 6⟩, ⟨2, 2, 7⟩⟩ ∧ d.span.PointsInto ⟨"a.mys", "x = 1\n$"⟩) ∧
    (∃ d rendered, transpile ⟨"a.mys", "é, 'a' = 1"⟩ = .error (.diagnostic d rendered) ∧
      d.span = ⟨⟨1, 4, 4⟩, ⟨1, 7, 7⟩⟩ ∧ d.span.PointsInto ⟨"a.mys", "é, 'a' = 1"⟩) ∧
    ∃ d rendered, transpile ⟨"a.mys", "f('é', k=1)"⟩ = .error (.diagnostic d rendered) ∧
      d.span = ⟨⟨1, 8, 8⟩, ⟨1, 11, 11⟩⟩ ∧ d.span.PointsInto ⟨"a.mys", "f('é', k=1)"⟩ := by
  -- whole runs are evaluated by the kernel alone
  obtain ⟨d₁, text₁, h₁, hspan₁⟩ := diagnosedSpan?_eq_some (by decide +kernel :
    diagnosedSpan? ⟨"a.mys", "x = 1\n$"⟩ = some ⟨⟨2, 1, 6⟩, ⟨2, 2, 7⟩⟩)
  obtain ⟨d₂, text₂, h₂, hspan₂⟩ := diagnosedSpan?_eq_some (by decide +kernel :
    diagnosedSpan? ⟨"a.mys", "é, 'a' = 1"⟩ = some ⟨⟨1, 4, 4⟩, ⟨1, 7, 7⟩⟩)
  obtain ⟨d₃, text₃, h₃, hspan₃⟩ := diagnosedSpan?_eq_some (by decide +kernel :
    diagnosedSpan? ⟨"a.mys", "f('é', k=1)"⟩ = some ⟨⟨1, 8, 8⟩, ⟨1, 11, 11⟩⟩)
  exact ⟨⟨d₁, text₁, h₁, hspan₁, transpile_pointsInto h₁⟩,
    ⟨d₂, text₂, h₂, hspan₂, transpile_pointsInto h₂⟩,
    d₃, text₃, h₃, hspan₃, transpile_pointsInto h₃⟩

end MysToCpp
