/-
# Line ends do not matter

A text has the same tokens whether its lines end with a line feed or with a return and a line feed, but for
the line ends in the values of its strings.  This is so as long as no string escapes a line end, since a
return that is escaped is not dropped as a line feed is; raw literals between three quotes may do so.
-/
import MysToCpp.Proofs.Token.Alike
import MysToCpp.Text.Unicode

namespace MysToCpp

/-- The characters of a text with a return in front of every line feed. -/
def putReturns (cs : List Char) : List Char := cs.flatMap fun c => if c = '\n' then ['\r', '\n'] else [c]

/-- A text whose lines end with a return and a line feed. -/
def withReturns (source : String) : String := .ofList (putReturns source.toList)

namespace Variation

theorem matches_putReturns {cs : List Char} (h : '\r' ∉ cs) :
    Matches { returns := true } cs (putReturns cs) := by
  induction cs with
  | nil => exact .nil rfl
  | cons x cs ih =>
      rw [List.mem_cons, not_or] at h
      have hcons : putReturns (x :: cs) = (if x = '\n' then ['\r', '\n'] else [x]) ++ putReturns cs :=
        List.flatMap_cons
      rw [hcons]
      split
      · next hfeed =>
        subst hfeed
        exact .lineEnd rfl (ih h.2)
      · exact .same x (fun _ => Ne.symm h.1) (ih h.2)

end Variation

open Variation in
/-- A text without returns has the same tokens with returns in front of its line feeds, but for those in
its strings, if every token that escapes a line end is a raw literal between three quotes. -/
theorem tokenize_withReturns [Text.IdentifierTable] (source : String) (ts : List Token)
    (hplain : '\r' ∉ source.toList)
    (h : tokenize source = .ok ts)
    (hescape : ∀ t ∈ ts, ∀ text ∈ t.textIn source, escapesLineEnd text = true →
      opensRawBlock text = true) :
    ∃ ts', tokenize (withReturns source) = .ok ts' ∧
      List.Forall₂ (fun t t' => SameButReturns t.kind t'.kind) ts ts' := by
  obtain ⟨init, last, hruns, rfl⟩ := tokenize_eq_ok.mp h
  have hrest : Matches { returns := true } source.toList (withReturns source).toList := by
    rw [withReturns, String.toList_ofList]
    exact matches_putReturns hplain
  have halike := alike_ofText hrest
  have hv := Lexer.valid_ofText source
  obtain ⟨ts', last', hruns', hall⟩ := runs_alike hruns halike hv (Lexer.valid_ofText _) rfl
    fun before t after lx₁ lx₂ hsplit hbefore hemits => by
      have hstart : (Lexer.ofText source).cursor.Stands source.toList := ⟨[], rfl, rfl⟩
      obtain ⟨hv₁, hstands⟩ := hbefore.stands hv hstart
      obtain ⟨_, _, -, -, hspan, -⟩ := hemits.written
      refine ⟨nofun, nofun, fun gap text c hgap htext hstart _ hescaped => ?_⟩
      have hslice := ((hstands.reads hgap).1.reads htext).2.2
      refine hescape t ?_ text ?_ hescaped
      · rw [hsplit]
        simp
      · rw [Token.textIn, hstart, hspan]
        exact hslice
  refine ⟨_, tokenize_eq_ok.mpr ⟨ts', last', hruns', rfl⟩, ?_⟩
  refine List.rel_append (hall.imp fun _ _ htells => htells.1) ?_
  exact .cons (.same .endOfFile) .nil

/-- Line ends in brackets, behind a token, a comment and a backslash, in front of a block, in a string and
escaped in a raw one, and on a line of their own. -/
theorem tokenize_withReturns_sample :
    let source := "if f(\n1):\n\n  # x\n  r'''a\\\nb''' + \\\n  '''c\nd'''\n"
    ∃ ts ts', tokenize source = .ok ts ∧ tokenize (withReturns source) = .ok ts' ∧
      ts.map (·.kind) = [.keyword .ifKw, .name "f", .punct .parenOpen, .int 1, .punct .parenClose,
        .punct .colon, .newline, .indent, .text "a\\\nb", .punct .plus, .text "c\nd", .newline, .dedent,
        .endOfFile] ∧
      List.Forall₂ (fun t t' => SameButReturns t.kind t'.kind) ts ts' := by
  intro source
  have hcheck : (tokenize source).toOption.any (fun ts => decide (
      ts.map (·.kind) = [.keyword .ifKw, .name "f", .punct .parenOpen, .int 1, .punct .parenClose,
        .punct .colon, .newline, .indent, .text "a\\\nb", .punct .plus, .text "c\nd", .newline, .dedent,
        .endOfFile] ∧
      ∀ t ∈ ts, ∀ text ∈ t.textIn source, escapesLineEnd text = true → opensRawBlock text = true)) =
        true := by
    decide +kernel
  obtain ⟨ts, hts, hchecked⟩ := exists_tokens hcheck
  obtain ⟨hkinds, hescape⟩ := of_decide_eq_true hchecked
  obtain ⟨ts', hts', hsame⟩ := tokenize_withReturns source ts (by decide) hts hescape
  exact ⟨ts, ts', hts, hts', hkinds, hsame⟩

/-- A string that escapes a line end is not ended where the line ends with a return. -/
theorem tokenize_escaped_return :
    let source := "\"a\\\nb\"\n"
    '\r' ∉ source.toList ∧
    (∃ ts, tokenize source = .ok ts ∧ ts.map (·.kind) = [.text "ab", .newline, .endOfFile]) ∧
    ∃ e, tokenize (withReturns source) = .error e ∧ e.fault = .unterminatedString :=
  ⟨by decide, ⟨_, rfl, rfl⟩, ⟨_, rfl, rfl⟩⟩

end MysToCpp
