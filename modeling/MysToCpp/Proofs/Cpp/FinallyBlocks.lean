/-
# Code in front of a block that runs in any case

Where a block runs in any case, the code in front of it stands in a block of its own.  Code with handlers
goes there one level to the right.  Code without them was a block before: it is moved to the left and back,
and stands there as it would in any other block.
-/
import MysToCpp.Cpp.Stmt
import MysToCpp.Proofs.Text.Levels

namespace MysToCpp.Cpp

open Text (dedent filledPieces filled_filledLines filled_of_indentChars indent)

/-- A block can be moved to the left and back, whatever its statements are, if no carriage return is left
in it. -/
theorem indent_dedent_blockOf {code : List String} (h : '\r' ∉ (blockOf code).toList) :
    indent (dedent (blockOf code)) = blockOf code := by
  rw [blockOf, indent, String.toList_ofList] at h
  exact Text.indent_dedent_indent (filled_of_indentChars h)

theorem finalized_guarded {code : List String} {last : String} (hcode : '\r' ∉ (blockOf code).toList)
    (hlast : last ≠ "") :
    finalized (guarded (blockOf code) []) last =
      unlines ["try \x7b", blockOf code, last, "\x7d catch (...) \x7b", last, "    throw;", "\x7d"] := by
  have hthrow : indent "throw;" = "    throw;" := by decide
  rw [finalized, if_neg hlast, guarded, if_pos List.isEmpty_nil, indent_dedent_blockOf hcode, hthrow]

theorem lowerStmt_tryBlock {span : Span} {body orelse final : List Stmt} {code last : List String}
    (hbody : lowerStmts body = .ok code) (hfinal : lowerStmts final = .ok last) :
    lowerStmt (.tryBlock span body [] orelse final) =
      if !orelse.isEmpty then unsupported span
      else .ok (finalized (guarded (blockOf code) []) (blockOf last)) := by
  rw [lowerStmt, hbody, lowerHandlers, hfinal]
  rfl

/-- For texts without carriage returns: moved to the right and back, a text has lost its empty lines and
nothing else; moved to the right once more, it stands where it was; and texts one under the other are
moved to the right one by one.

So the code of a `try` without handlers, in front of a block that runs in any case and is not empty, is
the block that its statements make. -/
theorem reindentation_laws :
    (∀ t u : String, '\r' ∉ t.toList → '\r' ∉ u.toList →
      dedent (indent t) = "\n".intercalate (filledPieces t) ∧
      indent (dedent (indent t)) = indent t ∧
      indent (t ++ "\n" ++ u) = "\n".intercalate ([indent t, indent u].filter (· ≠ ""))) ∧
    ∀ (span : Span) (body orelse final : List Stmt) (code last : List String) (text : String),
      lowerStmts body = .ok code → lowerStmts final = .ok last →
      '\r' ∉ (blockOf code).toList → blockOf last ≠ "" →
      (lowerStmt (.tryBlock span body [] orelse final) = .ok text ↔
        orelse = [] ∧ text = unlines ["try \x7b", blockOf code, blockOf last, "\x7d catch (...) \x7b",
          blockOf last, "    throw;", "\x7d"]) := by
  constructor
  · intro t u ht hu
    exact ⟨Text.dedent_indent ht, Text.indent_dedent_indent (filled_filledLines ht),
      Text.indent_append ht hu⟩
  · intro span body orelse final code last text hbody hfinal hcode hlast
    rw [lowerStmt_tryBlock hbody hfinal, finalized_guarded hcode hlast]
    cases orelse with
    | nil =>
        constructor
        · intro h
          exact ⟨rfl, (Except.ok.inj h).symm⟩
        · rintro ⟨-, rfl⟩
          rfl
    | cons stmt rest =>
        constructor
        · intro h
          cases h
        · rintro ⟨h, -⟩
          cases h

def callOf (name : String) : Stmt := .expr .nowhere (.call .nowhere (.name .nowhere name) [] [])

/-- A text with empty lines in and behind it, and a block that runs in any case within another one. -/
theorem reindentation_laws_nested :
    let t := "if (x) \x7b\n\n    f();\n\x7d\n"
    let inner := "try \x7b\n    f();\n    g();\n\x7d catch (...) \x7b\n    g();\n    throw;\n\x7d"
    let body : List Stmt := [.tryBlock .nowhere [callOf "f"] [] [] [callOf "g"], .pass .nowhere]
    '\r' ∉ t.toList ∧ '\r' ∉ "\n".toList ∧
    dedent (indent t) = "if (x) \x7b\n    f();\n\x7d" ∧ indent (dedent (indent t)) = indent t ∧
    indent (t ++ "\n" ++ "\n") = indent t ∧
    lowerStmts body = .ok [inner, ""] ∧ lowerStmts [callOf "h"] = .ok ["h();"] ∧
    '\r' ∉ (blockOf [inner, ""]).toList ∧ blockOf ["h();"] ≠ "" ∧
    lowerStmt (.tryBlock .nowhere body [] [] [callOf "h"]) =
      .ok (unlines ["try \x7b", blockOf [inner, ""], "    h();", "\x7d catch (...) \x7b", "    h();",
        "    throw;", "\x7d"]) := by
  intro t inner body
  obtain ⟨hlaws, htry⟩ := reindentation_laws
  have ht : '\r' ∉ t.toList := by decide
  have hu : '\r' ∉ "\n".toList := by decide
  obtain ⟨hback, hforth, happend⟩ := hlaws t "\n" ht hu
  have hpieces : filledPieces t = ["if (x) \x7b", "    f();", "\x7d"] := by decide
  have hkept : [indent t, indent "\n"].filter (· ≠ "") = [indent t] := by decide
  have hbody : lowerStmts body = .ok [inner, ""] := by rfl
  have hfinal : lowerStmts [callOf "h"] = .ok ["h();"] := by rfl
  have hcode : '\r' ∉ (blockOf [inner, ""]).toList := by decide +kernel
  have hblock : blockOf ["h();"] = "    h();" := by decide
  have hlast : blockOf ["h();"] ≠ "" := by
    rw [hblock]
    decide
  rw [hpieces] at hback
  rw [hkept, String.intercalate_singleton] at happend
  have hlower := (htry .nowhere body [] [callOf "h"] _ _ _ hbody hfinal hcode hlast).mpr ⟨rfl, rfl⟩
  rw [hblock] at hlower
  exact ⟨ht, hu, hback, hforth, happend, hbody, hfinal, hcode, hlast, hlower⟩

end MysToCpp.Cpp
