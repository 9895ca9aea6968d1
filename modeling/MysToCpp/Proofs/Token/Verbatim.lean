/-
# Literals that stand for what is written in them

A body without a backslash is read as it is written, whether the letters in front of its quotes make it
raw or not: between single quotes as long as it stays on its line and has no quote, between triple quotes
as long as no three quotes meet before the closing ones.  `body_line` and `body_block` say so for the
reader of the body, and `tokenize_verbatim` for the whole text.

Between triple quotes the closing quotes lend one or two of their own to a quote at the end of the body,
so that the last character of the body matters as well as its runs of quotes.
-/
import MysToCpp.Proofs.Token.Literal
import MysToCpp.Proofs.Token.Reading
import MysToCpp.Text.Unicode

namespace MysToCpp

namespace Token

variable {form : StringForm} {q : Char} {b rest : List Char} {c : Cursor}

theorem atTwoQuotes_iff : atTwoQuotes q c = true ↔ ∃ more, c.rest = q :: q :: more := by
  unfold atTwoQuotes Cursor.peek? Cursor.peekSecond?
  obtain ⟨_ | ⟨x, _ | ⟨y, more⟩⟩, p⟩ := c <;> simp

theorem atTwoQuotes_eq_false {x y : Char} {more : List Char} (hrest : c.rest = x :: y :: more)
    (h : ¬ (x = q ∧ y = q)) : atTwoQuotes q c = false := by
  refine Bool.eq_false_iff.mpr fun htwo => h ?_
  obtain ⟨behind, hbehind⟩ := atTwoQuotes_iff.mp htwo
  rw [hrest] at hbehind
  obtain ⟨hx, hmore⟩ := List.cons.inj hbehind
  exact ⟨hx, (List.cons.inj hmore).1⟩

/-! ## The body -/

theorem body_line (hbytes : form.bytes = false) (hquote : q ∉ b) (hline : '\n' ∉ b)
    (hslash : '\\' ∉ b) (hrest : c.rest = b ++ q :: rest) :
    ∃ c', c'.rest = rest ∧ Body form q false c b c' := by
  induction b generalizing c with
  | nil => exact ⟨⟨rest, c.position.after q⟩, rfl, .close (by simp [Cursor.next?, hrest]) rfl⟩
  | cons x b ih =>
      simp only [List.mem_cons, not_or] at hquote hline hslash
      have hnext : c.next? = some (x, ⟨b ++ q :: rest, c.position.after x⟩) := by
        simp [Cursor.next?, hrest]
      obtain ⟨c', hrest', hbody⟩ := ih (c := ⟨b ++ q :: rest, c.position.after x⟩) hquote.2 hline.2
        hslash.2 rfl
      have hplain : Plain form q false x ⟨b ++ q :: rest, c.position.after x⟩ :=
        ⟨fun h => absurd h.symm hquote.1, fun h => absurd h.symm hline.1,
          fun h => absurd (hbytes.symm.trans h) Bool.false_ne_true, Ne.symm hslash.1⟩
      exact ⟨c', hrest', .char hnext hplain hbody⟩

/-- A quote in a body is not followed by two more, even if the closing quotes come soon behind it. -/
theorem atTwoQuotes_inside (hrun : ¬ [q, q, q] <:+: q :: b) (hlast : (q :: b).getLast? ≠ some q)
    (hrest : c.rest = b ++ q :: rest) : atTwoQuotes q c = false := by
  match b, hrun, hlast, hrest with
  | [], _, hlast, _ => exact absurd rfl hlast
  | [y], _, hlast, hrest => exact atTwoQuotes_eq_false hrest fun h => hlast (by simp [h.1])
  | y :: z :: b, hrun, _, hrest =>
      refine atTwoQuotes_eq_false hrest fun h => hrun ?_
      rw [h.1, h.2]
      exact (List.prefix_append [q, q, q] b).isInfix

/-- A body that never has three quotes in a row is read up to the three quotes behind it. -/
theorem body_block (hbytes : form.bytes = false) (hrun : ¬ [q, q, q] <:+: b)
    (hlast : b.getLast? ≠ some q) (hslash : '\\' ∉ b) (hrest : c.rest = b ++ q :: q :: q :: rest) :
    ∃ c', c'.rest = rest ∧ Body form q true c b c' := by
  induction b generalizing c with
  | nil =>
      have hnext : c.next? = some (q, ⟨q :: q :: rest, c.position.after q⟩) := by
        simp [Cursor.next?, hrest]
      exact ⟨_, rfl, .closeTriple hnext rfl (atTwoQuotes_iff.mpr ⟨rest, rfl⟩)⟩
  | cons x b ih =>
      simp only [List.mem_cons, not_or] at hslash
      have hnext : c.next? = some (x, ⟨b ++ q :: q :: q :: rest, c.position.after x⟩) := by
        simp [Cursor.next?, hrest]
      have hplain : Plain form q true x ⟨b ++ q :: q :: q :: rest, c.position.after x⟩ := by
        refine ⟨fun h => ⟨rfl, ?_⟩, fun _ => rfl,
          fun h => absurd (hbytes.symm.trans h) Bool.false_ne_true, Ne.symm hslash.1⟩
        subst h
        exact atTwoQuotes_inside hrun hlast rfl
      have hrun' : ¬ [q, q, q] <:+: b := fun h => hrun (h.trans (List.suffix_cons x b).isInfix)
      have hlast' : b.getLast? ≠ some q := by
        intro h
        cases b with
        | nil => cases h
        | cons y b => exact hlast (by rwa [List.getLast?_cons_cons])
      obtain ⟨c', hrest', hbody⟩ := ih (c := ⟨b ++ q :: q :: q :: rest, c.position.after x⟩) hrun'
        hlast' hslash.2 rfl
      exact ⟨c', hrest', .char hnext hplain hbody⟩

/-! ## The literal -/

/-- A body that stands for itself between these quotes. -/
inductive Verbatim (q : Char) (b : List Char) : List Char → Prop
  | line : q ∉ b → '\n' ∉ b → Verbatim q b [q]
  | block : ¬ [q, q, q] <:+: b → b.getLast? ≠ some q → Verbatim q b [q, q, q]

variable {quotes : List Char}

theorem Verbatim.scanString (h : Verbatim q b quotes) (hq : IsQuote q) (hslash : '\\' ∉ b)
    (hbytes : form.bytes = false) (hformatted : form.formatted = false)
    (hrest : q :: c.rest = quotes ++ b ++ quotes) :
    ∃ c', c'.rest = [] ∧ scanString form q c = (.ok (.text (.ofList b)), c') := by
  have htoken : TokenKind.text (.ofList b) = form.token b := by simp [StringForm.token, hbytes, hformatted]
  suffices hread : ∃ c', c'.rest = [] ∧ Body form q (atTwoQuotes q c) (opened q c) b c' by
    obtain ⟨c', hrest', hbody⟩ := hread
    exact ⟨c', hrest', (scanString_eq_ok hq).mpr ⟨b, htoken, hbody⟩⟩
  cases h with
  | line hquote hline =>
      have hrest : c.rest = b ++ [q] := (List.cons.inj hrest).2
      have hone : atTwoQuotes q c = false := by
        refine Bool.eq_false_iff.mpr fun htwo => ?_
        obtain ⟨more, hmore⟩ := atTwoQuotes_iff.mp htwo
        rw [hrest] at hmore
        cases b with
        | nil => cases hmore
        | cons x b => exact hquote ((List.cons.inj hmore).1 ▸ List.mem_cons_self)
      rw [opened, hone]
      exact body_line hbytes hquote hline hslash hrest
  | block hrun hlast =>
      have hrest : c.rest = q :: q :: (b ++ [q, q, q]) := (List.cons.inj hrest).2
      have hskip : c.skip.skip.rest = b ++ [q, q, q] := Cursor.rest_skip (Cursor.rest_skip hrest)
      rw [opened, atTwoQuotes_iff.mpr ⟨_, hrest⟩]
      exact body_block hbytes hrun hlast hslash hskip

variable [Text.IdentifierTable]

/-- The letters that may stand in front of the quotes of a text. -/
def textLetters : List String := ["", "r", "R", "u", "U"]

theorem letter_of_mem {p : String} (hp : p ∈ textLetters) : p.toList = [] ∨
    ∃ x form, p.toList = [x] ∧ Text.isIdentifierStart x = true ∧ Lexer.startsToken x = true ∧
      StringForm.ofMarkers? [x] = some form ∧ form.bytes = false ∧ form.formatted = false := by
  simp only [textLetters, List.mem_cons, List.not_mem_nil, or_false] at hp
  rcases hp with rfl | rfl | rfl | rfl | rfl
  · exact .inl rfl
  · exact .inr ⟨'r', { raw := true }, rfl, rfl, by decide, by decide, rfl, rfl⟩
  · exact .inr ⟨'R', { raw := true }, rfl, rfl, by decide, by decide, rfl, rfl⟩
  · exact .inr ⟨'u', {}, rfl, rfl, by decide, by decide, rfl, rfl⟩
  · exact .inr ⟨'U', {}, rfl, rfl, by decide, by decide, rfl, rfl⟩

end Token

namespace Lexer

open Token (IsQuote StringForm Verbatim scanString)
open Text (isIdentifierStart isIdentifierChar isDigit)

variable {q x : Char} {more : List Char} {kind : TokenKind}

theorem startsToken_quote (hq : IsQuote q) : startsToken q = true := by
  rcases hq with rfl | rfl <;> decide

variable [Text.IdentifierTable]

theorem scansTo_literal (hq : IsQuote q)
    (hscan : ∀ c : Cursor, c.rest = more → ∃ c', c'.rest = [] ∧ scanString {} q c = (.ok kind, c')) :
    ScansTo q more [] kind [] [] := by
  intro lx hrest hstack
  obtain ⟨c, hrest', hscan⟩ := hscan lx.cursor hrest
  have hstart : isIdentifierStart q = false := by rcases hq with rfl | rfl <;> rfl
  have hdigit : isDigit q = false := by rcases hq with rfl | rfl <;> decide
  have hquote : q = '"' ∨ q = '\'' := hq
  refine ⟨c, hrest', ?_⟩
  simp [scanToken, hstart, hdigit, hquote, hscan, accept, ← hstack, token, span, position, moveTo]

theorem scansTo_marked {form : StringForm} (hq : IsQuote q) (hx : isIdentifierStart x = true)
    (hform : StringForm.ofMarkers? [x] = some form)
    (hscan : ∀ c : Cursor, c.rest = more → ∃ c', c'.rest = [] ∧ scanString form q c = (.ok kind, c')) :
    ScansTo x (q :: more) [] kind [] [] := by
  intro lx hrest hstack
  obtain ⟨c, hrest', hscan⟩ := hscan lx.cursor.skip (Cursor.rest_skip hrest)
  have hchar : isIdentifierChar q = false := by rcases hq with rfl | rfl <;> rfl
  have hquote : q = '"' ∨ q = '\'' := hq
  have hletters : lx.cursor.takeWhile isIdentifierChar = ([], lx.cursor) := by
    have hnone : lx.cursor.rest.takeWhile isIdentifierChar = [] := by simp [hrest, hchar]
    have hall : lx.cursor.rest.dropWhile isIdentifierChar = lx.cursor.rest := by simp [hrest, hchar]
    rw [Cursor.takeWhile, hnone, hall]
    rfl
  have hword : scanWord x lx.cursor = (.ok kind, c) := by
    unfold scanWord
    simp [hletters, Cursor.peek?_of_rest hrest, hquote, hform, hscan]
  refine ⟨c, hrest', ?_⟩
  simp [scanToken, hx, hword, accept, ← hstack, token, span, position, moveTo]

end Lexer

open Token (IsQuote Verbatim textLetters)

theorem Token.Verbatim.tokenize [Text.IdentifierTable] {q : Char} {quotes : List Char} {p b : String}
    (h : Verbatim q b.toList quotes) (hq : IsQuote q) (hp : p ∈ textLetters) (hslash : '\\' ∉ b.toList) :
    ∃ ts, MysToCpp.tokenize (p ++ .ofList quotes ++ b ++ .ofList quotes) = .ok ts ∧
      ts.map (·.kind) = [.text b, .newline, .endOfFile] := by
  obtain ⟨more, hmore⟩ : ∃ more, quotes ++ b.toList ++ quotes = q :: more := by
    cases h <;> exact ⟨_, rfl⟩
  have hliteral {form : StringForm} (hbytes : form.bytes = false) (hformatted : form.formatted = false)
      (c : Cursor) (hrest : c.rest = more) :
      ∃ c', c'.rest = [] ∧ Token.scanString form q c = (.ok (.text b), c') := by
    have hscan := h.scanString hq hslash hbytes hformatted (c := c) (by rw [hrest, hmore])
    rwa [String.ofList_toList] at hscan
  obtain ⟨x, rest, htext, hx, hscans⟩ : ∃ x rest,
      (p ++ .ofList quotes ++ b ++ .ofList quotes).toList = x :: rest ∧ Lexer.startsToken x = true ∧
        Lexer.ScansTo x rest [] (.text b) [] [] := by
    have htext : (p ++ .ofList quotes ++ b ++ .ofList quotes).toList = p.toList ++ q :: more := by
      simp [← hmore]
    rw [htext]
    rcases Token.letter_of_mem hp with hp | ⟨x, form, hp, hx, hstarts, hform, hbytes, hformatted⟩
    · rw [hp]
      exact ⟨q, more, rfl, Lexer.startsToken_quote hq, Lexer.scansTo_literal hq (hliteral rfl rfl)⟩
    · rw [hp]
      exact ⟨x, q :: more, rfl, hstarts, Lexer.scansTo_marked hq hx hform (hliteral hbytes hformatted)⟩
  obtain ⟨hindent, hcode⟩ := Lexer.startsToken_code hx
  have hlexes : Lexer.Lexes _ [] [.text b] [] [] := hscans.lexes hx
  rw [← htext] at hlexes
  exact tokenize_lexed htext hindent hcode hlexes (List.cons_ne_nil _ _)

/-- Without a backslash a literal stands for what is written in it: on one line up to the first quote, and
between triple quotes, over any lines, if the body neither has three quotes in a row nor ends with one. -/
theorem tokenize_verbatim [Text.IdentifierTable] {q : Char} (hq : IsQuote q) {p : String}
    (hp : p ∈ textLetters) {b : String}
    (hslash : '\\' ∉ b.toList) :
    (q ∉ b.toList → '\n' ∉ b.toList →
      ∃ ts, tokenize (p ++ .ofList [q] ++ b ++ .ofList [q]) = .ok ts ∧
        ts.map (·.kind) = [.text b, .newline, .endOfFile]) ∧
    (¬ [q, q, q] <:+: b.toList → b.toList.getLast? ≠ some q →
      ∃ ts, tokenize (p ++ .ofList [q, q, q] ++ b ++ .ofList [q, q, q]) = .ok ts ∧
        ts.map (·.kind) = [.text b, .newline, .endOfFile]) :=
  ⟨fun hquote hline => (Verbatim.line hquote hline).tokenize hq hp hslash,
    fun hrun hlast => (Verbatim.block hrun hlast).tokenize hq hp hslash⟩

/-- The other quote on one line, and over two lines a body that starts with a quote and has two in a row. -/
theorem tokenize_verbatim_samples :
    (IsQuote '\'' ∧ "r" ∈ textLetters ∧ '\\' ∉ "say \"hi\"".toList ∧
      '\'' ∉ "say \"hi\"".toList ∧ '\n' ∉ "say \"hi\"".toList ∧
        ∃ ts, tokenize ("r" ++ .ofList ['\''] ++ "say \"hi\"" ++ .ofList ['\'']) = .ok ts ∧
          ts.map (·.kind) = [.text "say \"hi\"", .newline, .endOfFile]) ∧
    (IsQuote '"' ∧ "U" ∈ textLetters ∧ '\\' ∉ "\"a\"\"\nb".toList ∧
      ¬ ['"', '"', '"'] <:+: "\"a\"\"\nb".toList ∧ "\"a\"\"\nb".toList.getLast? ≠ some '"' ∧
        ∃ ts, tokenize ("U" ++ .ofList ['"', '"', '"'] ++ "\"a\"\"\nb" ++ .ofList ['"', '"', '"']) =
            .ok ts ∧ ts.map (·.kind) = [.text "\"a\"\"\nb", .newline, .endOfFile]) := by
  have hletters : "r" ∈ textLetters ∧ "U" ∈ textLetters := by decide
  have hslashes : '\\' ∉ "say \"hi\"".toList ∧ '\\' ∉ "\"a\"\"\nb".toList := by decide
  have hline : '\'' ∉ "say \"hi\"".toList ∧ '\n' ∉ "say \"hi\"".toList := by decide
  have hblock : ¬ ['"', '"', '"'] <:+: "\"a\"\"\nb".toList ∧
      "\"a\"\"\nb".toList.getLast? ≠ some '"' := by decide
  exact ⟨⟨.inr rfl, hletters.1, hslashes.1, hline.1, hline.2,
      (tokenize_verbatim (.inr rfl) hletters.1 hslashes.1).1 hline.1 hline.2⟩,
    ⟨.inl rfl, hletters.2, hslashes.2, hblock.1, hblock.2,
      (tokenize_verbatim (.inl rfl) hletters.2 hslashes.2).2 hblock.1 hblock.2⟩⟩

end MysToCpp
