/-
# What the tokens of a text promise

A token that the lexer gives is written in the text, or it ends a line or a block, or it opens a block
(`Lexer.Given`).  A name that is written is an identifier.  A block is opened at the first character of
a line, and a token starts there; only a backslash, which goes on to the next line, can stand there
and start none.  So the tokens of a text keep a `Promise` (`tokenize_kept`).
-/
import MysToCpp.Proofs.Parser.Kept
import MysToCpp.Proofs.Token.Located
import MysToCpp.Proofs.Token.Spelling
import MysToCpp.Proofs.Token.Written

namespace MysToCpp

namespace Lexer

open Text (isIdentifierStart isIdentifierChar)
open Cursor (peek?_takeWhile next?_of_peek)
open Token (scanString)

variable [Text.IdentifierTable] {lx lx' : Lexer} {t : Token} {text : String}

/-! ## Names -/

theorem scanToken_name {x : Char} (h : lx.scanToken x = (some t, lx'))
    (hk : t.kind = .name text) : IsIdentifier text := by
  have hliteral {kind : TokenKind} (h : kind.isLiteral = true) : kind ≠ .name text := by
    rintro rfl
    cases h
  have hstring {form : Token.StringForm} {quote : Char} {c c' : Cursor} :
      scanString form quote c ≠ (.ok (.name text), c') := fun h =>
    hliteral (TokenKind.isLiteral_of_isText (Token.isText_scanString (congrArg Prod.fst h))) rfl
  have hcases := scanToken_cases h
  rw [hk] at hcases
  rcases hcases with ⟨hstart, hword⟩ | ⟨-, hnumber⟩ | ⟨-, hscan⟩ | ⟨-, hdot⟩ | ⟨p, hp⟩
  · rcases scanWord_cases hword with hplain | ⟨_, _, -, -, -, hscan⟩
    · unfold TokenKind.ofWord at hplain
      split at hplain
      · cases hplain
      · cases hplain
        refine ⟨x, _, String.toList_ofList, hstart, ?_⟩
        intro y hy
        exact List.all_eq_true.mp List.all_takeWhile y hy
    · exact (hstring hscan).elim
  · have hvalue := Token.isNumber_scanNumber (congrArg Prod.fst hnumber)
    exact (hliteral (TokenKind.isLiteral_of_isNumber hvalue) rfl).elim
  · exact (hstring hscan).elim
  · have hvalue := Token.isNumber_decimalValue (congrArg Prod.fst hdot)
    exact (hliteral (TokenKind.isLiteral_of_isNumber hvalue) rfl).elim
  · cases hp

/-! ## Where tokens come from -/

/-- The lexer has opened a block with the line that it is in, and stands at the first character. -/
structure Opened (t : Token) (lx : Lexer) : Prop where
  span : t.span = .empty lx.position
  pending : lx.pending = []
  finished : lx.finished = false
  inLine : lx.atLineStart = false
  first : ∃ x, lx.cursor.peek? = some x ∧ isGap x = false ∧ x ≠ '#' ∧ x ≠ '\n'

/-- What a token is that the lexer has given. -/
inductive Given (t : Token) (lx' : Lexer) : Prop
  | written {x : Char} {lx₁ lx₂ : Lexer} : lx₁.scanToken x = (some t, lx₂) → Given t lx'
  | closing : t.kind = .newline ∨ t.kind = .dedent → Given t lx'
  | opening : t.kind = .indent → lx'.Opened t → Given t lx'

theorem given_finish (h : lx.finish = (some t, lx')) : Given t lx' := by
  have hclosing {first : Token} {rest : List Token}
      (h : (if lx.lineHasTokens then [lx.markStart.token .newline] else []) ++
        List.replicate lx.layout.closeAll.1 (lx.markStart.token .dedent) = first :: rest) :
      first.kind = .newline ∨ first.kind = .dedent := by
    have hmem : first ∈ first :: rest := List.mem_cons_self
    rw [← h] at hmem
    rcases List.mem_append.mp hmem with hline | hblock
    · split at hline
      · rw [List.mem_singleton.mp hline]
        exact .inl rfl
      · cases hline
    · rw [List.eq_of_mem_replicate hblock]
      exact .inr rfl
  unfold finish at h
  dsimp only at h
  split at h
  · cases h
  · split at h
    · cases h
    · next hlist =>
      cases h
      exact .closing (hclosing hlist)

theorem given_beginLine (hpending : lx.pending = []) (hfinished : lx.finished = false)
    (h : lx.beginLine = .code (some t) lx') : Given t lx' := by
  unfold beginLine at h
  dsimp only at h
  split at h
  · cases h
  · next x hx =>
    split at h
    · cases h
    · next hhash =>
      split at h
      · cases h
      · next hend =>
        have hgap : isGap x = false := by
          have hindentation : isIndentation x = false := by simpa using peek?_takeWhile _ _ hx
          simp only [isIndentation, Bool.or_eq_false_iff] at hindentation
          simp only [Bool.or_eq_true, not_or, decide_eq_true_eq] at hend
          simp [isGap, hindentation, hend]
        have hnewline : x ≠ '\n' := by
          rintro rfl
          exact hend rfl
        unfold changeBlocks at h
        dsimp only at h
        split at h
        · cases h
        · cases h
          exact .opening rfl ⟨rfl, hpending, hfinished, rfl, x, hx, hgap, hhash, hnewline⟩
        · cases h
        · cases h
          exact .closing (.inr rfl)
        · cases h

omit [Text.IdentifierTable] in
theorem continueLine_cases (lx : Lexer) : (∃ lx₁, lx.continueLine = .skipped lx₁) ∨
    ∃ lx₁, lx.continueLine = .answer none lx₁ := by
  unfold continueLine
  generalize (if lx.cursor.peek? = some '\r' then lx.cursor.skip else lx.cursor) = c
  dsimp only
  split
  · exact .inl ⟨_, rfl⟩
  · exact .inr ⟨_, rfl⟩

theorem given_readOn (h : lx.readOn = .answer (some t) lx') : Given t lx' := by
  unfold readOn at h
  dsimp only at h
  split at h
  · injection h with htoken hlexer
    exact given_finish (Prod.ext htoken hlexer)
  · split at h
    · unfold endLine at h
      dsimp only at h
      split at h
      · cases h
        exact .closing (.inl rfl)
      · cases h
    · split at h
      · rcases continueLine_cases _ with ⟨lx₁, hline⟩ | ⟨lx₁, hline⟩
        · cases hline.symm.trans h
        · cases hline.symm.trans h
      · split at h
        · next hscan =>
          cases h
          exact .written hscan
        · cases h

theorem given_search (fuel : Nat) : ∀ {lx : Lexer}, lx.Valid → lx.pending = [] →
    lx.finished = false → search fuel lx = (some t, lx') → Given t lx' := by
  induction fuel with
  | zero =>
      intro lx _ _ _ h
      cases h
  | succ fuel ih =>
      intro lx hv hpending hfinished h
      have hbegun := lineStart_outcome hv hpending hfinished
      have hagain {lx₁ : Lexer} (hv₁ : lx₁.Valid) (hskips : lx.Skips lx₁)
          (h : search fuel lx₁ = (some t, lx')) : Given t lx' :=
        ih hv₁ (hskips.pending.trans hpending) (hskips.finished.trans hfinished) h
      unfold search at h
      dsimp only at h
      split at h
      · next hblank =>
        rw [hblank] at hbegun
        exact hagain hbegun.1 hbegun.2.1 h
      · exact given_finish h
      · next hcode =>
        cases h
        split at hcode
        · exact given_beginLine hpending hfinished hcode
        · cases hcode
      · next lx₁ hcode =>
        rw [hcode] at hbegun
        split at h
        · cases h
        · next herror =>
          rcases hbegun with hne | ⟨hv₁, hskips, hstart⟩
          · exact absurd (Option.isSome_iff_ne_none.mpr hne) herror
          · have hread := readOn_outcome hv₁ (hskips.pending.trans hpending)
              (hskips.finished.trans hfinished) hstart
            split at h
            · next lx₂ hskipped =>
              rw [hskipped] at hread
              exact hagain hread.1 (hskips.trans hread.2.1) h
            · next hanswer =>
              cases h
              exact given_readOn hanswer

theorem given_next (hv : lx.Valid) (h : lx.next = (some t, lx')) : Given t lx' := by
  unfold next at h
  split at h
  · next hpending =>
    cases h
    have ht := hv.pending t (by rw [hpending]; exact List.mem_cons_self)
    rw [ht]
    exact .closing (.inr rfl)
  · next hpending =>
    split at h
    · cases h
    · next hgoes =>
      have hfinished : lx.finished = false := by
        cases hfinished : lx.finished with
        | false => rfl
        | true =>
            rw [hfinished] at hgoes
            exact absurd rfl hgoes
      exact given_search _ hv hpending hfinished h

theorem Given.name (h : Given t lx') (hk : t.kind = .name text) : IsIdentifier text := by
  cases h with
  | written hscan => exact scanToken_name hscan hk
  | closing hclosing =>
      rw [hk] at hclosing
      rcases hclosing with hkind | hkind <;> cases hkind
  | opening hindent =>
      rw [hk] at hindent
      cases hindent

theorem Given.opened (h : Given t lx') (hk : t.kind = .indent) : lx'.Opened t := by
  cases h with
  | @written x lx₁ lx₂ hscan =>
      have hwritten := scanToken_outcome x lx₁
      rw [hscan] at hwritten
      obtain ⟨-, -, -, -, -, -, -, hlayout, -⟩ := hwritten
      rw [hk] at hlayout
      cases hlayout
  | closing hclosing =>
      rw [hk] at hclosing
      rcases hclosing with hkind | hkind <;> cases hkind
  | opening _ hopened => exact hopened

/-! ## Behind an opened block -/

/-- What stands at the start of a block is a token, or there is an error, unless the line goes on with
the next one. -/
theorem Opened.next (h : lx.Opened t) (hv : lx.Valid) (hline : lx.cursor.peek? ≠ some '\\') :
    (∃ u lx', lx.next = (some u, lx') ∧ u.kind.isLayout = false) ∨
      ∃ lx', lx.next = (none, lx') ∧ lx'.error ≠ none := by
  obtain ⟨x, hx, hgap, hhash, hnewline⟩ := h.first
  have hbackslash : x ≠ '\\' := by
    rintro rfl
    exact hline hx
  have hskip : skipGaps lx.layout.inBrackets lx.cursor.rest.length lx.cursor = lx.cursor := by
    obtain ⟨rest, hrest⟩ : ∃ rest, lx.cursor.rest = x :: rest := List.head?_eq_some_iff.mp hx
    rw [hrest, List.length_cons]
    simp [skipGaps, hx, hgap, hhash, hnewline]
  have hnext {token : Option Token} {lx' : Lexer} (hread : lx.readOn = .answer token lx') :
      lx.next = (token, lx') := by
    simp [Lexer.next, h.pending, h.finished, hv.noError, search, h.inLine, hread]
  have hscan := scanToken_outcome x ((lx.moveTo lx.cursor).markStart.moveTo lx.cursor.skip)
  rcases hanswer : scanToken x ((lx.moveTo lx.cursor).markStart.moveTo lx.cursor.skip) with
    ⟨_ | u, lx'⟩
  · rw [hanswer] at hscan
    refine .inr ⟨lx', hnext ?_, hscan⟩
    simp [readOn, hskip, next?_of_peek hx, hnewline, hbackslash, hanswer]
  · rw [hanswer] at hscan
    obtain ⟨-, -, -, -, -, -, -, hlayout, -⟩ := hscan
    refine .inl ⟨u, { lx' with lineHasTokens := true }, hnext ?_, hlayout⟩
    simp [readOn, hskip, next?_of_peek hx, hnewline, hbackslash, hanswer]

/-! ## Whole texts -/

/-- No block begins with a backslash. -/
def NoBackslashOpens (source : List Char) (ts : List Token) : Prop :=
  ∀ t ∈ ts, t.kind = .indent → ∀ before after, source = before ++ '\\' :: after →
    byteLength before ≠ t.span.start.offset

/-- What is known of the tokens of a text; `filled` says whether none of its blocks begins with a
backslash. -/
def promise (source : List Char) (filled : Prop) : Promise where
  word := IsIdentifier
  filled := filled
  placed := True
  place := Position.IsPlace source

theorem readAll_kept {source : List Char} {filled : Prop} (fuel : Nat) :
    ∀ {lx : Lexer}, lx.Valid → lx.Located source → lx.weight < fuel →
      (readAll fuel lx).2.error = none →
      (filled → NoBackslashOpens source (readAll fuel lx).1) →
      (promise source filled).Kept (readAll fuel lx).1 := by
  induction fuel with
  | zero =>
      intro lx _ _ hweight
      exact absurd hweight (Nat.not_lt_zero _)
  | succ fuel ih =>
      intro lx hv hlocated hweight herror hopens
      have houtcome := next_outcome hv
      have hlocated' := hlocated.next
      unfold readAll at herror hopens ⊢
      split
      · exact .nil
      · next t lx' hsome =>
        rw [hsome] at houtcome hlocated' herror hopens
        obtain ⟨hv', hemits⟩ := houtcome
        have hgiven := given_next hv hsome
        have hless := hemits.lighter
        have hweight' : lx'.weight < fuel := by omega
        have herror' : (readAll fuel lx').2.error = none := herror
        refine .cons ?_ ?_ ?_
        · intro text hk
          exact hgiven.name hk
        · intro hfilled hk
          have hopened := hgiven.opened hk
          have hline : lx'.cursor.peek? ≠ some '\\' := by
            intro hpeek
            obtain ⟨after, hafter⟩ := List.head?_eq_some_iff.mp hpeek
            obtain ⟨before, hsource, hposition⟩ := hlocated'.cursor
            rw [hafter] at hsource
            refine hopens hfilled t List.mem_cons_self hk before after hsource ?_
            rw [hopened.span, ← Position.offset_origin, ← hposition]
            rfl
          obtain ⟨fuel, rfl⟩ : ∃ k, fuel = k + 1 := ⟨fuel - 1, by omega⟩
          rcases hopened.next hv' hline with ⟨u, lx'', hu, hlayout⟩ | ⟨lx'', hnone, hne⟩
          · refine ⟨u, (readAll fuel lx'').1, ?_, hlayout⟩
            show (readAll (fuel + 1) lx').1 = _
            rw [readAll, hu]
          · refine absurd ?_ hne
            have hend : readAll (fuel + 1) lx' = ([], lx'') := by rw [readAll, hnone]
            rw [hend] at herror'
            exact herror'
        · refine ih hv' hlocated' hweight' herror' ?_
          intro hfilled u hu
          exact hopens hfilled u (.tail _ hu)

end Lexer

theorem Promise.Kept.append {P : Promise} {ts us : List Token} (ht : P.Kept ts) (hu : P.Kept us) :
    P.Kept (ts ++ us) := by
  induction ht with
  | nil => exact hu
  | cons hword hblock _ ih =>
      refine .cons hword ?_ ih
      intro hfilled hk
      obtain ⟨u, more, rfl, hlayout⟩ := hblock hfilled hk
      exact ⟨u, more ++ us, rfl, hlayout⟩

variable [Text.IdentifierTable]

/-- The names of a text are identifiers, and something stands behind every `indent` unless it stands
in front of a backslash. -/
theorem tokenize_kept (filled : Prop) {source : String} {ts : List Token}
    (h : tokenize source = .ok ts) (hopens : filled → Lexer.NoBackslashOpens source.toList ts) :
    (Lexer.promise source.toList filled).Kept ts := by
  unfold tokenize at h
  dsimp only at h
  split at h
  · cases h
  · next herror =>
    cases h
    refine .append ?_ (.cons nofun nofun .nil)
    refine Lexer.readAll_kept _ (Lexer.valid_ofText source) (Lexer.located_ofText source) ?_ herror ?_
    · rw [Lexer.weight_ofText]
      exact Nat.lt_succ_self _
    · intro hfilled t ht
      exact hopens hfilled t (List.mem_append_left _ ht)

end MysToCpp
