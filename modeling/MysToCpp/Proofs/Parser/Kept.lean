/-
# States that keep a promise

What is known about the tokens of a program is a `Promise`, and a parser keeps it by going forward: the
tokens that are left are a tail of those it was given.  `ParserState.Kept` says so of a state, and
`ParserState.Upto` of a state and one that was reached from it by reading tokens, none of which ends the
file.  `Promise.Tells` is what an error says about such tokens: something else than that a token was
unexpected, in a line if the names hold no line feed, and at a place if the tokens stand at places.
-/
import MysToCpp.Parser.Statement
import MysToCpp.Proofs.Parser.Runs
import MysToCpp.Proofs.Text.Lines
import MysToCpp.Proofs.Token.Located
import MysToCpp.Proofs.Token.Scan
import MysToCpp.Proofs.Tree.Shape

namespace MysToCpp

open Text (OneLine oneLine_literal)

/-! ## What tokens and expressions are called -/

theorem Keyword.oneLine_spelling (w : Keyword) : OneLine w.spelling := by
  cases w <;> exact oneLine_literal (by decide)

theorem Punct.oneLine_spelling (p : Punct) : OneLine p.spelling := by
  cases p <;> exact oneLine_literal (by decide)

theorem Expr.oneLine_describe (e : Expr) : OneLine e.describe := by
  cases e <;> exact oneLine_literal (by decide)

theorem TokenKind.oneLine_describe {k : TokenKind} (h : ∀ text, k = .name text → OneLine text) :
    OneLine k.describe := by
  cases k with
  | keyword w => exact (oneLine_literal (by decide)).quoted w.oneLine_spelling
  | punct p => exact (oneLine_literal (by decide)).quoted p.oneLine_spelling
  | name text => exact (oneLine_literal (by decide)).quoted (h text rfl)
  | _ => exact oneLine_literal (by decide)

theorem TokenKind.oneLine_fixed (k : TokenKind) [hk : k.Fixed] : OneLine k.describe :=
  oneLine_describe fun text h => absurd h (hk.ne_name text)

/-! ## Promises -/

/-- Tokens that keep a promise: names are words, and behind `indent` stands something that is no
layout. -/
inductive Promise.Kept (P : Promise) : List Token → Prop
  | nil : P.Kept []
  | cons {t : Token} {rest : List Token} : (∀ text, t.kind = .name text → P.word text) →
      (P.filled → t.kind = .indent → ∃ u more, rest = u :: more ∧ u.kind.isLayout = false) →
      P.Kept rest → P.Kept (t :: rest)

/-- The promise of nothing, which any tokens keep. -/
def Promise.nothing : Promise where
  word _ := True
  filled := False
  placed := False
  place _ := True

theorem Promise.kept_nothing (tokens : List Token) : Promise.nothing.Kept tokens := by
  induction tokens with
  | nil => exact .nil
  | cons t rest ih => exact .cons (fun _ _ => trivial) False.elim ih

/-- What an error says about tokens that keep a promise. -/
structure Promise.Tells (P : Promise) (e : ParseError) : Prop where
  /-- Only a parser that failed in silence would be given such a fault. -/
  fault : ∀ k, e.fault ≠ .unexpected k
  oneLine : (∀ text, P.word text → OneLine text) → OneLine e.message
  between : P.placed → e.span.Between P.place

namespace ParserState

/-! ## Going forward -/

/-- `s'` is reached from `s` by reading tokens, none of which ends the file. -/
def Reaches (s s' : ParserState) : Prop :=
  ∃ read, s.rest = read ++ s'.rest ∧ ∀ t ∈ read, t.kind ≠ .endOfFile

theorem Reaches.refl (s : ParserState) : s.Reaches s :=
  ⟨[], rfl, fun _ h => absurd h List.not_mem_nil⟩

theorem Reaches.trans {s₁ s₂ s₃ : ParserState} (h₁ : s₁.Reaches s₂) (h₂ : s₂.Reaches s₃) :
    s₁.Reaches s₃ := by
  obtain ⟨read₁, e₁, k₁⟩ := h₁
  obtain ⟨read₂, e₂, k₂⟩ := h₂
  refine ⟨read₁ ++ read₂, by rw [e₁, e₂, List.append_assoc], ?_⟩
  intro t ht
  rcases List.mem_append.mp ht with h | h
  · exact k₁ t h
  · exact k₂ t h

theorem Reaches.length_le {s s' : ParserState} (h : s.Reaches s') :
    s'.rest.length ≤ s.rest.length := by
  obtain ⟨read, e, -⟩ := h
  rw [e, List.length_append]
  exact Nat.le_add_left _ _

/-- What is left are the last tokens, so that their number tells them. -/
theorem Reaches.rest_eq {s s' : ParserState} {before behind : List Token} (h : s.Reaches s')
    (hs : s.rest = before ++ behind) (hlength : s'.rest.length = behind.length) : s'.rest = behind := by
  obtain ⟨read, hread, -⟩ := h
  exact List.append_inj_right' (hread.symm.trans hs) hlength

section Advance

variable {s : ParserState}

theorem rest_of_kind_ne_end (h : s.kind ≠ .endOfFile) :
    ∃ t rest, s.rest = t :: rest ∧ t.kind = s.kind := by
  unfold kind at h ⊢
  cases hr : s.rest with
  | nil => rw [hr] at h; exact absurd rfl h
  | cons t rest => exact ⟨t, rest, rfl, rfl⟩

theorem advance_of_rest {t : Token} {rest : List Token}
    (h : s.rest = t :: rest) : s.advance = { s with previous := some t, rest } := by
  unfold advance
  rw [h]

@[simp] theorem advance_errors (s : ParserState) : s.advance.errors = s.errors := by
  unfold advance
  split <;> rfl

theorem reaches_advance (h : s.kind ≠ .endOfFile) : s.Reaches s.advance := by
  obtain ⟨t, rest, hr, hk⟩ := rest_of_kind_ne_end h
  refine ⟨[t], by rw [advance_of_rest hr, hr]; rfl, ?_⟩
  intro u hu
  rw [List.mem_singleton.mp hu, hk]
  exact h

theorem length_advance (h : s.kind ≠ .endOfFile) : s.rest.length = s.advance.rest.length + 1 := by
  obtain ⟨t, rest, hr, -⟩ := rest_of_kind_ne_end h
  rw [advance_of_rest hr, hr, List.length_cons]

theorem kind_advance (h : s.kind ≠ .endOfFile) : s.advance.kind = s.secondKind := by
  obtain ⟨t, rest, hr, -⟩ := rest_of_kind_ne_end h
  rw [advance_of_rest hr]
  unfold kind secondKind
  rw [hr]
  cases rest <;> rfl

theorem kind_ne_end_of_isAt {k : TokenKind} [hk : k.Fixed] (h : s.isAt k = true) :
    s.kind ≠ .endOfFile := by
  rw [isAt_iff.mp h]
  exact hk.ne_end

theorem kind_ne_end_of_name {text : String} (h : s.kind = .name text) : s.kind ≠ .endOfFile := by
  intro hend
  cases h.symm.trans hend

end Advance

/-! ## States -/

/-- Where the token read last ends; zero before the first one. -/
def back (s : ParserState) : Nat :=
  match s.previous with
  | some t => t.span.stop.offset
  | none => 0

/-- The tokens to read stand behind the one read last. -/
structure Placed (place : Position → Prop) (s : ParserState) : Prop where
  between : ∀ t ∈ s.previous.toList ++ s.rest, t.span.Between place
  order : ∃ hi, Span.InOrder s.back hi (s.rest.map (·.span))
  last : ∃ t, (s.previous.toList ++ s.rest).getLast? = some t ∧ t.span.start = t.span.stop

/-- The tokens to read keep a promise. -/
structure Kept (P : Promise) (s : ParserState) : Prop where
  tokens : P.Kept s.rest
  placed : P.placed → s.Placed P.place

/-- `s'` keeps the promise, too, and is not before `s`. -/
structure Upto (P : Promise) (s s' : ParserState) : Prop where
  reaches : s.Reaches s'
  kept : s'.Kept P
  back : P.placed → s.back ≤ s'.back
  read : s.previous.isSome = true → s'.previous.isSome = true

variable {place : Position → Prop} {P : Promise} {s s₁ s₂ : ParserState}

theorem kept_start {ts : List Token} (h : P.Kept ts) (hplaced : P.placed → Token.Placed P.place ts) :
    ({ rest := ts } : ParserState).Kept P where
  tokens := h
  placed hp := ⟨(hplaced hp).between, (hplaced hp).order, (hplaced hp).last⟩

theorem kept_nothing (s : ParserState) : s.Kept .nothing := ⟨Promise.kept_nothing _, False.elim⟩

theorem Placed.span (hs : s.Placed place) : s.span.Between place ∧ s.back ≤ s.span.start.offset := by
  obtain ⟨previous, rest, errors⟩ := s
  cases rest with
  | cons t rest =>
      refine ⟨hs.between t (List.mem_append_right _ List.mem_cons_self), ?_⟩
      obtain ⟨hi, horder⟩ := hs.order
      cases horder with
      | cons hle => exact hle
  | nil =>
      cases previous with
      | none =>
          obtain ⟨t, hlast, -⟩ := hs.last
          cases hlast
      | some t =>
          refine ⟨hs.between t List.mem_cons_self, ?_⟩
          obtain ⟨u, hlast, hempty⟩ := hs.last
          obtain rfl : t = u := Option.some.inj hlast
          show t.span.stop.offset ≤ t.span.start.offset
          rw [hempty]

theorem Placed.advance (hs : s.Placed place) (hk : s.kind ≠ .endOfFile) : s.advance.Placed place := by
  obtain ⟨t, rest, hr, -⟩ := rest_of_kind_ne_end hk
  obtain ⟨hbetween, ⟨hi, horder⟩, u, hlast, hempty⟩ := hs
  rw [hr] at hbetween horder hlast
  rw [List.getLast?_append_of_ne_nil _ (List.cons_ne_nil _ _)] at hlast
  rw [advance_of_rest hr]
  refine ⟨fun u hu => hbetween u (List.mem_append_right _ hu), ?_, u, hlast, hempty⟩
  cases horder with
  | cons _ _ hrest => exact ⟨hi, hrest⟩

theorem back_advance (hk : s.kind ≠ .endOfFile) : s.advance.back = s.span.stop.offset := by
  obtain ⟨t, rest, hr, -⟩ := rest_of_kind_ne_end hk
  rw [advance_of_rest hr]
  unfold span
  rw [hr]
  rfl

theorem read_advance (hk : s.kind ≠ .endOfFile) : s.advance.previous.isSome = true := by
  obtain ⟨t, rest, hr, -⟩ := rest_of_kind_ne_end hk
  rw [advance_of_rest hr]
  rfl

theorem Kept.advance (hs : s.Kept P) (hk : s.kind ≠ .endOfFile) : s.advance.Kept P where
  tokens := by
    obtain ⟨t, rest, hr, -⟩ := rest_of_kind_ne_end hk
    have htokens := hs.tokens
    rw [hr] at htokens
    rw [advance_of_rest hr]
    cases htokens with
    | cons _ _ hrest => exact hrest
  placed hp := (hs.placed hp).advance hk

theorem Kept.word {text : String} (hs : s.Kept P) (hk : s.kind = .name text) : P.word text := by
  obtain ⟨t, rest, hr, hkind⟩ := rest_of_kind_ne_end (kind_ne_end_of_name hk)
  have htokens := hs.tokens
  rw [hr] at htokens
  cases htokens with
  | cons hword _ _ => exact hword text (hkind.trans hk)

/-- In a block that is opened there is something to read. -/
theorem Kept.behind_indent (hs : s.Kept P) (hfilled : P.filled) (hk : s.kind = .indent) :
    s.advance.kind.isLayout = false := by
  obtain ⟨t, rest, hr, hkind⟩ := rest_of_kind_ne_end (kind_ne_end_of_isAt (isAt_iff.mpr hk))
  have htokens := hs.tokens
  rw [hr] at htokens
  rw [advance_of_rest hr]
  cases htokens with
  | cons _ hblock _ =>
      obtain ⟨u, more, rfl, hu⟩ := hblock hfilled (hkind.trans hk)
      exact hu

theorem Upto.refl (hs : s.Kept P) : s.Upto P s := ⟨.refl s, hs, fun _ => Nat.le_refl _, id⟩

theorem Upto.trans (h₁ : s.Upto P s₁) (h₂ : s₁.Upto P s₂) : s.Upto P s₂ :=
  ⟨h₁.reaches.trans h₂.reaches, h₂.kept, fun hp => Nat.le_trans (h₁.back hp) (h₂.back hp),
    h₂.read ∘ h₁.read⟩

theorem Kept.upto_advance (hs : s.Kept P) (hk : s.kind ≠ .endOfFile) : s.Upto P s.advance where
  reaches := reaches_advance hk
  kept := hs.advance hk
  back hp := by
    have hspan := (hs.placed hp).span
    have hordered := hspan.1.ordered
    rw [back_advance hk]
    omega
  read _ := read_advance hk

theorem Kept.upto_record (hs : s.Kept P) (e : ParseError) : s.Upto P (s.record e) :=
  ⟨.refl s, ⟨hs.tokens, fun hp => ⟨(hs.placed hp).between, (hs.placed hp).order, (hs.placed hp).last⟩⟩,
    fun _ => Nat.le_refl _, id⟩

theorem Kept.tells_expected (hs : s.Kept P) {what : String} (h : OneLine what) :
    P.Tells ⟨.expected what s.kind, s.span⟩ where
  fault := nofun
  oneLine hwords := by
    have hstart : OneLine ("expected " ++ what ++ ", found ") :=
      ((oneLine_literal (by decide) : OneLine "expected ").append h).append (oneLine_literal (by decide))
    exact hstart.append (TokenKind.oneLine_describe fun text hk => hwords text (hs.word hk))
  between hp := (hs.placed hp).span.1

end ParserState

theorem Promise.tells_other {P : Promise} {text : String} {span : Span} (h : OneLine text)
    (hspan : P.placed → span.Between P.place) : P.Tells ⟨.other text, span⟩ :=
  ⟨nofun, fun _ => h, hspan⟩

end MysToCpp
