/-
# Nothing is lost between tokens

The spans of the tokens of a text follow each other.  Under each stands how the token is written, and
between two of them stands a gap, so that the text can be put together again from its tokens and the
gaps.
-/
import MysToCpp.Proofs.Source.Slice
import MysToCpp.Proofs.Token.Run
import MysToCpp.Text.Unicode

namespace MysToCpp

/-- Only a gap stands between two offsets of a text. -/
def GapBetween (source : List Char) (lo hi : Nat) : Prop :=
  ∃ gap, slice? lo hi source = some gap ∧ Gap gap

/-- What stands under a token is how it is written. -/
def SpelledAt (source : List Char) (t : Token) : Prop :=
  ∃ text, slice? t.span.start.offset t.span.stop.offset source = some text ∧
    t.kind.Spells (t.span.stop.offset = byteLength source) text

def Token.textIn (source : String) (t : Token) : Option (List Char) :=
  slice? t.span.start.offset t.span.stop.offset source.toList

/-- Tokens that tell everything of a text but its gaps. -/
structure Lossless (source : List Char) (ts : List Token) : Prop where
  /-- The last token is the only `endOfFile`, and stands behind the last byte. -/
  last : ∃ init p, ts = init ++ [⟨.endOfFile, .empty p⟩] ∧ p.offset = byteLength source ∧
    ∀ t ∈ init, t.kind ≠ .endOfFile
  first : ∀ t after, ts = t :: after → GapBetween source 0 t.span.start.offset
  between : ∀ before t u after, ts = before ++ t :: u :: after →
    t.span.stop.offset ≤ u.span.start.offset ∧
      GapBetween source t.span.stop.offset u.span.start.offset
  spelled : ∀ t ∈ ts, SpelledAt source t

/-! ## Places in a text -/

namespace Cursor

/-- A cursor in a text, whose position counts the bytes before it. -/
def Stands (source : List Char) (c : Cursor) : Prop :=
  ∃ before, source = before ++ c.rest ∧ c.position.offset = byteLength before

variable {source : List Char} {c c' : Cursor}

theorem Stands.reads {text : List Char} (h : c.Stands source) (hr : c.Reads text c') :
    c'.Stands source ∧ c.position.offset ≤ c'.position.offset ∧
      slice? c.position.offset c'.position.offset source = some text := by
  obtain ⟨before, hsource, hoffset⟩ := h
  have hsource' : source = before ++ (text ++ c'.rest) := by rw [hsource, hr.1]
  have hoffset' : c'.position.offset = byteLength (before ++ text) := by
    rw [hr.2, Position.offset_afterAll, hoffset, byteLength_append]
  refine ⟨⟨before ++ text, ?_, hoffset'⟩, ?_, ?_⟩
  · rw [hsource', List.append_assoc]
  · rw [hoffset', hoffset, byteLength_append]
    exact Nat.le_add_right _ _
  · rw [hoffset', hoffset, hsource']
    exact slice?_append before text c'.rest

theorem Stands.atEnd (h : c.Stands source) (hend : c.rest = []) :
    c.position.offset = byteLength source := by
  obtain ⟨before, hsource, hoffset⟩ := h
  rw [hoffset, hsource, hend, List.append_nil]

/-- What is to be read is told by the bytes in front of it. -/
theorem Stands.rest_eq {front back : List Char} (h : c.Stands (front ++ back))
    (hoffset : c.position.offset = byteLength front) : c.rest = back := by
  obtain ⟨before, hsource, hbefore⟩ := h
  have hdrop := dropBytes?_append before c.rest
  rw [← hsource, ← hbefore, hoffset, dropBytes?_append] at hdrop
  exact (Option.some.inj hdrop).symm

end Cursor

namespace Lexer

variable {source : List Char} {lx lx' : Lexer} {t : Token}

theorem Emits.stands (h : lx.Emits t lx') (hs : lx.cursor.Stands source) :
    lx'.cursor.Stands source := by
  obtain ⟨c, text, ⟨gap, -, hgap⟩, htext, -, -⟩ := h.written
  exact ((hs.reads hgap).1.reads htext).1

theorem Trace.stands {text : String} {ts : List Token} (h : Trace (.ofText text) ts lx) :
    lx.cursor.Stands text.toList := by
  induction h with
  | nil => exact ⟨[], rfl, rfl⟩
  | snoc _ hemits ih => exact hemits.stands ih

/-- A token stands behind a gap. -/
def Told (source : List Char) (offset : Nat) (t : Token) : Prop :=
  offset ≤ t.span.start.offset ∧ GapBetween source offset t.span.start.offset ∧ SpelledAt source t

theorem Emits.told (h : lx.Emits t lx') (hs : lx.cursor.Stands source) :
    Told source lx.position.offset t := by
  obtain ⟨kind, span⟩ := t
  obtain ⟨c, text, ⟨gap, hgap, hpass⟩, hreads, rfl, hspell⟩ := h.written
  obtain ⟨hs₁, hle, hslice⟩ := hs.reads hpass
  obtain ⟨hs₂, -, htext⟩ := hs₁.reads hreads
  exact ⟨hle, ⟨gap, hslice, hgap⟩, ⟨text, htext, hspell.imp hs₂.atEnd⟩⟩

theorem Ends.told (h : lx.Ends lx') (hs : lx.cursor.Stands source) :
    Told source lx.position.offset ⟨.endOfFile, .empty lx'.position⟩ := by
  obtain ⟨gap, hgap, hpass⟩ := h.passes
  obtain ⟨hs', hle, hslice⟩ := hs.reads hpass
  have hnothing := (hs'.reads (.refl _)).2.2
  exact ⟨hle, ⟨gap, hslice, hgap⟩, ⟨[], hnothing, hs'.atEnd h.atEnd, rfl⟩⟩

end Lexer

/-! ## Whole texts -/

open Lexer (Trace Told)

theorem tokenize_told [Text.IdentifierTable] {source : String} {ts before after : List Token} {t : Token}
    (h : tokenize source = .ok ts) (hts : ts = before ++ t :: after) :
    ∃ lx, Trace (.ofText source) before lx ∧ Told source.toList lx.position.offset t := by
  obtain ⟨lx, lx', htrace, hemits | ⟨hends, rfl, -⟩⟩ := tokenize_before h hts
  · exact ⟨lx, htrace, hemits.told htrace.stands⟩
  · exact ⟨lx, htrace, hends.told htrace.stands⟩

theorem Lexer.Emits.kind_ne {lx lx' : Lexer} {t : Token} (h : lx.Emits t lx') :
    t.kind ≠ .endOfFile := by
  intro hkind
  have hstep := h.layout
  rw [hkind] at hstep
  cases hstep with
  | written hlayout => cases hlayout

/-- Where a text has tokens, they tell everything of it but its gaps. -/
theorem tokenize_lossless [Text.IdentifierTable] (source : String) (ts : List Token)
    (h : tokenize source = .ok ts) :
    Lossless source.toList ts where
  last := by
    obtain ⟨init, lx, lx', hts, htrace, hends⟩ := tokenize_trace h
    obtain ⟨gap, -, hpass⟩ := hends.passes
    refine ⟨init, lx'.position, hts, ?_, ?_⟩
    · exact (htrace.stands.reads hpass).1.atEnd hends.atEnd
    · intro t ht
      obtain ⟨before, after, hinit⟩ := List.append_of_mem ht
      obtain ⟨lx₁, lx₂, -, hemits⟩ := htrace.before hinit
      exact hemits.kind_ne
  first := by
    intro t after hts
    have hsplit : ts = [] ++ t :: after := hts
    obtain ⟨lx, htrace, -, hgap, -⟩ := tokenize_told h hsplit
    rw [htrace.eq_start] at hgap
    exact hgap
  between := by
    intro before t u after hts
    have hsplit : ts = (before ++ [t]) ++ u :: after := by simpa using hts
    obtain ⟨lx, htrace, hle, hgap, -⟩ := tokenize_told h hsplit
    obtain ⟨lx₁, -, hemits⟩ := htrace.last
    obtain ⟨c, text, -, -, hspan, -⟩ := hemits.written
    rw [hspan]
    exact ⟨hle, hgap⟩
  spelled := by
    intro t ht
    obtain ⟨before, after, hts⟩ := List.append_of_mem ht
    obtain ⟨lx, -, -, -, hspelled⟩ := tokenize_told h hts
    exact hspelled

/-- A line whose name takes two bytes, and a last line without an end that goes on in brackets and has a
comment behind it. -/
theorem tokenize_lossless_sample :
    ∃ ts, tokenize "if é:\n  f(\n1) # x" = .ok ts ∧
      ts.map (·.kind) = [.keyword .ifKw, .name "é", .punct .colon, .newline, .indent, .name "f",
        .punct .parenOpen, .int 1, .punct .parenClose, .newline, .dedent, .endOfFile] ∧
      Lossless "if é:\n  f(\n1) # x".toList ts :=
  ⟨_, rfl, rfl, tokenize_lossless _ _ rfl⟩

end MysToCpp
