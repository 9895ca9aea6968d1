/-
# What a parser does

Everything that is asked of a parser is asked at once.  `Keeps P p q s Q` is about one run from tokens that
keep the promise `P`.  It goes forward over tokens and never over the end of the file.  A value comes with
the errors untouched and satisfies `Q`; no value comes with exactly one new error, which tells what `P` asks
of it.  And `q` does the same as `p`: the two are one parser over two parsers of what is nested inside, so
that the fuel of the recursion is known to make no difference.

What a value is made of are nodes, and these are collected while they are read.  `Gathered` says which nodes
were read since `start`, that each of them is formed and that they stand one behind the other.  The tokens
that are left pay for everything: fewer than `m` of them are left behind what was read, so that loops end
before their bound does, and parsers that are known to do their work where fewer than `n` tokens are left
may be called.

Each parser of the grammar has one lemma, mostly in one of five forms.  `Places` gives nodes that lie between
where it began and where it has come to, `Starts` gives nodes that begin with the next token, `Steps` is a
round of a loop, which begins with the next token if it finds something, `Gathers` is handed the start of
its node, and `Extends` goes on behind an operand.  Whatever else is known of a parser of the grammar
follows from that lemma.
-/
import MysToCpp.Proofs.Parser.Kept

namespace MysToCpp

/-! ## Nodes one behind the other -/

/-- A node and the role that it stands in. -/
abbrev Part : Type := Role × Node

/-- Nodes one behind the other between two offsets, each of them formed. -/
structure Held (P : Promise) (lo hi : Nat) (xs : List Part) : Prop where
  formed : ∀ x ∈ xs, x.2.Formed P x.1
  order : P.placed → Span.InOrder lo hi (xs.map fun x => x.2.span)

namespace Held

variable {P : Promise} {lo lo' mid hi hi' : Nat} {xs ys : List Part} {x : Part}

theorem nil (h : P.placed → lo ≤ hi) : Held P lo hi [] :=
  ⟨fun _ hx => absurd hx List.not_mem_nil, fun hp => .nil (h hp)⟩

theorem le (h : Held P lo hi xs) (hp : P.placed) : lo ≤ hi := (h.order hp).le

theorem append (h₁ : Held P lo mid xs) (h₂ : Held P mid hi ys) : Held P lo hi (xs ++ ys) where
  formed x hx := (List.mem_append.mp hx).elim (h₁.formed x) (h₂.formed x)
  order hp := by
    rw [List.map_append]
    exact (h₁.order hp).append (h₂.order hp)

theorem lower (h : Held P lo hi xs) (hle : P.placed → lo' ≤ lo) : Held P lo' hi xs :=
  ⟨h.formed, fun hp => (h.order hp).from (hle hp)⟩

theorem upto (h : Held P lo hi xs) (hle : P.placed → hi ≤ hi') : Held P lo hi' xs :=
  ⟨h.formed, fun hp => (h.order hp).upto (hle hp)⟩

theorem bounds (h : Held P lo hi xs) (hx : x ∈ xs) (hp : P.placed) :
    lo ≤ x.2.span.start.offset ∧ x.2.span.stop.offset ≤ hi :=
  (h.order hp).bounds (List.mem_map_of_mem (f := fun x : Part => x.2.span) hx)

theorem between (h : Held P lo hi xs) (hx : x ∈ xs) (hp : P.placed) : x.2.span.Between P.place :=
  ((h.formed x hx).nested hp).between

theorem single (h : x.2.Formed P x.1) (hlo : P.placed → lo ≤ x.2.span.start.offset)
    (hhi : P.placed → x.2.span.stop.offset ≤ hi) : Held P lo hi [x] where
  formed _ hy := List.mem_singleton.mp hy ▸ h
  order hp := .cons (hlo hp) (h.nested hp).between.ordered (.nil (hhi hp))

theorem upto_last (h : Held P lo hi (xs ++ [x])) :
    Held P lo x.2.span.stop.offset (xs ++ [x]) where
  formed := h.formed
  order hp := by
    have horder := h.order hp
    rw [List.map_append] at horder ⊢
    exact horder.upto_last

theorem formed_of_parts {r : Role} {x : Node} (h : Held P x.span.start.offset x.span.stop.offset xs)
    (hspan : P.placed → x.span.Between P.place) (hshape : x.Shaped P r) (hparts : x.partsAt r ⊆ xs)
    (hdecorators : ∀ d ∈ x.decorators,
      d.Formed P .plain ∧ (P.placed → d.span.stop.offset ≤ x.span.start.offset))
    (hblocks : P.placed → ∀ b ∈ x.blocks, Node.Follow b) : x.Formed P r := by
  refine .mk hshape ?_ (fun part hpart => h.formed part (hparts hpart)) fun d hd => (hdecorators d hd).1
  intro hp
  refine ⟨hspan hp, ?_, fun d hd => (hdecorators d hd).2 hp, hblocks hp⟩
  intro c hc
  rw [← Node.map_snd_partsAt r x] at hc
  obtain ⟨part, hpart, rfl⟩ := List.mem_map.mp hc
  exact h.bounds (hparts hpart) hp

end Held

/-- An expression that can stand anywhere, with its span and among the parts that it was made of. -/
structure Expr.Made (P : Promise) (e : Expr) (x : Span) (xs : List Part) : Prop where
  span : e.span = x
  parts : (Node.expr e).partsAt .plain ⊆ xs
  wellFormed : e.WellFormed
  slice : e.isSlice = false
  spelled : (Node.expr e).Spelled P.word

/-- A statement with its span and among the parts that it was made of. -/
structure Stmt.Made (P : Promise) (s : Stmt) (x : Span) (xs : List Part) : Prop where
  span : s.span = x
  parts : (Node.stmt s).partsAt .plain ⊆ xs
  wellFormed : s.WellFormed
  filled : P.filled → s.Filled
  blocks : P.placed → ∀ b ∈ s.blocks, Node.Follow b

/-! ## Where a node begins -/

namespace ParserState

/-- Since `start`, which was read, came `xs`, one behind the other; fewer than `m` tokens are left. -/
structure Gathered (P : Promise) (n m : Nat) (start : Span) (s : ParserState) (xs : List Part) :
    Prop where
  kept : s.Kept P
  bound : m ≤ n
  few : s.rest.length < m
  read : s.previous.isSome = true
  begun : P.placed → P.place start.start
  held : Held P start.start.offset s.back xs

/-- At most `m` tokens are left, and `start` is not behind the next one. -/
structure Begins (P : Promise) (n m : Nat) (start : Span) (s : ParserState) : Prop where
  bound : m ≤ n
  left : s.rest.length ≤ m
  begun : P.placed → P.place start.start
  front : P.placed → start.start.offset ≤ s.span.start.offset

/-- There is a token to begin with. -/
structure Opens (P : Promise) (n m : Nat) (start : Span) (s : ParserState) : Prop
    extends Begins P n m start s where
  kind : s.kind ≠ .endOfFile

variable {P : Promise} {n m : Nat} {start : Span} {s s₁ : ParserState} {xs ys : List Part}

theorem Kept.begins (hs : s.Kept P) (hle : s.rest.length ≤ n) :
    s.Begins P n s.rest.length s.span :=
  ⟨hle, Nat.le_refl _, fun hp => (hs.placed hp).span.1.start, fun _ => Nat.le_refl _⟩

/-- A token that was recognised is there. -/
theorem Begins.opens {k : TokenKind} [hne : k.Fixed] (hb : s.Begins P n m start) (hk : s.kind = k) :
    s.Opens P n m start := ⟨hb, hk ▸ hne.ne_end⟩

theorem Begins.opens_of_isAt {k : TokenKind} [k.Fixed] (hb : s.Begins P n m start)
    (h : s.isAt k = true) : s.Opens P n m start := hb.opens (isAt_iff.mp h)

theorem Opens.gathered_advance (ho : s.Opens P n m start) (hs : s.Kept P) :
    s.advance.Gathered P n m start [] := by
  have hlength := length_advance ho.kind
  have hleft := ho.left
  refine ⟨hs.advance ho.kind, ho.bound, by omega, read_advance ho.kind, ho.begun, .nil ?_⟩
  intro hp
  have hordered := (hs.placed hp).span.1.ordered
  have hfront := ho.front hp
  rw [back_advance ho.kind]
  omega

theorem Begins.gathered {k : Nat} (hb : s.Begins P n m start)
    (g : s₁.Gathered P k s.rest.length s.span xs) : s₁.Gathered P n m start xs :=
  ⟨g.kept, hb.bound, Nat.lt_of_lt_of_le g.few hb.left, g.read, hb.begun, g.held.lower hb.front⟩

namespace Gathered

theorem begins (g : s.Gathered P n m start xs) : s.Begins P n m start where
  bound := g.bound
  left := Nat.le_of_lt g.few
  begun := g.begun
  front hp := Nat.le_trans (g.held.le hp) (g.kept.placed hp).span.2

theorem few_left (g : s.Gathered P n m start xs) : s.rest.length < n :=
  Nat.lt_of_lt_of_le g.few g.bound

theorem upto (g : s.Gathered P n m start xs) (hu : s.Upto P s₁) : s₁.Gathered P n m start xs :=
  ⟨hu.kept, g.bound, Nat.lt_of_le_of_lt hu.reaches.length_le g.few, hu.read g.read, g.begun,
    g.held.upto hu.back⟩

theorem add (g : s.Gathered P n m start xs) (hu : s.Upto P s₁) (hys : Held P s.back s₁.back ys) :
    s₁.Gathered P n m start (xs ++ ys) :=
  { g.upto hu with held := g.held.append hys }

theorem forget (g : s.Gathered P n m start xs) : s.Gathered P n m start [] :=
  { g with held := .nil g.held.le }

theorem widen (g : s.Gathered P n m start xs) : s.Gathered P (n + 1) m start xs :=
  { g with bound := Nat.le_succ_of_le g.bound }

/-- Nodes that begin with a token lie behind the token before. -/
theorem held_from (g : s₁.Gathered P n m s.span xs) (hs : s.Kept P) : Held P s.back s₁.back xs :=
  g.held.lower fun hp => (hs.placed hp).span.2

section Node

variable {x : Node} {r : Role}

theorem role {r' : Role} (g : s.Gathered P n m start [(r, x)]) (h : x.Formed P r → x.Formed P r') :
    s.Gathered P n m start [(r', x)] :=
  { g with held := ⟨fun _ hy => List.mem_singleton.mp hy ▸ h (g.held.formed _ List.mem_cons_self),
      g.held.order⟩ }

theorem own (g : s.Gathered P n m start [(r, x)]) : s.Gathered P n m x.span [(r, x)] := by
  have hx := g.held.formed _ List.mem_cons_self
  refine { g with begun := fun hp => (hx.nested hp).between.start, held := .single hx ?_ ?_ }
  · exact fun _ => Nat.le_refl _
  · exact fun hp => (g.held.bounds List.mem_cons_self hp).2

/-- What begins at the start of a node begins behind everything that the node began behind. -/
theorem since (g : s.Gathered P n m start [(r, x)]) (gy : s₁.Gathered P n m x.span ys) :
    s₁.Gathered P n m start ys :=
  { gy with
    begun := g.begun
    held := gy.held.lower fun hp => (g.held.bounds List.mem_cons_self hp).1 }

theorem spanFrom (g : s.Gathered P n m start xs) :
    (P.placed → (s.spanFrom start).Between P.place) ∧ (s.spanFrom start).start = start.start ∧
      (s.spanFrom start).stop.offset = s.back := by
  obtain ⟨previous, rest, errors⟩ := s
  cases previous with
  | none => exact absurd g.read Bool.false_ne_true
  | some t =>
      refine ⟨fun hp => ⟨g.begun hp, ?_, g.held.le hp⟩, rfl, rfl⟩
      exact ((g.kept.placed hp).between t List.mem_cons_self).stop

/-- A node that ends here with the parts gathered since its start. -/
theorem closed (g : s.Gathered P n m start xs) (hspan : x.span = s.spanFrom start)
    (hshape : x.Shaped P r) (hparts : x.partsAt r ⊆ xs)
    (hdecorators : ∀ d ∈ x.decorators,
      d.Formed P .plain ∧ (P.placed → d.span.stop.offset ≤ start.start.offset))
    (hblocks : P.placed → ∀ b ∈ x.blocks, Node.Follow b) : s.Gathered P n m start [(r, x)] := by
  obtain ⟨hbetween, hstart, hstop⟩ := g.spanFrom
  have hx : x.Formed P r := by
    refine Held.formed_of_parts ?_ (hspan ▸ hbetween) hshape hparts ?_ hblocks
    · rw [hspan, hstart, hstop]
      exact g.held
    · rw [hspan, hstart]
      exact hdecorators
  refine { g with held := .single hx ?_ ?_ }
  · rw [hspan, hstart]
    exact fun _ => Nat.le_refl _
  · rw [hspan, hstop]
    exact fun _ => Nat.le_refl _

theorem closedBare (g : s.Gathered P n m start xs) (hspan : x.span = s.spanFrom start)
    (hshape : x.Shaped P r) (hparts : x.partsAt r ⊆ xs) (hdecorators : x.decorators = [])
    (hblocks : x.blocks = []) : s.Gathered P n m start [(r, x)] := by
  refine g.closed hspan hshape hparts ?_ fun _ => ?_
  · rw [hdecorators]
    exact List.forall_mem_nil _
  · rw [hblocks]
    exact List.forall_mem_nil _

theorem through {y : Node} (g : s.Gathered P n m start (xs ++ [(.plain, y)]))
    (hspan : x.span = start.through y.span) (hshape : x.Shaped P .plain)
    (hparts : x.partsAt .plain ⊆ xs ++ [(.plain, y)]) (hdecorators : x.decorators = [])
    (hblocks : x.blocks = []) : s.Gathered P n m start [(.plain, x)] := by
  have hlast : (Role.plain, y) ∈ xs ++ [(.plain, y)] := List.mem_append_right _ List.mem_cons_self
  have hx : x.Formed P .plain := by
    refine Held.formed_of_parts ?_ ?_ hshape hparts ?_ fun _ => ?_
    · rw [hspan]
      exact g.held.upto_last
    · intro hp
      rw [hspan]
      exact ⟨g.begun hp, (g.held.between hlast hp).stop, g.held.upto_last.le hp⟩
    · rw [hdecorators]
      exact List.forall_mem_nil _
    · rw [hblocks]
      exact List.forall_mem_nil _
  refine { g with held := .single hx ?_ ?_ }
  · rw [hspan]
    exact fun _ => Nat.le_refl _
  · rw [hspan]
    exact fun hp => (g.held.bounds hlast hp).2

end Node

theorem closedExpr {e : Expr} (g : s.Gathered P n m start xs) (h : e.Made P (s.spanFrom start) xs) :
    s.Gathered P n m start [(.plain, .expr e)] := by
  refine g.closedBare h.span ⟨h.wellFormed, fun hslice => ?_, h.spelled, fun _ => trivial⟩ h.parts rfl rfl
  cases h.slice.symm.trans hslice

theorem closedStmt {st : Stmt} (g : s.Gathered P n m start xs) (h : st.Made P (s.spanFrom start) xs)
    (hdecorators : ∀ d ∈ st.decorators,
      d.Formed P ∧ (P.placed → d.span.stop.offset ≤ start.start.offset)) :
    s.Gathered P n m start [(.plain, .stmt st)] :=
  g.closed h.span ⟨h.wellFormed, nofun, trivial, h.filled⟩ h.parts
    (List.forall_mem_map.mpr hdecorators) h.blocks

end Gathered

end ParserState

theorem ParserState.spanFrom_advance {s : ParserState} (hk : s.kind ≠ .endOfFile) :
    s.advance.spanFrom s.span = s.span := by
  obtain ⟨t, rest, hr, -⟩ := ParserState.rest_of_kind_ne_end hk
  rw [ParserState.advance_of_rest hr]
  unfold ParserState.span
  rw [hr]
  rfl

namespace Parser

open ParserState (Begins Gathered Kept Opens Upto)

variable {P : Promise} {α β σ : Type} {n m : Nat} {start : Span} {s : ParserState}

/-! ## One run -/

/-- Running `p` at a state that keeps `P` goes forward and does what `q` does; a value leaves the errors
alone and satisfies `Q`, and without a value there is one error more. -/
def Keeps (P : Promise) (p q : Parser α) (s : ParserState) (Q : α → ParserState → Prop) : Prop :=
  s.Kept P → p s = q s ∧ s.Upto P (q s).2 ∧
    match q s with
    | (some a, s') => s'.errors = s.errors ∧ Q a s'
    | (none, s') => ∃ e, s'.errors = s.errors ++ [e] ∧ P.Tells e

section Keeps

variable {p q p' q' : Parser α} {f g : α → Parser β} {Q R : α → ParserState → Prop}
  {S : β → ParserState → Prop} {k : TokenKind}

theorem Keeps.of_kept (h : s.Kept P → Keeps P p q s Q) : Keeps P p q s Q := fun hs => h hs hs

theorem Keeps.of_some {s' : ParserState} {a : α} (hp : p s = (some a, s')) (hq : q s = (some a, s'))
    (he : s'.errors = s.errors) (h : s.Kept P → s.Upto P s' ∧ Q a s') : Keeps P p q s Q := by
  intro hs
  rw [hp, hq]
  exact ⟨rfl, (h hs).1, he, (h hs).2⟩

/-- What is known of a run that gave a value. -/
theorem Keeps.value {s' : ParserState} {a : α} (h : Keeps P p q s Q) (hs : s.Kept P)
    (hq : q s = (some a, s')) : s.Upto P s' ∧ s'.errors = s.errors ∧ Q a s' := by
  obtain ⟨-, hu, hrun⟩ := h hs
  rw [hq] at hu hrun
  exact ⟨hu, hrun⟩

theorem Keeps.failure {s' : ParserState} (h : Keeps P p q s Q) (hs : s.Kept P)
    (hq : q s = (none, s')) : s.Upto P s' ∧ ∃ e, s'.errors = s.errors ++ [e] ∧ P.Tells e := by
  obtain ⟨-, hu, hrun⟩ := h hs
  rw [hq] at hu hrun
  exact ⟨hu, hrun⟩

theorem Keeps.of_eq {p' q' : Parser α} (h : Keeps P p q s Q) (hp : p' s = p s) (hq : q' s = q s) :
    Keeps P p' q' s Q := by
  unfold Keeps at h ⊢
  rw [hp, hq]
  exact h

theorem Keeps.imp (h : Keeps P p q s Q) (hqr : ∀ a s', s.Upto P s' → Q a s' → R a s') :
    Keeps P p q s R := by
  intro hs
  obtain ⟨heq, hu, hrun⟩ := h hs
  refine ⟨heq, hu, ?_⟩
  rcases hq : q s with ⟨_ | a, s'⟩
  · rw [hq] at hrun
    exact hrun
  · rw [hq] at hu hrun
    exact ⟨hrun.1, hqr a s' hu hrun.2⟩

theorem Keeps.and (h : Keeps P p q s Q) (h' : Keeps P p q s R) :
    Keeps P p q s fun a s' => Q a s' ∧ R a s' := by
  intro hs
  obtain ⟨heq, hu, hrun⟩ := h hs
  refine ⟨heq, hu, ?_⟩
  rcases hq : q s with ⟨_ | a, s'⟩
  · rw [hq] at hrun
    exact hrun
  · rw [hq] at hrun
    exact ⟨hrun.1, hrun.2, (h'.value hs hq).2.2⟩

theorem Keeps.bind (h : Keeps P p q s Q)
    (hf : ∀ a s', s.Upto P s' → Q a s' → Keeps P (f a) (g a) s' S) :
    Keeps P (p >>= f) (q >>= g) s S := by
  intro hs
  obtain ⟨heq, hu, hrun⟩ := h hs
  rcases hq : q s with ⟨_ | a, s₁⟩
  · rw [hq] at heq hu hrun
    rw [bind_none heq, bind_none hq]
    exact ⟨rfl, hu, hrun⟩
  · rw [hq] at heq hu hrun
    obtain ⟨heq₂, hu₂, hrun₂⟩ := hf a s₁ hu hrun.2 hu.kept
    rw [bind_some heq, bind_some hq, ← hrun.1]
    exact ⟨heq₂, hu.trans hu₂, hrun₂⟩

theorem keeps_pure {a : α} (h : Q a s) : Keeps P (pure a) (pure a) s Q :=
  .of_some rfl rfl rfl fun hs => ⟨.refl hs, h⟩

theorem keeps_ask {get : ParserState → α} (h : Keeps P (f (get s)) (g (get s)) s S) :
    Keeps P (ask get >>= f) (ask get >>= g) s S := h

theorem keeps_if {c : Prop} [Decidable c] (hyes : c → Keeps P p q s Q)
    (hno : ¬c → Keeps P p' q' s Q) :
    Keeps P (if c then p else p') (if c then q else q') s Q := by
  split
  · next h => exact hyes h
  · next h => exact hno h

theorem keeps_advance {f g : Unit → Parser β} (hk : s.kind ≠ .endOfFile)
    (h : s.Upto P s.advance → Keeps P (f ()) (g ()) s.advance S) :
    Keeps P (advance >>= f) (advance >>= g) s S := by
  have hrun : Keeps P advance advance s fun _ s' => s' = s.advance :=
    .of_some rfl rfl s.advance_errors fun hs => ⟨hs.upto_advance hk, rfl⟩
  refine hrun.bind ?_
  rintro a s' hu rfl
  exact h hu

theorem keeps_failAt {fault : ParseFault} {span : Span} (h : s.Kept P → P.Tells ⟨fault, span⟩) :
    Keeps P (failAt fault span : Parser α) (failAt fault span) s Q :=
  fun hs => ⟨rfl, hs.upto_record _, _, rfl, h hs⟩

theorem keeps_failWith {text : String} {span : Span} (h : Text.OneLine text)
    (hspan : P.placed → span.Between P.place) :
    Keeps P (failWith text span : Parser α) (failWith text span) s Q :=
  keeps_failAt fun _ => Promise.tells_other h hspan

theorem keeps_failExpected {what : String} (h : Text.OneLine what) :
    Keeps P (failExpected what : Parser α) (failExpected what) s Q := by
  have hfail : Keeps P (failAt (.expected what s.kind) s.span : Parser α)
      (failAt (.expected what s.kind) s.span) s Q := keeps_failAt fun hs => hs.tells_expected h
  exact hfail

/-- Where a token is recognised, it is read. -/
theorem keeps_skip [k.Fixed] (hyes : s.isAt k = true → s.Upto P s.advance → Keeps P p q s.advance Q)
    (hno : Keeps P p' q' s Q) :
    Keeps P (skip k >>= fun b => if b = true then p else p')
      (skip k >>= fun b => if b = true then q else q') s Q := by
  cases h : s.isAt k with
  | true =>
      have hrun : Keeps P (skip k) (skip k) s fun b s' => b = true ∧ s' = s.advance :=
        .of_some (by simp [skip, h]) (by simp [skip, h]) s.advance_errors fun hs =>
          ⟨hs.upto_advance (s.kind_ne_end_of_isAt h), rfl, rfl⟩
      refine hrun.bind ?_
      rintro b s' hu ⟨rfl, rfl⟩
      exact hyes h hu
  | false =>
      have hrun : Keeps P (skip k) (skip k) s fun b s' => b = false ∧ s' = s :=
        .of_some (by simp [skip, h]) (by simp [skip, h]) rfl fun hs => ⟨.refl hs, rfl, rfl⟩
      refine hrun.bind ?_
      rintro b s' - ⟨rfl, rfl⟩
      exact hno

end Keeps

/-! ## What parsers give -/

/-- What `p` gives lies between where it begins and where it has come to. -/
def Places (P : Promise) (n : Nat) (p q : Parser α) (parts : α → List Part) (V : α → Prop) : Prop :=
  ∀ s : ParserState, s.rest.length < n → Keeps P p q s fun a s' =>
    Held P s.back s'.back (parts a) ∧ V a

/-- What `p` gives begins with the next token. -/
def Starts (P : Promise) (n : Nat) (p q : Parser α) (parts : α → List Part) (V : α → Prop) : Prop :=
  ∀ s : ParserState, s.rest.length < n → Keeps P p q s fun a s' =>
    s'.Gathered P n s.rest.length s.span (parts a) ∧ V a

/-- What `p` finds begins with the next token. -/
def Steps (P : Promise) (n : Nat) (p q : Parser (Option α)) (parts : α → List Part) (V : α → Prop) :
    Prop :=
  ∀ s : ParserState, s.rest.length < n → Keeps P p q s fun r s' => ∀ a, r = some a →
    s'.Gathered P n s.rest.length s.span (parts a) ∧ V a

/-- What `p` gives at `s` was read since `start`. -/
def Gathers (P : Promise) (n m : Nat) (start : Span) (p q : Parser α) (s : ParserState)
    (parts : α → List Part) : Prop :=
  Keeps P p q s fun a s' => s'.Gathered P n m start (parts a)

/-- `p` goes on behind `left`: what it gives is made of `left`, if that was gathered before `s`, and of what
it gathers since `start`. -/
def Extends (P : Promise) (n m : Nat) (start : Span) (left : Expr) (p q : Parser Expr)
    (s : ParserState) : Prop :=
  Keeps P p q s fun e s' => ∃ xs, s'.Gathered P n m start xs ∧
    ∀ k, s'.Gathered P n k left.span ((.plain, .expr left) :: xs) →
      s'.Gathered P n k left.span [(.plain, .expr e)]

/-- `p` gives no nodes. -/
abbrev Quiet (P : Promise) (n : Nat) (p q : Parser α) (V : α → Prop) : Prop :=
  Places P n p q (fun _ => []) V

abbrev one (node : α → Node) (a : α) : List Part := [(.plain, node a)]

abbrev clause (parts : α → List Node) (a : α) : List Part := (parts a).map fun x => (.plain, x)

def maybe (parts : α → List Part) : Option α → List Part
  | some a => parts a
  | none => []

@[simp] theorem maybe_one (node : α → Node) (a : Option α) :
    maybe (one node) a = a.toList.map ((fun x => (.plain, x)) ∘ node) := by
  cases a <;> rfl

@[simp] theorem flatMap_one (node : α → Node) (xs : List α) :
    xs.flatMap (one node) = xs.map ((fun x => (.plain, x)) ∘ node) := List.map_eq_flatMap.symm

section Forms

variable {p q p' q' : Parser α} {f g : α → Parser β} {parts : α → List Part}
  {parts' : β → List Part} {V : α → Prop} {W : β → Prop} {k : TokenKind}

theorem Starts.places (h : Starts P n p q parts V) : Places P n p q parts V :=
  fun s hs => .of_kept fun hkept => (h s hs).imp fun _ _ _ hq => ⟨hq.1.held_from hkept, hq.2⟩

theorem Places.quiet (h : Places P n p q parts V) : Quiet P n p q V :=
  fun s hs => (h s hs).imp fun _ _ hu hq => ⟨.nil hu.back, hq.2⟩

theorem Steps.places {p q : Parser (Option α)} (h : Steps P n p q parts V) :
    Places P n p q (maybe parts) fun r => ∀ a ∈ r, V a := by
  refine fun s hs => .of_kept fun hkept => (h s hs).imp fun r s' hu hq => ?_
  cases r with
  | none => exact ⟨.nil hu.back, nofun⟩
  | some a =>
      obtain ⟨g, hv⟩ := hq a rfl
      exact ⟨g.held_from hkept, fun b hb => Option.some.inj hb ▸ hv⟩

theorem Places.map {make : α → β} (h : Places P n p q parts V)
    (hparts : ∀ a, parts' (make a) = parts a) (hvalue : ∀ a, V a → W (make a)) :
    Places P n (p >>= fun a => pure (make a)) (q >>= fun a => pure (make a)) parts' W :=
  fun s hs => (h s hs).bind fun a _ _ hq => keeps_pure ⟨hparts a ▸ hq.1, hvalue a hq.2⟩

theorem places_pure {a : α} (hparts : parts a = []) (hvalue : V a) :
    Places P n (pure a) (pure a) parts V := by
  refine fun s _ => keeps_pure ⟨?_, hvalue⟩
  rw [hparts]
  exact .nil fun _ => Nat.le_refl _

theorem steps_none : Steps P n (pure none) (pure none) parts V :=
  fun _ _ => keeps_pure fun _ ha => absurd ha nofun

theorem keeps_identifier : Keeps P identifier identifier s fun i s' =>
    s.kind = .name i.name ∧ i.span = s.span ∧ s' = s.advance := by
  cases hk : s.kind with
  | name text =>
      have hrun : identifier s = (some ⟨text, s.span⟩, s.advance) := by simp only [identifier, hk]
      exact .of_some hrun hrun s.advance_errors fun hkept =>
        ⟨hkept.upto_advance (ParserState.kind_ne_end_of_name hk), rfl, rfl, rfl⟩
  | _ =>
      have hrun : identifier s = (failExpected "identifier" : Parser Ident) s := by
        simp only [identifier, hk]
      exact (keeps_failExpected (Text.oneLine_literal (by decide))).of_eq hrun hrun

theorem starts_identifier : Starts P n identifier identifier (one .ident) fun _ => True := by
  refine fun s hs => .of_kept fun hkept => keeps_identifier.imp ?_
  rintro i s' - ⟨hname, hspan, rfl⟩
  have hne := ParserState.kind_ne_end_of_name hname
  have ho : s.Opens P n s.rest.length s.span := ⟨hkept.begins (Nat.le_of_lt hs), hne⟩
  exact ⟨(ho.gathered_advance hkept).closedBare (hspan.trans (ParserState.spanFrom_advance hne).symm)
    ⟨trivial, nofun, hkept.word hname, fun _ => trivial⟩ (List.nil_subset _) rfl rfl, trivial⟩

theorem starts_expect (k : TokenKind) [k.Fixed] :
    Starts P n (expect k) (expect k) (fun _ => []) fun _ => True := by
  refine fun s hs => ?_
  cases hk : s.isAt k with
  | true =>
      have hrun : expect k s = (some s.span, s.advance) := by simp [expect, hk]
      have hne := s.kind_ne_end_of_isAt hk
      refine .of_some hrun hrun s.advance_errors fun hkept => ⟨hkept.upto_advance hne, ?_, trivial⟩
      have ho : s.Opens P n s.rest.length s.span := ⟨hkept.begins (Nat.le_of_lt hs), hne⟩
      exact ho.gathered_advance hkept
  | false =>
      have hrun : expect k s = (failExpected k.describe : Parser Span) s := by simp [expect, hk]
      exact (keeps_failExpected (TokenKind.oneLine_fixed k)).of_eq hrun hrun

theorem quiet_skip (k : TokenKind) [k.Fixed] : Quiet P n (skip k) (skip k) fun _ => True := by
  intro s hs
  cases hk : s.isAt k with
  | true =>
      have hrun : skip k s = (some true, s.advance) := by simp [skip, hk]
      refine .of_some hrun hrun s.advance_errors fun hkept => ?_
      have hu := hkept.upto_advance (s.kind_ne_end_of_isAt hk)
      exact ⟨hu, .nil hu.back, trivial⟩
  | false =>
      have hrun : skip k s = (some false, s) := by simp [skip, hk]
      exact .of_some hrun hrun rfl fun hkept => ⟨.refl hkept, .nil fun _ => Nat.le_refl _, trivial⟩

theorem places_ask {get : ParserState → β} {f g : β → Parser α}
    (h : ∀ b, Places P n (f b) (g b) parts V) :
    Places P n (ask get >>= f) (ask get >>= g) parts V :=
  fun s hs => keeps_ask (h (get s) s hs)

theorem places_if {c : Prop} [Decidable c] (hyes : Places P n p q parts V)
    (hno : Places P n p' q' parts V) :
    Places P n (if c then p else p') (if c then q else q') parts V :=
  fun s hs => keeps_if (fun _ => hyes s hs) fun _ => hno s hs

theorem places_skip [k.Fixed] (hyes : Places P n p q parts V) (hno : Places P n p' q' parts V) :
    Places P n (skip k >>= fun b => if b = true then p else p')
      (skip k >>= fun b => if b = true then q else q') parts V := by
  refine fun s hs => keeps_skip (fun hk hu => ?_) (hno s hs)
  have hless := Nat.lt_of_le_of_lt hu.reaches.length_le hs
  exact (hyes _ hless).imp fun _ _ _ hq => ⟨hq.1.lower hu.back, hq.2⟩

theorem Places.some (h : Places P n p q parts V) :
    Places P n (p >>= fun a => pure (some a)) (q >>= fun a => pure (some a)) (maybe parts)
      fun r => ∀ a ∈ r, V a :=
  h.map (fun _ => rfl) fun _ ha _ hb => Option.some.inj hb ▸ ha

theorem places_none : Places P n (pure none) (pure none) (maybe parts) fun r => ∀ a ∈ r, V a :=
  places_pure rfl nofun

/-- Behind a token that was read, nothing more has to be. -/
theorem steps_skip [k.Fixed] {p q p' q' : Parser (Option α)}
    (hyes : Places P n p q (maybe parts) fun r => ∀ a ∈ r, V a) (hno : Steps P n p' q' parts V) :
    Steps P n (skip k >>= fun b => if b = true then p else p')
      (skip k >>= fun b => if b = true then q else q') parts V := by
  refine fun s hs => .of_kept fun hkept => keeps_skip (fun hk _ => ?_) (hno s hs)
  have g := ((hkept.begins (Nat.le_of_lt hs)).opens_of_isAt hk).gathered_advance hkept
  refine (hyes _ g.few_left).imp fun r s' hu hq a ha => ?_
  cases ha
  exact ⟨g.add hu hq.1, hq.2 a rfl⟩

theorem steps_after [k.Fixed] (h : Places P n p q parts V) :
    Steps P n (after k p) (after k q) parts V := steps_skip h.some steps_none

theorem keeps_after [k.Fixed] (h : Places P n p q parts V) (hs : s.rest.length < n)
    (hat : s.isAt k = true) :
    Keeps P (after k p) (after k q) s fun r _ => ∃ a ∈ r, V a := by
  have hskip : skip k s = (some true, s.advance) := by simp [skip, hat]
  have hrun : Keeps P (skip k) (skip k) s fun b s' => b = true ∧ s'.rest.length < n := by
    refine .of_some hskip hskip s.advance_errors fun hkept => ?_
    have hu := hkept.upto_advance (s.kind_ne_end_of_isAt hat)
    exact ⟨hu, rfl, Nat.lt_of_le_of_lt hu.reaches.length_le hs⟩
  refine hrun.bind ?_
  rintro b s₁ - ⟨rfl, hs₁⟩
  exact (h s₁ hs₁).bind fun a _ _ hq => keeps_pure ⟨a, rfl, hq.2⟩

theorem places_after [k.Fixed] (h : Places P n p q parts V) :
    Places P n (after k p) (after k q) (maybe parts) fun r => ∀ a ∈ r, V a := (steps_after h).places

theorem steps_ask {get : ParserState → β} {f g : β → Parser (Option α)}
    (h : ∀ b, Steps P n (f b) (g b) parts V) :
    Steps P n (ask get >>= f) (ask get >>= g) parts V :=
  fun s hs => keeps_ask (h (get s) s hs)

theorem steps_if {c : Prop} [Decidable c] {p q p' q' : Parser (Option α)}
    (hyes : Steps P n p q parts V) (hno : Steps P n p' q' parts V) :
    Steps P n (if c then p else p') (if c then q else q') parts V :=
  fun s hs => keeps_if (fun _ => hyes s hs) fun _ => hno s hs

end Forms

/-! ## Loops

The invariant `I` holds before every round.  A round that asks for another one has read a token, and that
is why the bound built into the loop is never reached: there are more rounds left than tokens. -/

section Loops

theorem keeps_repeatFuel {step step' : σ → Parser (Option σ)} {I Q : σ → ParserState → Prop}
    (hstep : ∀ a s, I a s → Keeps P (step a) (step' a) s fun r s' =>
      match r with
      | some b => I b s' ∧ s'.rest.length < s.rest.length
      | none => Q a s') (fuel : Nat) :
    ∀ (a : σ) (s : ParserState), s.rest.length < fuel → I a s →
      Keeps P (repeatFuel step fuel a) (repeatFuel step' fuel a) s Q := by
  induction fuel with
  | zero => exact fun _ s hlt => absurd hlt (Nat.not_lt_zero _)
  | succ fuel ih =>
      intro a s hlt hi
      refine (hstep a s hi).bind fun r s' _ hq => ?_
      cases r with
      | none => exact keeps_pure hq
      | some b => exact ih b s' (Nat.lt_of_lt_of_le hq.2 (Nat.le_of_lt_succ hlt)) hq.1

theorem keeps_repeatWhile {step step' : σ → Parser (Option σ)} {I Q : σ → ParserState → Prop} {a : σ}
    (hstep : ∀ a s, I a s → Keeps P (step a) (step' a) s fun r s' =>
      match r with
      | some b => I b s' ∧ s'.rest.length < s.rest.length
      | none => Q a s')
    (h : I a s) : Keeps P (repeatWhile step a) (repeatWhile step' a) s Q :=
  keeps_repeatFuel hstep (s.rest.length + 1) a s (Nat.lt_succ_self _) h

/-- What was collected so far satisfies `I` with every round, and `Q` behind the last one. -/
theorem keeps_unfold {step step' : σ → Parser (Option (α × σ))} {I Q : List α → ParserState → Prop}
    {a : σ}
    (hstep : ∀ a found s, I found s → Keeps P (step a) (step' a) s fun r s' =>
      match r with
      | some (x, _) => I (found ++ [x]) s' ∧ s'.rest.length < s.rest.length
      | none => Q found s')
    (h : I [] s) : Keeps P (unfold step a) (unfold step' a) s Q := by
  refine .bind (keeps_repeatWhile (I := fun now s' => I now.1.reverse s')
    (Q := fun now s' => Q now.1.reverse s') ?_ h) fun _ _ _ hq => keeps_pure hq
  intro now s₁ hi
  refine (hstep now.2 now.1.reverse s₁ hi).bind fun r s₂ _ hq => ?_
  cases r with
  | none => exact keeps_pure hq
  | some found =>
      refine keeps_pure ⟨?_, hq.2⟩
      show I (found.1 :: now.1).reverse s₂
      rw [List.reverse_cons]
      exact hq.1

theorem keeps_many {p q : Parser (Option α)} {I Q : List α → ParserState → Prop}
    (hp : ∀ found s, I found s → Keeps P p q s fun r s' =>
      match r with
      | some x => I (found ++ [x]) s' ∧ s'.rest.length < s.rest.length
      | none => Q found s')
    (h : I [] s) : Keeps P (many p) (many q) s Q := by
  refine keeps_unfold (fun _ found s₁ hi => (hp found s₁ hi).bind fun r s₂ _ hq => ?_) h
  cases r <;> exact keeps_pure hq

variable {parts : α → List Part} {V : α → Prop}

theorem held_snoc {s s₁ s₂ : ParserState} {found : List α} {x : α}
    (h : Held P s.back s₁.back (found.flatMap parts) ∧ ∀ a ∈ found, V a)
    (hx : Held P s₁.back s₂.back (parts x) ∧ V x) :
    Held P s.back s₂.back ((found ++ [x]).flatMap parts) ∧ ∀ a ∈ found ++ [x], V a := by
  rw [List.flatMap_append, List.flatMap_singleton]
  refine ⟨h.1.append hx.1, ?_⟩
  rw [List.forall_mem_append]
  exact ⟨h.2, List.forall_mem_singleton.mpr hx.2⟩

theorem places_unfold {step step' : σ → Parser (Option (α × σ))}
    (h : ∀ a, Steps P n (step a) (step' a) (fun found => parts found.1) fun found => V found.1) (a : σ) :
    Places P n (unfold step a) (unfold step' a) (List.flatMap parts) fun xs => ∀ x ∈ xs, V x := by
  intro s hs
  refine keeps_unfold (I := fun found s' => s'.rest.length < n ∧
    Held P s.back s'.back (found.flatMap parts) ∧ ∀ x ∈ found, V x) ?_
    ⟨hs, .nil fun _ => Nat.le_refl _, fun _ hx => absurd hx List.not_mem_nil⟩
  rintro a found s₁ ⟨hs₁, hfound⟩
  refine .of_kept fun hkept => (h a s₁ hs₁).imp fun r s₂ hu hq => ?_
  cases r with
  | none => exact ⟨hfound.1.upto hu.back, hfound.2⟩
  | some x =>
      obtain ⟨g, hx⟩ := hq x rfl
      exact ⟨⟨Nat.lt_trans g.few hs₁, held_snoc hfound ⟨g.held_from hkept, hx⟩⟩, g.few⟩

theorem places_many {p q : Parser (Option α)} (h : Steps P n p q parts V) :
    Places P n (many p) (many q) (List.flatMap parts) fun xs => ∀ x ∈ xs, V x := by
  refine places_unfold (fun _ s hs => (h s hs).bind fun r s' _ hq => ?_) ()
  cases r with
  | none => exact keeps_pure nofun
  | some x =>
      refine keeps_pure fun found hfound => ?_
      cases hfound
      exact hq x rfl

/-- Collecting begins with the next token where the first round is sure to find something. -/
theorem keeps_many_first {p q : Parser (Option α)} {W : α → Prop} (h : Steps P n p q parts V)
    (hs : s.rest.length < n) (hfirst : Keeps P p q s fun r _ => ∃ a ∈ r, W a) :
    Keeps P (many p) (many q) s fun xs s' => s'.Gathered P n s.rest.length s.span (xs.flatMap parts) ∧
      (∀ x ∈ xs, V x) ∧ ∃ x ∈ xs, W x := by
  refine keeps_many (I := fun found s' => (found = [] ∧ s' = s) ∨
    (s'.Gathered P n s.rest.length s.span (found.flatMap parts) ∧ (∀ x ∈ found, V x) ∧
      ∃ x ∈ found, W x)) ?_ (.inl ⟨rfl, rfl⟩)
  rintro found s₁ (⟨rfl, rfl⟩ | ⟨g, hfound, hsure⟩)
  · refine ((h s₁ hs).and hfirst).imp ?_
    rintro r s₂ - ⟨hround, x, hx, hsure⟩
    obtain rfl : r = some x := hx
    obtain ⟨g, hx⟩ := hround x rfl
    exact ⟨.inr ⟨by simpa using g, by simpa using hx, x, List.mem_singleton_self x, hsure⟩, g.few⟩
  · refine .of_kept fun hkept => (h s₁ g.few_left).imp fun r s₂ hu hq => ?_
    cases r with
    | none => exact ⟨g.upto hu, hfound, hsure⟩
    | some x =>
        obtain ⟨gx, hx⟩ := hq x rfl
        refine ⟨.inr ⟨?_, ?_, hsure.imp fun _ ⟨hmem, hw⟩ => ⟨List.mem_append_left _ hmem, hw⟩⟩, gx.few⟩
        · rw [List.flatMap_append, List.flatMap_singleton]
          exact g.add hu (gx.held_from hkept)
        · rw [List.forall_mem_append]
          exact ⟨hfound, List.forall_mem_singleton.mpr hx⟩

end Loops

end Parser

/-! ## Reading on -/

namespace ParserState

open MysToCpp.Parser

variable {P : Promise} {α β : Type} {n m : Nat} {start : Span} {s : ParserState} {xs : List Part}
  {p q p' q' : Parser α} {f g : α → Parser β} {parts : α → List Part} {V : α → Prop}
  {S : β → ParserState → Prop} {k : TokenKind}

theorem Opens.step {f g : Unit → Parser β} (ho : s.Opens P n m start)
    (h : s.advance.Gathered P n m start [] → Keeps P (f ()) (g ()) s.advance S) :
    Keeps P (Parser.advance >>= f) (Parser.advance >>= g) s S :=
  .of_kept fun hs => keeps_advance ho.kind fun _ => h (ho.gathered_advance hs)

theorem Begins.skip {p q p' q' : Parser β} [k.Fixed] (hb : s.Begins P n m start)
    (hyes : s.advance.Gathered P n m start [] → Keeps P p q s.advance S)
    (hno : Keeps P p' q' s S) :
    Keeps P (Parser.skip k >>= fun b => if b = true then p else p')
      (Parser.skip k >>= fun b => if b = true then q else q') s S :=
  .of_kept fun hs => keeps_skip
    (fun h _ => hyes ((hb.opens_of_isAt h).gathered_advance hs)) hno

theorem Begins.bind (hb : s.Begins P n m start) (hs : s.rest.length < n) (hp : Starts P n p q parts V)
    (hf : ∀ a s', s'.Gathered P n m start (parts a) → V a → Keeps P (f a) (g a) s' S) :
    Keeps P (p >>= f) (q >>= g) s S :=
  (hp s hs).bind fun a s' _ hq => hf a s' (hb.gathered hq.1) hq.2

theorem Begins.many_first {p q : Parser (Option α)} {f g : List α → Parser β} {W : α → Prop} {k : Nat}
    (hb : s.Begins P n m start) (hs : s.rest.length < k) (hp : Steps P k p q parts V)
    (hfirst : Keeps P p q s fun r _ => ∃ a ∈ r, W a)
    (hf : ∀ found s', s'.Gathered P n m start (found.flatMap parts) → (∀ a ∈ found, V a) →
      found ≠ [] → Keeps P (f found) (g found) s' S) :
    Keeps P (many p >>= f) (many q >>= g) s S := by
  refine (keeps_many_first hp hs hfirst).bind ?_
  rintro found s' - ⟨g, hfound, a, ha, -⟩
  exact hf found s' (hb.gathered g) hfound (List.ne_nil_of_mem ha)

namespace Gathered

theorem step {f g : Unit → Parser β} (h : s.Gathered P n m start xs) (hk : s.kind ≠ .endOfFile)
    (hf : ∀ s', s'.Gathered P n m start xs → Keeps P (f ()) (g ()) s' S) :
    Keeps P (Parser.advance >>= f) (Parser.advance >>= g) s S :=
  keeps_advance hk fun hu => hf _ (h.upto hu)

theorem skip {p q p' q' : Parser β} [k.Fixed] (h : s.Gathered P n m start xs)
    (hyes : ∀ s', s'.Gathered P n m start xs → Keeps P p q s' S) (hno : Keeps P p' q' s S) :
    Keeps P (Parser.skip k >>= fun b => if b = true then p else p')
      (Parser.skip k >>= fun b => if b = true then q else q') s S :=
  keeps_skip (fun _ hu => hyes _ (h.upto hu)) hno

theorem bind (h : s.Gathered P n m start xs) (hp : Places P n p q parts V)
    (hf : ∀ a s', s'.Gathered P n m start (xs ++ parts a) → V a → Keeps P (f a) (g a) s' S) :
    Keeps P (p >>= f) (q >>= g) s S :=
  (hp s h.few_left).bind fun a s' hu hq => hf a s' (h.add hu hq.1) hq.2

theorem pass (h : s.Gathered P n m start xs) (hp : Quiet P n p q V)
    (hf : ∀ a s', s'.Gathered P n m start xs → V a → Keeps P (f a) (g a) s' S) :
    Keeps P (p >>= f) (q >>= g) s S :=
  (hp s h.few_left).bind fun a s' hu hq => hf a s' (h.upto hu) hq.2

theorem expect {f g : Span → Parser β} [k.Fixed] (h : s.Gathered P n m start xs)
    (hf : ∀ a s', s'.Gathered P n m start xs → Keeps P (f a) (g a) s' S) :
    Keeps P (Parser.expect k >>= f) (Parser.expect k >>= g) s S :=
  h.pass (starts_expect k).places fun a s' h _ => hf a s' h

theorem many_first {p q : Parser (Option α)} {f g : List α → Parser β} {W : α → Prop}
    (h : s.Gathered P n m start xs) (hp : Steps P n p q parts V)
    (hfirst : Keeps P p q s fun r _ => ∃ a ∈ r, W a)
    (hf : ∀ found s', s'.Gathered P n m start (xs ++ found.flatMap parts) → (∀ a ∈ found, V a) →
      found ≠ [] → Keeps P (f found) (g found) s' S) :
    Keeps P (many p >>= f) (many q >>= g) s S := by
  refine .of_kept fun hkept => (keeps_many_first hp h.few_left hfirst).bind ?_
  rintro found s' hu ⟨g, hfound, a, ha, -⟩
  exact hf found s' (h.add hu (g.held_from hkept)) hfound (List.ne_nil_of_mem ha)

/-- An expression with the span up to here, whose parts are among those gathered. -/
theorem closeExpr {build : Span → Expr} (h : s.Gathered P n m start xs)
    (hmade : ∀ x, (build x).Made P x xs) :
    Gathers P n m start (do let x ← Parser.spanFrom start; pure (build x))
      (do let x ← Parser.spanFrom start; pure (build x)) s (one .expr) :=
  keeps_ask (keeps_pure (h.closedExpr (hmade _)))

theorem closeBehind {left : Expr} {build : Span → Expr} (h : s.Gathered P n m start xs)
    (hmade : ∀ x, (build x).Made P x ((.plain, .expr left) :: xs)) :
    Extends P n m start left (do let x ← Parser.spanFrom left.span; pure (build x))
      (do let x ← Parser.spanFrom left.span; pure (build x)) s :=
  keeps_ask (keeps_pure ⟨xs, h, fun _ g => g.closedExpr (hmade _)⟩)

/-- A statement without decorators, with the span up to here. -/
theorem closeStmt {build : Span → Stmt} (h : s.Gathered P n m start xs)
    (hmade : ∀ x, (build x).Made P x xs) (hdecorators : ∀ x, (build x).decorators = []) :
    Gathers P n m start (do let x ← Parser.spanFrom start; pure (build x))
      (do let x ← Parser.spanFrom start; pure (build x)) s (one .stmt) := by
  refine keeps_ask (keeps_pure (h.closedStmt (hmade _) ?_))
  rw [hdecorators]
  exact List.forall_mem_nil _

/-- A parameter, a keyword argument or an imported name, with the span up to here and all the parts
gathered. -/
theorem closePlain {build : Span → β} (node : β → Node) (h : s.Gathered P n m start xs)
    (hspan : ∀ x, (node (build x)).span = x)
    (hshape : ∀ x, (node (build x)).Shaped P .plain) (hparts : ∀ x, (node (build x)).partsAt .plain = xs)
    (hdecorators : ∀ x, (node (build x)).decorators = []) (hblocks : ∀ x, (node (build x)).blocks = []) :
    Gathers P n m start (do let x ← Parser.spanFrom start; pure (build x))
      (do let x ← Parser.spanFrom start; pure (build x)) s (one node) :=
  keeps_ask (keeps_pure (h.closedBare (hspan _) (hshape _) (hparts _ ▸ List.Subset.refl _)
    (hdecorators _) (hblocks _)))

end Gathered

end ParserState

end MysToCpp
