/-
# Two runs side by side

One parser reads tokens up to the end of the file, another the same tokens up to a closing parenthesis:
`Faces` says that two states stand at such places.  `Carries` says that a value of the first parser has a
counterpart of the second, which looks the same, with the states behind them facing each other again.  It
is proved of the parts that parsers are put together from and carried through the ways of putting them
together.

Only values are carried over.  Where the end of the file makes the first parser fail, nothing is asked of
the second one; and where the parenthesis alone would end a loop, the first parser has to be `Blocked` at
the end of the file for that reason.
-/
import MysToCpp.Proofs.Parser.Logic
import MysToCpp.Proofs.Tree.Bare

namespace MysToCpp

open Punct (parenClose)

/-! ## Where the two stand -/

namespace ParserState

/-- What is left to the first ends the file where what is left to the second goes on with a closing
parenthesis and `tail`. -/
def Faces (tail : List TokenKind) (s s' : ParserState) : Prop :=
  ∃ front, s.kinds = front ++ [.endOfFile] ∧ s'.kinds = front ++ .punct parenClose :: tail

variable {tail : List TokenKind} {s s' : ParserState}

/-- The two are asked about the same token, unless they are at the end. -/
theorem Faces.kind (h : s.Faces tail s') :
    (s.kind = .endOfFile ∧ s'.kind = .punct parenClose) ∨ s.kind = s'.kind := by
  obtain ⟨front, hs, hs'⟩ := h
  cases front with
  | nil => exact .inl ⟨kind_of_kinds hs, kind_of_kinds hs'⟩
  | cons k front => exact .inr ((kind_of_kinds hs).trans (kind_of_kinds hs').symm)

theorem Faces.kind_eq (h : s.Faces tail s') (hk : s.kind ≠ .endOfFile) : s'.kind = s.kind :=
  h.kind.elim (fun hend => absurd hend.1 hk) Eq.symm

/-- What tells neither the end of the file from the parenthesis is the same of both. -/
theorem Faces.look {γ : Type} (h : s.Faces tail s') (get : TokenKind → TokenKind → γ)
    (hfirst : ∀ k k', get .endOfFile k = get (.punct parenClose) k')
    (hsecond : ∀ k, get k .endOfFile = get k (.punct parenClose)) :
    get s.kind s.secondKind = get s'.kind s'.secondKind := by
  obtain ⟨front, hs, hs'⟩ := h
  simp only [ParserState.kind_eq, secondKind_eq, hs, hs']
  match front with
  | [] => exact hfirst _ _
  | [k] => exact hsecond k
  | _ :: _ :: _ => rfl

theorem Faces.advance (h : s.Faces tail s') (hk : s.kind ≠ .endOfFile) : s.advance.Faces tail s'.advance := by
  obtain ⟨front, hs, hs'⟩ := h
  cases front with
  | nil => exact absurd (kind_of_kinds hs) hk
  | cons k front => exact ⟨front, by rw [kinds_advance, hs]; rfl, by rw [kinds_advance, hs']; rfl⟩

theorem Faces.length_le (h : s.Faces tail s') : s.rest.length ≤ s'.rest.length := by
  obtain ⟨front, hs, hs'⟩ := h
  rw [← s.kinds_length, ← s'.kinds_length, hs, hs']
  simp only [List.length_append, List.length_cons, List.length_nil]
  omega

theorem Faces.kinds_of_end (h : s.Faces tail s') (hs : s.kinds = [.endOfFile]) :
    s'.kinds = .punct parenClose :: tail := by
  obtain ⟨front, hfront, hs'⟩ := h
  obtain rfl : front = [] := by simpa using (hfront.symm.trans hs)
  exact hs'

theorem Faces.isAt {k : TokenKind} [hk : k.Fixed] (h : s.Faces tail s') (hat : s.isAt k = true) :
    s'.isAt k = true := by
  have hkind := isAt_iff.mp hat
  rw [isAt_iff, h.kind_eq (by rw [hkind]; exact hk.ne_end), hkind]

theorem Faces.isAt_eq {k : TokenKind} [hk : k.Fixed] (h : s.Faces tail s') (hne : s.kind ≠ .endOfFile) :
    s.isAt k = s'.isAt k := by
  rw [Bool.eq_iff_iff, isAt_iff, isAt_iff, h.kind_eq hne]

theorem Faces.isAt_other {k : TokenKind} [hk : k.Fixed] (h : s.Faces tail s')
    (hother : k ≠ .punct parenClose) : s.isAt k = s'.isAt k := by
  rw [Bool.eq_iff_iff, isAt_iff, isAt_iff]
  rcases h.kind with ⟨hs, hs'⟩ | heq
  · rw [hs, hs']
    exact iff_of_false hk.ne_end.symm hother.symm
  · rw [heq]

end ParserState

namespace Parser

variable {tail : List TokenKind} {α β σ γ δ : Type}

/-! ## Blocked parsers -/

/-- At `s` the parser gives no value. -/
def Fails (p : Parser α) (s : ParserState) : Prop := (p s).1 = none

/-- At the end of the file the parser gives no value. -/
def Blocked (p : Parser α) : Prop := ∀ s : ParserState, s.kind = .endOfFile → p.Fails s

section Blocked

variable {p q : Parser α} {f : α → Parser β} {s : ParserState} {k : TokenKind}

theorem Fails.not_some (h : p.Fails s) {t : ParserState} {a : α} (hrun : p s = (some a, t)) : False := by
  unfold Fails at h
  rw [hrun] at h
  cases h

theorem Fails.bind (h : p.Fails s) : Fails (p >>= f) s := by
  cases hrun : p s with
  | mk o t =>
      cases o with
      | none => exact congrArg Prod.fst (bind_none hrun)
      | some a => exact (h.not_some hrun).elim

theorem fails_stuck : Fails (stuck : Parser α) s := rfl

theorem fails_failExpected {what : String} : Fails (failExpected what : Parser α) s := rfl

theorem fails_ask {get : ParserState → α} (h : (f (get s)).Fails s) : Fails (ask get >>= f) s := h

theorem Blocked.bind (h : p.Blocked) : Blocked (p >>= f) := fun s hs => (h s hs).bind

theorem blocked_ask {get : ParserState → α} (h : ∀ a, (f a).Blocked) : Blocked (ask get >>= f) :=
  fun s hs => fails_ask (h (get s) s hs)

theorem not_isAt_of_end [hk : k.Fixed] (hs : s.kind = .endOfFile) : s.isAt k = false :=
  not_isAt_of_kind (by rw [hs]; exact hk.ne_end.symm)

theorem blocked_isAt [k.Fixed] {f : Bool → Parser β} (h : (f false).Blocked) :
    Blocked (isAt k >>= f) := by
  refine fun s hs => fails_ask ?_
  rw [not_isAt_of_end hs]
  exact h s hs

theorem blocked_skip [k.Fixed] (h : q.Blocked) :
    Blocked (skip k >>= fun b => if b = true then p else q) := by
  intro s hs
  have hrun : skip k s = (some false, s) := by simp [skip, not_isAt_of_end hs]
  unfold Fails
  rw [bind_some hrun]
  exact h s hs

end Blocked

/-! ## Values that are carried over -/

/-- A value of `p` at `s` has a counterpart of `p'` at `s'`, and the states behind them face each other. -/
def Agrees (tail : List TokenKind) (view : α → γ) (p p' : Parser α) (s s' : ParserState) : Prop :=
  ∀ a t, p s = (some a, t) → ∃ b t', p' s' = (some b, t') ∧ t.Faces tail t' ∧ view a = view b

/-- The two agree wherever they face each other. -/
def Carries (tail : List TokenKind) (view : α → γ) (p p' : Parser α) : Prop :=
  ∀ s s' : ParserState, s.Faces tail s' → Agrees tail view p p' s s'

/-- The two read the token they stand at, whichever it is, and then agree. -/
def CarriesBehind (tail : List TokenKind) (view : α → γ) (p p' : Parser α) : Prop :=
  ∀ s s' : ParserState, s.Faces tail s' → s.kind ≠ .endOfFile → Agrees tail view p p' s s'

section Rules

variable {view : α → γ} {view' : β → δ} {p p' q q' : Parser α} {f f' : α → Parser β}
  {s s' : ParserState} {k : TokenKind}

theorem Carries.behind (h : Carries tail view p p') : CarriesBehind tail view p p' :=
  fun s s' hs _ => h s s' hs

theorem Agrees.of_fails (h : p.Fails s) : Agrees tail view p p' s s' :=
  fun _ _ hrun => (h.not_some hrun).elim

theorem Agrees.bind (hp : Agrees tail view p p' s s')
    (hf : ∀ a b t t', view a = view b → t.Faces tail t' → Agrees tail view' (f a) (f' b) t t') :
    Agrees tail view' (p >>= f) (p' >>= f') s s' := by
  intro c u hrun
  cases hrun₁ : p s with
  | mk o t =>
      cases o with
      | none =>
          rw [bind_none hrun₁] at hrun
          cases hrun
      | some a =>
          rw [bind_some hrun₁] at hrun
          obtain ⟨b, t', hrun', ht, hview⟩ := hp a t hrun₁
          obtain ⟨d, u', hrun₂', hu, hview'⟩ := hf a b t t' hview ht c u hrun
          exact ⟨d, u', (bind_some hrun').trans hrun₂', hu, hview'⟩

theorem Agrees.after {a : α} {b : α} {t t' : ParserState} (hrun : p s = (some a, t))
    (hrun' : p' s' = (some b, t')) (h : Agrees tail view' (f a) (f' b) t t') :
    Agrees tail view' (p >>= f) (p' >>= f') s s' := by
  unfold Agrees
  rw [bind_some hrun, bind_some hrun']
  exact h

theorem Carries.bind (hp : Carries tail view p p')
    (hf : ∀ a b, view a = view b → Carries tail view' (f a) (f' b)) :
    Carries tail view' (p >>= f) (p' >>= f') :=
  fun s s' hs => (hp s s' hs).bind fun a b t t' hview ht => hf a b hview t t' ht

theorem Carries.bind_same (hp : Carries tail id p p') (hf : ∀ a, Carries tail view' (f a) (f' a)) :
    Carries tail view' (p >>= f) (p' >>= f') := by
  refine hp.bind fun a b hab => ?_
  obtain rfl : a = b := hab
  exact hf a

theorem Carries.bind_option {p p' : Parser (Option α)} {f f' : Option α → Parser β}
    (hp : Carries tail (Option.map view) p p') (hnone : Carries tail view' (f none) (f' none))
    (hsome : ∀ x y, view x = view y → Carries tail view' (f (some x)) (f' (some y))) :
    Carries tail view' (p >>= f) (p' >>= f') := by
  refine hp.bind fun r r' hr => ?_
  match r, r', hr with
  | none, none, _ => exact hnone
  | some x, some y, hr => exact hsome x y (Option.some.inj hr)

theorem carries_pure {a b : α} (h : view a = view b) : Carries tail view (pure a) (pure b) := by
  intro s s' hs c t hrun
  cases hrun
  exact ⟨b, s', rfl, hs, h⟩

theorem carries_failWith {text : String} {span : Span} : Carries tail view (failWith text span) p' :=
  fun _ _ _ => .of_fails rfl

theorem carries_failExpected {what : String} : Carries tail view (failExpected what) p' :=
  fun _ _ _ => .of_fails rfl

/-- What is asked need not be answered in the same way on both sides. -/
theorem Agrees.ask {get get' : ParserState → α}
    (h : Agrees tail view' (f (get s)) (f' (get' s')) s s') :
    Agrees tail view' (ask get >>= f) (ask get' >>= f') s s' := h

theorem carries_ask {get get' : ParserState → α} (h : ∀ a b, Carries tail view' (f a) (f' b)) :
    Carries tail view' (ask get >>= f) (ask get' >>= f') :=
  fun s s' hs => .ask (h _ _ s s' hs)

theorem carries_answer {get : ParserState → α}
    (hsame : ∀ s s' : ParserState, s.Faces tail s' → get s = get s')
    (h : ∀ a, Carries tail view' (f a) (f' a)) : Carries tail view' (ask get >>= f) (ask get >>= f') := by
  intro s s' hs
  refine .ask ?_
  rw [← hsame s s' hs]
  exact h _ s s' hs

theorem carriesBehind_advance {f f' : Unit → Parser β} (h : Carries tail view' (f ()) (f' ())) :
    CarriesBehind tail view' (advance >>= f) (advance >>= f') :=
  fun _ _ hs hk => h _ _ (hs.advance hk)

theorem carries_expect [k.Fixed] : Carries tail (fun _ => ()) (expect k) (expect k) := by
  intro s s' hs a t hrun
  cases hat : s.isAt k with
  | true =>
      have hrun' : expect k s' = (some s'.span, s'.advance) := by simp [expect, hs.isAt hat]
      simp only [expect, hat, if_true] at hrun
      cases hrun
      exact ⟨_, _, hrun', hs.advance (s.kind_ne_end_of_isAt hat), rfl⟩
  | false =>
      simp only [expect, hat] at hrun
      cases hrun

theorem carries_identifier : Carries tail Ident.bare identifier identifier := by
  intro s s' hs a t hrun
  unfold identifier at hrun
  split at hrun
  · next text hk =>
    cases hrun
    have hne : s.kind ≠ .endOfFile := by rw [hk]; nofun
    have hrun' : identifier s' = (some ⟨text, s'.span⟩, s'.advance) := by
      simp [identifier, hs.kind_eq hne, hk]
    exact ⟨_, _, hrun', hs.advance hne, rfl⟩
  · cases hrun

theorem agrees_skip [k.Fixed] (hs : s.Faces tail s') (hsame : s.isAt k = s'.isAt k) :
    Agrees tail id (skip k) (skip k) s s' := by
  intro a t hrun
  cases hat : s.isAt k with
  | true =>
      simp only [skip, hat, if_true] at hrun
      cases hrun
      exact ⟨true, s'.advance, by simp [skip, ← hsame, hat],
        hs.advance (s.kind_ne_end_of_isAt hat), rfl⟩
  | false =>
      simp only [skip, hat] at hrun
      cases hrun
      exact ⟨false, s', by simp [skip, ← hsame, hat], hs, rfl⟩

theorem carries_skip [k.Fixed] (hother : k ≠ .punct parenClose) : Carries tail id (skip k) (skip k) :=
  fun _ _ hs => agrees_skip hs (hs.isAt_other hother)

theorem carries_isAt [k.Fixed] {f f' : Bool → Parser β} (hother : k ≠ .punct parenClose)
    (h : ∀ b, Carries tail view' (f b) (f' b)) : Carries tail view' (isAt k >>= f) (isAt k >>= f') :=
  carries_answer (fun _ _ hs => hs.isAt_other hother) h

/-- Whether a bracket is closed is told in two ways only at the end, where nothing else can be read. -/
theorem carries_closing [k.Fixed] {f f' : Bool → Parser β} (h : ∀ b, Carries tail view' (f b) (f' b))
    (hblocked : (f false).Blocked) : Carries tail view' (isAt k >>= f) (isAt k >>= f') := by
  intro s s' hs
  by_cases hk : s.kind = .endOfFile
  · exact .of_fails (blocked_isAt hblocked s hk)
  · refine .ask ?_
    rw [← hs.isAt_eq hk]
    exact h _ s s' hs

section Branches

variable {p p' q q' : Parser β} [k.Fixed]

theorem Agrees.skip (hs : s.Faces tail s') (hsame : s.isAt k = s'.isAt k)
    (hyes : Carries tail view' p p') (hno : Carries tail view' q q') :
    Agrees tail view' (skip k >>= fun b => if b = true then p else q)
      (skip k >>= fun b => if b = true then p' else q') s s' := by
  refine (agrees_skip hs hsame).bind fun a b t t' hab ht => ?_
  obtain rfl : a = b := hab
  cases a
  · exact hno t t' ht
  · exact hyes t t' ht

theorem carries_skip_if (hother : k ≠ .punct parenClose) (hyes : Carries tail view' p p')
    (hno : Carries tail view' q q') :
    Carries tail view' (skip k >>= fun b => if b = true then p else q)
      (skip k >>= fun b => if b = true then p' else q') :=
  fun _ _ hs => .skip hs (hs.isAt_other hother) hyes hno

theorem carries_skip_closing (hyes : Carries tail view' p p') (hno : Carries tail view' q q')
    (hblocked : q.Blocked) :
    Carries tail view' (skip k >>= fun b => if b = true then p else q)
      (skip k >>= fun b => if b = true then p' else q') := by
  intro s s' hs
  by_cases hk : s.kind = .endOfFile
  · exact .of_fails (blocked_skip hblocked s hk)
  · exact .skip hs (hs.isAt_eq hk) hyes hno

theorem carries_isAt_if (hother : k ≠ .punct parenClose) (hyes : CarriesBehind tail view' p p')
    (hno : Carries tail view' q q') :
    Carries tail view' (isAt k >>= fun b => if b = true then p else q)
      (isAt k >>= fun b => if b = true then p' else q') := by
  intro s s' hs
  refine .ask ?_
  rw [← hs.isAt_other hother]
  cases hat : s.isAt k with
  | true => exact hyes s s' hs (s.kind_ne_end_of_isAt hat)
  | false => exact hno s s' hs

end Branches

end Rules

/-! ## Loops

The second loop has at least as many rounds left as the first one, since the first one has no more tokens
to read. -/

section Loops

variable {view : α → γ} {look : σ → δ}

theorem carries_repeatFuel {step step' : σ → Parser (Option σ)}
    (hstep : ∀ a b, look a = look b → Carries tail (Option.map look) (step a) (step' b)) {fuel : Nat} :
    ∀ {fuel' : Nat} {a b : σ}, fuel ≤ fuel' → look a = look b →
      Carries tail look (repeatFuel step fuel a) (repeatFuel step' fuel' b) := by
  induction fuel with
  | zero => exact fun _ _ _ _ _ => .of_fails fails_stuck
  | succ fuel ih =>
      intro fuel' a b hle hab
      obtain ⟨fuel', rfl⟩ : ∃ k, fuel' = k + 1 := ⟨fuel' - 1, by omega⟩
      exact (hstep a b hab).bind_option (carries_pure hab) fun _ _ hcd => ih (by omega) hcd

theorem carries_repeatWhile {step step' : σ → Parser (Option σ)}
    (hstep : ∀ a b, look a = look b → Carries tail (Option.map look) (step a) (step' b)) {a b : σ}
    (hab : look a = look b) : Carries tail look (repeatWhile step a) (repeatWhile step' b) :=
  fun s s' hs => carries_repeatFuel hstep (Nat.succ_le_succ hs.length_le) hab s s' hs

theorem carries_unfold {step step' : σ → Parser (Option (α × σ))}
    (hstep : ∀ a, Carries tail (Option.map (Prod.map view id)) (step a) (step' a)) (a : σ) :
    Carries tail (List.map view) (unfold step a) (unfold step' a) := by
  have hround (now now' : List α × σ) (hnow : now.map (List.map view) id = now'.map (List.map view) id) :
      Carries tail (Option.map (Prod.map (List.map view) id)) (gather step now) (gather step' now') := by
    obtain ⟨hfound, hlast⟩ := Prod.mk.inj hnow
    obtain ⟨found, last⟩ := now
    obtain ⟨found', last'⟩ := now'
    obtain rfl : last = last' := hlast
    refine (hstep last).bind_option (carries_pure rfl) fun next next' hnext => carries_pure ?_
    obtain ⟨hx, hb⟩ := Prod.mk.inj hnext
    simp_all [Prod.map]
  refine (carries_repeatWhile hround rfl).bind fun last last' hlast => carries_pure ?_
  rw [List.map_reverse, List.map_reverse, (Prod.mk.inj hlast).1]

theorem carries_many {p p' : Parser (Option α)} (hp : Carries tail (Option.map view) p p') :
    Carries tail (List.map view) (many p) (many p') := by
  refine carries_unfold (fun _ => hp.bind_option (carries_pure rfl) fun x y hxy => carries_pure ?_) ()
  simp [Prod.map, hxy]

theorem carries_some {p p' : Parser α} (hp : Carries tail view p p') :
    Carries tail (Option.map view) (do let a ← p; pure (some a)) (do let a ← p'; pure (some a)) :=
  hp.bind fun _ _ hab => carries_pure (congrArg some hab)

theorem carries_after {k : TokenKind} [k.Fixed] {p p' : Parser α} (hother : k ≠ .punct parenClose)
    (hp : Carries tail view p p') : Carries tail (Option.map view) (after k p) (after k p') :=
  carries_skip_if hother (carries_some hp) (carries_pure rfl)

end Loops

end Parser

end MysToCpp
