/-
# Parameters and the types they are annotated with

The type of a parameter is read by a case analysis of its own, because its text differs from that of the
annotation elsewhere.  Whether there is a type does not differ: `paramText_agrees` says that a parameter
can be declared exactly if its annotation has a type, and that a refusal is reported at the same part of
the annotation.

Two results that agree (`Agree`) are either both texts or both refusals of one construct, so agreement is
carried through the readers part by part: the first part that one of them refuses is the first that the
other one refuses.
-/
import MysToCpp.Cpp.TypeName

namespace MysToCpp.Cpp

/-! ## Agreement -/

variable {α β γ δ : Type}

/-- Two readers of one annotation give something, or both point at the same part of it as unsupported. -/
inductive Agree : Lowered α → Lowered β → Prop
  | given (a : α) (b : β) : Agree (.ok a) (.ok b)
  | refused (what what' : Unsupported) (span : Span) :
      Agree (.error (.unsupported what span)) (.error (.unsupported what' span))

namespace Agree

variable {x : Lowered α} {y : Lowered β}

theorem bind {f : α → Lowered γ} {g : β → Lowered δ} (h : Agree x y)
    (hfg : ∀ a b, Agree (f a) (g b)) : Agree (x >>= f) (y >>= g) := by
  cases h with
  | given a b => exact hfg a b
  | refused what what' span => exact .refused what what' span

theorem map {f : α → γ} {g : β → δ} (h : Agree x y) :
    Agree (x >>= fun a => .ok (f a)) (y >>= fun b => .ok (g b)) :=
  h.bind fun _ _ => .given _ _

theorem mapLeft {f : α → γ} (h : Agree x y) : Agree (x >>= fun a => .ok (f a)) y := by
  cases h with
  | given a b => exact .given _ _
  | refused what what' span => exact .refused what what' span

theorem cons {xs : Lowered (List α)} {ys : Lowered (List β)} (h : Agree x y) (hrest : Agree xs ys) :
    Agree (x >>= fun a => xs >>= fun as => .ok (a :: as))
      (y >>= fun b => ys >>= fun bs => .ok (b :: bs)) :=
  h.bind fun _ _ => hrest.map

theorem ok_iff (h : Agree x y) : (∃ a, x = .ok a) ↔ ∃ b, y = .ok b := by
  cases h with
  | given a b => exact ⟨fun _ => ⟨b, rfl⟩, fun _ => ⟨a, rfl⟩⟩
  | refused what what' span => exact ⟨nofun, nofun⟩

theorem errors (h : Agree x y) {e e' : LoweringError} (he : x = .error e) (he' : y = .error e') :
    ∃ what what' span, e = .unsupported what span ∧ e' = .unsupported what' span := by
  cases h with
  | given a b => cases he
  | refused what what' span =>
      cases he
      cases he'
      exact ⟨what, what', span, rfl, rfl⟩

end Agree

theorem agree_unsupported (span : Span) :
    Agree (unsupported span : Lowered α) (unsupported span : Lowered β) := .refused _ _ span

/-! ## Annotations -/

theorem agree_resolveType (e : Expr) : Agree (resolveType e) (resolveType e) := by
  induction e using resolveType.induct _ (fun es => Agree (resolveTypes es) (resolveTypes es)) with
  | case1 span id => exact .given _ _
  | case2 span value index =>
      unfold resolveType optionalType
      split
      · split
        · exact .given _ _
        · exact agree_unsupported span
      · exact agree_unsupported span
  | case3 span element ih =>
      rw [resolveType]
      exact ih.map
  | case4 span elements hmany =>
      rw [resolveType.eq_4 _ _ hmany]
      exact .refused _ _ span
  | case5 span elements ih =>
      rw [resolveType]
      exact ih.map
  | case6 span key value ih =>
      rw [resolveType]
      refine .bind ?_ fun _ _ => ih.map
      unfold keyType
      split
      · exact .given _ _
      · exact agree_unsupported key.span
  | case7 other =>
      have hother : resolveType other = unsupported other.span := by rw [resolveType] <;> assumption
      rw [hother]
      exact agree_unsupported other.span
  | case8 => exact .given _ _
  | case9 e rest ih ihrest =>
      rw [resolveTypes]
      exact ih.cons ihrest

theorem agree_elementType (e : Expr) : Agree (elementType e) (resolveType e) := by
  unfold elementType
  split
  · next id hid =>
    obtain ⟨span, rfl⟩ := Expr.name?_eq_some.mp hid
    exact .given _ _
  · exact agree_resolveType e

theorem agree_elementTypes (es : List Expr) : Agree (elementTypes es) (resolveTypes es) := by
  induction es with
  | nil => exact .given _ _
  | cons e es ih =>
      rw [elementTypes, resolveTypes]
      exact (agree_elementType e).cons ih

theorem agree_paramType (hint : Expr) : Agree (paramType hint) (resolveType hint) := by
  unfold paramType
  split
  · exact .given _ _
  · next span element =>
    rw [resolveType]
    exact (agree_elementType element).map
  · next span elements =>
    rw [resolveType]
    exact (agree_elementTypes elements).map
  · next span elements hmany =>
    rw [resolveType.eq_4 _ _ hmany]
    exact .refused _ _ span
  · exact (agree_resolveType hint).mapLeft

/-- A parameter that is an ordinary one without a default can be declared exactly if its annotation has a
type; else both its declaration and the type are refused, as unsupported at the same span. -/
theorem paramText_agrees (function : String) {p : Param} {hint : Expr} (hkind : p.kind = .positional)
    (hdefault : p.default = none) (hhint : p.hint = some hint) :
    ((∃ text, paramText function p = .ok text) ↔ ∃ type, resolveType hint = .ok type) ∧
      ∀ e e', paramText function p = .error e → resolveType hint = .error e' →
        ∃ what what' span, e = .unsupported what span ∧ e' = .unsupported what' span := by
  have hagree : Agree (paramText function p) (resolveType hint) := by
    simp only [paramText, hhint, hdefault, hkind]
    exact (agree_paramType hint).mapLeft
  exact ⟨hagree.ok_iff, fun e e' => hagree.errors⟩

/-- `(int, [Foo, {}])`: the list has two element types, and the dictionary in it no entry. -/
def mixedTuple : Expr :=
  .tuple ⟨⟨1, 1, 0⟩, ⟨1, 16, 15⟩⟩ [.name ⟨⟨1, 2, 1⟩, ⟨1, 5, 4⟩⟩ "int",
    .list ⟨⟨1, 7, 6⟩, ⟨1, 15, 14⟩⟩ [.name ⟨⟨1, 8, 7⟩, ⟨1, 11, 10⟩⟩ "Foo",
      .dict ⟨⟨1, 13, 12⟩, ⟨1, 15, 14⟩⟩ [] []]]

/-- The list is refused in the annotation of a parameter as it is elsewhere. -/
theorem paramText_agrees_mixed :
    let p : Param := ⟨⟨"t", .nowhere⟩, some mixedTuple, none, .positional, .nowhere⟩
    p.kind = .positional ∧ p.default = none ∧ p.hint = some mixedTuple ∧
      (¬ ∃ text, paramText "f" p = .ok text) ∧
      ∃ e e', paramText "f" p = .error e ∧ resolveType mixedTuple = .error e' ∧
        ∃ what what' span, e = .unsupported what span ∧ e' = .unsupported what' span := by
  intro p
  obtain ⟨hok, herrors⟩ := paramText_agrees "f" (p := p) rfl rfl rfl
  have hparam : paramText "f" p = .error (.unsupported (.mixedList 2) ⟨⟨1, 7, 6⟩, ⟨1, 15, 14⟩⟩) := rfl
  have htype : resolveType mixedTuple =
      .error (.unsupported (.mixedList 2) ⟨⟨1, 7, 6⟩, ⟨1, 15, 14⟩⟩) := rfl
  refine ⟨rfl, rfl, rfl, ?_, _, _, hparam, htype, herrors _ _ hparam htype⟩
  rw [hok]
  rintro ⟨type, hok⟩
  cases htype.symm.trans hok

end MysToCpp.Cpp
