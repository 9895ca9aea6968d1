/-
# Types as trees

The text of a type is that of a tree, which an annotation determines: a name stands for itself, `[T]` for a
list, `(T, U)` for a tuple, `{K: V}` for a dictionary and `Optional[T]` for an optional value.  `Resolves`
says so, case by case, and `resolveType_eq_ok` that the annotations with a type are those.

The type of a parameter has a tree of its own (`Passed`): a class that stands alone, or directly in a list
or a tuple, is held by a shared pointer.
-/
import Mathlib.Data.List.Forall2
import MysToCpp.Cpp.TypeName

namespace MysToCpp

namespace Cpp

/-- The types that annotations stand for. -/
inductive CppType where
  | named (name : String)
  /-- A value of a class that is held in common. -/
  | shared (name : String)
  | optional (name : String)
  | list (element : CppType)
  | tuple (components : List CppType)
  | dict (key : String) (value : CppType)

mutual

def CppType.text : CppType → String
  | .named name => name
  | .shared name => template "std::shared_ptr" [name]
  | .optional name => template "std::optional" [name]
  | .list element => template "List" [element.text]
  | .tuple components => template "Tuple" (CppType.texts components)
  | .dict key value => template "Dict" [key, value.text]

def CppType.texts : List CppType → List String
  | [] => []
  | t :: rest => t.text :: CppType.texts rest

end

mutual

/-- An annotation and the type that it stands for. -/
inductive Resolves : Expr → CppType → Prop
  | name (span id) : Resolves (.name span id) (.named (typeName id))
  | optional (span outer inner id) :
      Resolves (.subscript span (.name outer "Optional") (.name inner id)) (.optional (typeName id))
  | list (span) {e t} : Resolves e t → Resolves (.list span [e]) (.list t)
  | tuple (span) {es ts} : ResolvesAll es ts → Resolves (.tuple span es) (.tuple ts)
  | dict (span inner id) {e t} : Resolves e t →
      Resolves (.dict span [.name inner id] [e]) (.dict (typeName id) t)

inductive ResolvesAll : List Expr → List CppType → Prop
  | nil : ResolvesAll [] []
  | cons {e t es ts} : Resolves e t → ResolvesAll es ts → ResolvesAll (e :: es) (t :: ts)

end

theorem ResolvesAll.forall₂ {es : List Expr} {ts : List CppType} (h : ResolvesAll es ts) :
    List.Forall₂ Resolves es ts := by
  induction es generalizing ts with
  | nil =>
      cases h
      exact .nil
  | cons e es ih => cases h with
    | cons hfirst hrest => exact .cons hfirst (ih hrest)

/-! ## The annotations that have a type -/

theorem keyType_eq_ok {key : Expr} {text : String} :
    keyType key = .ok text ↔ ∃ span id, key = .name span id ∧ text = typeName id := by
  unfold keyType
  cases hname : key.name? with
  | none =>
      refine ⟨nofun, ?_⟩
      rintro ⟨span, id, rfl, -⟩
      cases hname
  | some id =>
      obtain ⟨span, rfl⟩ := Expr.name?_eq_some.mp hname
      constructor
      · intro h
        cases h
        exact ⟨span, id, rfl, rfl⟩
      · rintro ⟨span', id', hkey, rfl⟩
        cases hkey
        rfl

theorem optionalType_eq_ok {span : Span} {value index : Expr} {text : String}
    (h : optionalType span value index = .ok text) :
    ∃ outer inner id, value = .name outer "Optional" ∧ index = .name inner id ∧
      text = template "std::optional" [typeName id] := by
  unfold optionalType at h
  split at h
  · next name id hvalue hindex =>
    obtain ⟨outer, rfl⟩ := Expr.name?_eq_some.mp hvalue
    obtain ⟨inner, rfl⟩ := Expr.name?_eq_some.mp hindex
    split at h
    · next hname =>
      cases h
      exact ⟨outer, inner, id, by rw [hname], rfl, rfl⟩
    · cases h
  · cases h

theorem resolves_of_resolveType {e : Expr} :
    ∀ {text : String}, resolveType e = .ok text → ∃ t, Resolves e t ∧ text = t.text := by
  induction e using resolveType.induct _ (fun es => ∀ texts : List String,
      resolveTypes es = .ok texts → ∃ ts, ResolvesAll es ts ∧ texts = CppType.texts ts) with
  | case1 span id =>
      intro text h
      cases h
      exact ⟨_, .name span id, rfl⟩
  | case2 span value index =>
      intro text h
      obtain ⟨outer, inner, id, rfl, rfl, rfl⟩ := optionalType_eq_ok h
      exact ⟨_, .optional span outer inner id, rfl⟩
  | case3 span element ih =>
      intro text h
      rw [resolveType] at h
      obtain ⟨inner, hinner, h⟩ := bind_eq_ok h
      obtain ⟨t, ht, rfl⟩ := ih hinner
      cases h
      exact ⟨_, .list span ht, rfl⟩
  | case4 span elements hmany =>
      intro text h
      rw [resolveType.eq_4 _ _ hmany] at h
      cases h
  | case5 span elements ih =>
      intro text h
      rw [resolveType] at h
      obtain ⟨texts, htexts, h⟩ := bind_eq_ok h
      obtain ⟨ts, hts, rfl⟩ := ih _ htexts
      cases h
      exact ⟨_, .tuple span hts, rfl⟩
  | case6 span key value ih =>
      intro text h
      rw [resolveType] at h
      obtain ⟨k, hk, h⟩ := bind_eq_ok h
      obtain ⟨v, hv, h⟩ := bind_eq_ok h
      obtain ⟨inner, id, rfl, rfl⟩ := keyType_eq_ok.mp hk
      obtain ⟨t, ht, rfl⟩ := ih hv
      cases h
      exact ⟨_, .dict span inner id ht, rfl⟩
  | case7 other =>
      intro text h
      have hother : resolveType other = unsupported other.span := by rw [resolveType] <;> assumption
      rw [hother] at h
      cases h
  | case8 texts h =>
      cases h
      exact ⟨[], .nil, rfl⟩
  | case9 e rest ih ihrest texts h =>
      rw [resolveTypes] at h
      obtain ⟨first, hfirst, h⟩ := bind_eq_ok h
      obtain ⟨more, hmore, h⟩ := bind_eq_ok h
      obtain ⟨t, ht, rfl⟩ := ih hfirst
      obtain ⟨ts, hts, rfl⟩ := ihrest _ hmore
      cases h
      exact ⟨t :: ts, .cons ht hts, rfl⟩

mutual

theorem Resolves.resolveType {e : Expr} {t : CppType} (h : Resolves e t) :
    Cpp.resolveType e = .ok t.text := by
  cases h with
  | name span id => rfl
  | optional span outer inner id => rfl
  | list span ht =>
      rw [Cpp.resolveType, ht.resolveType]
      rfl
  | tuple span hts =>
      rw [Cpp.resolveType, hts.resolveTypes]
      rfl
  | dict span inner id ht =>
      rw [Cpp.resolveType, ht.resolveType]
      rfl

theorem ResolvesAll.resolveTypes {es : List Expr} {ts : List CppType} (h : ResolvesAll es ts) :
    Cpp.resolveTypes es = .ok (CppType.texts ts) := by
  cases h with
  | nil => rfl
  | cons ht hts =>
      rw [Cpp.resolveTypes, ht.resolveType, hts.resolveTypes]
      rfl

end

/-- The annotations that have a type are those that stand for one. -/
theorem resolveType_eq_ok {e : Expr} {text : String} :
    resolveType e = .ok text ↔ ∃ t, Resolves e t ∧ text = t.text := by
  refine ⟨resolves_of_resolveType, ?_⟩
  rintro ⟨t, ht, rfl⟩
  exact ht.resolveType

/-! ## The types of parameters -/

/-- The type of a bare name in a parameter. -/
def heldName (name : String) : CppType :=
  if name = "str" then .named "String" else if isPrimitive name then .named name else .shared name

theorem ne_str_of_isPrimitive {name : String} (h : isPrimitive name = true) : name ≠ "str" := by
  rintro rfl
  exact absurd h (by decide)

theorem text_heldName (name : String) : (heldName name).text = elementName name := by
  unfold heldName elementName
  split
  · rfl
  · split <;> rfl

/-- A direct element of a list or a tuple in a parameter. -/
inductive Held : Expr → CppType → Prop
  | name (span id) : Held (.name span id) (heldName id)
  | nested {e t} : e.name? = none → Resolves e t → Held e t

/-- The annotation of a parameter and the type that its argument is passed as. -/
inductive Passed : Expr → CppType → Prop
  | name (span id) : Passed (.name span id) (heldName id)
  | optional (span outer inner id) :
      Passed (.subscript span (.name outer "Optional") (.name inner id)) (.optional (typeName id))
  | list (span) {e t} : Held e t → Passed (.list span [e]) (.list t)
  | tuple (span) {es ts} : List.Forall₂ Held es ts → Passed (.tuple span es) (.tuple ts)
  | dict (span inner id) {e t} : Resolves e t →
      Passed (.dict span [.name inner id] [e]) (.dict (typeName id) t)

/-- Numbers and truth values are passed by value. -/
def byValue (hint : Expr) : Bool := hint.name?.any isPrimitive

theorem held_of_elementType {e : Expr} {text : String} (h : elementType e = .ok text) :
    ∃ t, Held e t ∧ text = t.text := by
  unfold elementType at h
  split at h
  · next id hid =>
    obtain ⟨span, rfl⟩ := Expr.name?_eq_some.mp hid
    cases h
    exact ⟨_, .name span id, (text_heldName id).symm⟩
  · next hname =>
    obtain ⟨t, ht, htext⟩ := resolveType_eq_ok.mp h
    exact ⟨t, .nested hname ht, htext⟩

theorem held_of_elementTypes {es : List Expr} {texts : List String} (h : elementTypes es = .ok texts) :
    ∃ ts, List.Forall₂ Held es ts ∧ texts = CppType.texts ts := by
  induction es generalizing texts with
  | nil =>
      cases h
      exact ⟨[], .nil, rfl⟩
  | cons e es ih =>
      obtain ⟨first, hfirst, h⟩ := bind_eq_ok h
      obtain ⟨more, hmore, h⟩ := bind_eq_ok h
      obtain ⟨t, ht, rfl⟩ := held_of_elementType hfirst
      obtain ⟨ts, hts, rfl⟩ := ih hmore
      cases h
      exact ⟨t :: ts, .cons ht hts, rfl⟩

/-- The type of a parameter is written as its tree, with a mark of reference behind it unless it is passed
by value. -/
theorem passed_of_paramType {hint : Expr} {text : String} (h : paramType hint = .ok text) :
    ∃ t, Passed hint t ∧ text = if byValue hint then t.text else t.text ++ "&" := by
  unfold paramType at h
  split at h
  · next span id =>
    cases h
    refine ⟨_, .name span id, ?_⟩
    have hvalue : byValue (.name span id) = isPrimitive id := rfl
    rw [hvalue, text_heldName]
    split
    · next hprimitive => rw [elementName, if_neg (ne_str_of_isPrimitive hprimitive), if_pos hprimitive]
    · rfl
  · next span e =>
    obtain ⟨inner, hinner, h⟩ := bind_eq_ok h
    obtain ⟨t, ht, rfl⟩ := held_of_elementType hinner
    cases h
    exact ⟨_, .list span ht, rfl⟩
  · next span es =>
    obtain ⟨texts, htexts, h⟩ := bind_eq_ok h
    obtain ⟨ts, hts, rfl⟩ := held_of_elementTypes htexts
    cases h
    exact ⟨_, .tuple span hts, rfl⟩
  · cases h
  · next hname hone htuple hlist =>
    obtain ⟨inner, hinner, h⟩ := bind_eq_ok h
    obtain ⟨t, ht, rfl⟩ := resolveType_eq_ok.mp hinner
    cases h
    cases ht with
    | name => exact absurd rfl (hname _ _)
    | list => exact absurd rfl (hlist _ _)
    | tuple => exact absurd rfl (htuple _ _)
    | optional span outer inner id => exact ⟨_, .optional span outer inner id, rfl⟩
    | dict span inner id ht => exact ⟨_, .dict span inner id ht, rfl⟩

theorem paramText_eq_ok {function : String} {p : Param} {text : String} :
    paramText function p = .ok text ↔ p.kind = .positional ∧ p.default = none ∧
      ∃ hint type, p.hint = some hint ∧ paramType hint = .ok type ∧
        text = type ++ " " ++ p.name.name := by
  unfold paramText
  constructor
  · intro h
    split at h
    · cases h
    · next hint hhint =>
      split at h
      · cases h
      · next hdefault =>
        split at h
        · cases h
        · next hkind =>
          obtain ⟨type, htype, h⟩ := bind_eq_ok h
          cases h
          exact ⟨not_not.mp hkind, hdefault, hint, type, hhint, htype, rfl⟩
  · rintro ⟨hkind, hdefault, hint, type, hhint, htype, rfl⟩
    simp only [hhint, hdefault, hkind, htype]
    rfl

end Cpp

end MysToCpp
