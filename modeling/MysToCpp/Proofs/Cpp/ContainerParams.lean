/-
# Containers as parameters

A parameter that is a list, a tuple or a dictionary is declared with the type of its elements, and those of
the elements in them.  An element is found along a path, in the annotation (`annotationAt?`) and in the type
(`CppType.at?`), and a name there is rendered by how deep it stands: a class that is an element of the
parameter itself is held by a shared pointer, and one that is an element of an element stands for itself
(`Rendered`).
-/
import MysToCpp.Proofs.Cpp.TypeTree

namespace MysToCpp.Cpp

/-! ## Element positions -/

/-- The annotations of the elements of a container: for a dictionary, of its values. -/
def elementsOf : Expr → List Expr
  | .list _ elements => elements
  | .tuple _ elements => elements
  | .dict _ _ values => values
  | _ => []

/-- The annotation of the element that a path of element numbers leads to. -/
def annotationAt? : List Nat → Expr → Option Expr
  | [], e => some e
  | i :: path, e => (elementsOf e)[i]?.bind (annotationAt? path)

namespace CppType

def elements : CppType → List CppType
  | .list element => [element]
  | .tuple components => components
  | .dict _ value => [value]
  | _ => []

/-- The type of the element that a path of element numbers leads to. -/
def at? : List Nat → CppType → Option CppType
  | [], t => some t
  | i :: path, t => t.elements[i]?.bind (at? path)

end CppType

/-! ### The text at a position -/

theorem infix_commas {text : String} {texts : List String} (h : text ∈ texts) :
    text.toList <:+: (commas texts).toList := by
  induction texts with
  | nil => cases h
  | cons first rest ih => cases rest with
    | nil =>
        have hone : commas [first] = first := String.intercalate_singleton
        obtain rfl := List.mem_singleton.mp h
        simp only [hone]
        exact List.infix_rfl
    | cons second rest =>
        rw [commas, String.intercalate_cons_cons, String.toList_append, String.toList_append]
        rcases List.mem_cons.mp h with rfl | hrest
        · exact List.infix_append_left.trans List.infix_append_left
        · exact (ih hrest).trans List.infix_append_right

theorem infix_template {name text : String} {args : List String} (h : text ∈ args) :
    text.toList <:+: (template name args).toList := by
  simp only [template, String.toList_append]
  exact ((infix_commas h).trans List.infix_append_right).trans List.infix_append_left

theorem CppType.mem_texts {t : CppType} {ts : List CppType} (h : t ∈ ts) : t.text ∈ CppType.texts ts := by
  induction ts with
  | nil => cases h
  | cons first rest ih =>
      rcases List.mem_cons.mp h with rfl | hrest
      · exact List.mem_cons_self ..
      · exact List.mem_cons_of_mem _ (ih hrest)

theorem CppType.infix_element {s t : CppType} (h : s ∈ t.elements) : s.text.toList <:+: t.text.toList := by
  cases t with
  | named | shared | optional => cases h
  | list element =>
      rw [List.mem_singleton.mp h]
      exact infix_template (List.mem_singleton_self _)
  | tuple components => exact infix_template (mem_texts h)
  | dict key value =>
      rw [List.mem_singleton.mp h]
      exact infix_template (List.mem_cons_of_mem _ (List.mem_singleton_self _))

theorem CppType.infix_at {t s : CppType} {path : List Nat} (h : t.at? path = some s) :
    s.text.toList <:+: t.text.toList := by
  induction path generalizing t with
  | nil =>
      obtain rfl := Option.some.inj h
      exact List.infix_rfl
  | cons i path ih =>
      obtain ⟨element, helement, hrest⟩ := Option.bind_eq_some_iff.mp h
      exact (ih hrest).trans (infix_element (List.mem_of_getElem? helement))

/-! ### Positions that correspond -/

/-- Lists that correspond element by element do so at each place, and go on to do so where the elements
do. -/
theorem rel_bind_of_forall₂ {R S : Expr → CppType → Prop} {f : Expr → Option Expr}
    {g : CppType → Option CppType} {es : List Expr} {ts : List CppType} (h : List.Forall₂ R es ts)
    (hstep : ∀ e t, R e t → Option.Rel S (f e) (g t)) (i : Nat) :
    Option.Rel S (es[i]?.bind f) (ts[i]?.bind g) := by
  induction h generalizing i with
  | nil => exact .none
  | cons hfirst _ ih => cases i with
    | zero => exact hstep _ _ hfirst
    | succ i => exact ih i

theorem some_of_rel {S : Expr → CppType → Prop} {e : Expr} {t : Option CppType}
    (h : Option.Rel S (some e) t) : ∃ s, t = some s ∧ S e s := by
  cases h with
  | some hes => exact ⟨_, rfl, hes⟩

theorem Resolves.elements {e : Expr} {t : CppType} (h : Resolves e t) :
    List.Forall₂ Resolves (elementsOf e) t.elements := by
  cases h with
  | name | optional => exact .nil
  | list _ ht | dict _ _ _ ht => exact .cons ht .nil
  | tuple _ hts => exact hts.forall₂

theorem Resolves.at {e : Expr} {t : CppType} (h : Resolves e t) (path : List Nat) :
    Option.Rel Resolves (annotationAt? path e) (t.at? path) := by
  induction path generalizing e t with
  | nil => exact .some h
  | cons i path ih => exact rel_bind_of_forall₂ h.elements (fun _ _ hi => ih hi) i

/-! ## Names in containers -/

def isContainer : Expr → Bool
  | .list .. | .tuple .. | .dict .. => true
  | _ => false

def isDict : Expr → Bool
  | .dict .. => true
  | _ => false

/-- How a name is rendered at an element position of a parameter. -/
structure Rendered (hint : Expr) (path : List Nat) (id : String) (t : CppType) : Prop where
  string : id = "str" → t = .named "String"
  primitive : isPrimitive id = true → t = .named id
  /-- A class as an element of a list or a tuple. -/
  direct : id ≠ "str" → isPrimitive id = false → path.length = 1 → isDict hint = false → t = .shared id
  /-- A class as an element of an element. -/
  deeper : id ≠ "str" → isPrimitive id = false → 1 < path.length → t = .named id

/-- An annotation at an element position is rendered so if it is a name. -/
def NameRendered (hint : Expr) (path : List Nat) (e : Expr) (t : CppType) : Prop :=
  ∀ id, e.name? = some id → Rendered hint path id t

theorem Passed.elements {hint : Expr} {t : CppType} (h : Passed hint t) (hcontainer : isContainer hint = true) :
    List.Forall₂ (fun e s => Held e s ∨ isDict hint = true ∧ Resolves e s) (elementsOf hint) t.elements := by
  cases h with
  | name | optional => exact absurd hcontainer Bool.false_ne_true
  | list _ he => exact .cons (.inl he) .nil
  | tuple _ hes => exact hes.imp fun _ _ he => .inl he
  | dict _ _ _ he => exact .cons (.inr ⟨rfl, he⟩) .nil

section

variable {hint : Expr} {i : Nat} {path : List Nat}

theorem rendered_named (hplace : path.length = 1 → isDict hint = true) (id : String) :
    Rendered hint path id (.named (typeName id)) where
  string hstr := by rw [hstr, typeName, if_pos rfl]
  primitive hprimitive := by rw [typeName, if_neg (ne_str_of_isPrimitive hprimitive)]
  direct _ _ hlength hlist := absurd ((hplace hlength).symm.trans hlist) (by decide)
  deeper hstr _ _ := by rw [typeName, if_neg hstr]

/-- A class that is an element is held in common. -/
theorem rendered_held (id : String) : Rendered hint [i] id (heldName id) where
  string hstr := by rw [hstr, heldName, if_pos rfl]
  primitive hprimitive := by rw [heldName, if_neg (ne_str_of_isPrimitive hprimitive), if_pos hprimitive]
  direct hstr hclass _ _ := by rw [heldName, if_neg hstr, hclass, if_neg Bool.false_ne_true]
  deeper _ _ hlength := absurd hlength (Nat.lt_irrefl 1)

theorem elements_heldName (id : String) : (heldName id).elements = [] := by
  unfold heldName
  split
  · rfl
  · split <;> rfl

theorem Resolves.nameRendered {e : Expr} {t : CppType} (h : Resolves e t)
    (hplace : path.length = 1 → isDict hint = true) : NameRendered hint path e t := by
  intro id hid
  obtain ⟨span, rfl⟩ := Expr.name?_eq_some.mp hid
  cases h
  exact rendered_named hplace id

theorem Resolves.nameRendered_below {e : Expr} {t : CppType} (h : Resolves e t) (j : Nat) :
    Option.Rel (NameRendered hint (i :: j :: path)) (annotationAt? (j :: path) e) (t.at? (j :: path)) := by
  have hlength : (i :: j :: path).length = 1 → isDict hint = true := nofun
  have hat := h.at (j :: path)
  generalize annotationAt? (j :: path) e = e', t.at? (j :: path) = t' at hat
  cases hat with
  | none => exact .none
  | some hat => exact .some (hat.nameRendered hlength)

theorem nameRendered_element {e : Expr} {t : CppType} (h : Held e t ∨ isDict hint = true ∧ Resolves e t) :
    Option.Rel (NameRendered hint (i :: path)) (annotationAt? path e) (t.at? path) := by
  cases path with
  | nil =>
      refine .some ?_
      obtain (⟨span, id⟩ | ⟨hname, -⟩) | ⟨hdict, ht⟩ := h
      · rintro id' ⟨⟩
        exact rendered_held id
      · intro id hid
        cases hname.symm.trans hid
      · exact ht.nameRendered fun _ => hdict
  | cons j path =>
      obtain (⟨span, id⟩ | ⟨-, ht⟩) | ⟨-, ht⟩ := h
      · rw [CppType.at?, elements_heldName]
        exact .none
      · exact ht.nameRendered_below j
      · exact ht.nameRendered_below j

end

theorem byValue_container {hint : Expr} (h : isContainer hint = true) : byValue hint = false := by
  cases hint with
  | list | tuple | dict => rfl
  | _ => cases h

/-- A parameter that is a container is declared by a type whose elements, at all depths, are those of the
annotation: strings and numbers by their C++ names, and classes by a shared pointer where they are elements
of the parameter itself, if that is a list or a tuple, and by their own names below. -/
theorem paramText_container {function : String} {p : Param} {hint : Expr} {text : String}
    (hhint : p.hint = some hint) (hcontainer : isContainer hint = true)
    (h : paramText function p = .ok text) :
    ∃ type : CppType, text = type.text ++ "& " ++ p.name.name ∧
      ∀ path, Option.Rel (NameRendered hint path) (annotationAt? path hint) (type.at? path) := by
  obtain ⟨-, -, hint', type, hhint', htype, rfl⟩ := paramText_eq_ok.mp h
  cases hhint.symm.trans hhint'
  obtain ⟨t, ht, rfl⟩ := passed_of_paramType htype
  refine ⟨t, ?_, fun path => ?_⟩
  · simp only [byValue_container hcontainer, Bool.false_eq_true, if_false, String.append_assoc]
    rfl
  · cases path with
    | nil =>
        refine .some fun id hid => ?_
        obtain ⟨span, rfl⟩ := Expr.name?_eq_some.mp hid
        cases hcontainer
    | cons i path =>
        exact rel_bind_of_forall₂ (ht.elements hcontainer) (fun _ _ he => nameRendered_element he) i

/-- `t: (int, Foo, [Foo])`. -/
def tupleParam : Param :=
  ⟨⟨"t", .nowhere⟩, some (.tuple .nowhere [.name .nowhere "int", .name .nowhere "Foo",
    .list .nowhere [.name .nowhere "Foo"]]), none, .positional, .nowhere⟩

/-- The elements of a tuple, and those of an element. -/
theorem paramText_container_sample :
    tupleParam.hint.any isContainer = true ∧
      paramText "f" tupleParam = .ok "Tuple<int, std::shared_ptr<Foo>, List<Foo>>& t" ∧
      ∃ type : CppType, "Tuple<int, std::shared_ptr<Foo>, List<Foo>>& t" = type.text ++ "& " ++ "t" ∧
        type.at? [0] = some (.named "int") ∧ type.at? [1] = some (.shared "Foo") ∧
        type.at? [2, 0] = some (.named "Foo") := by
  have htext : paramText "f" tupleParam = .ok "Tuple<int, std::shared_ptr<Foo>, List<Foo>>& t" := by cbv
  obtain ⟨type, hwritten, hat⟩ := paramText_container (p := tupleParam) rfl rfl htext
  refine ⟨rfl, htext, type, hwritten, ?_, ?_, ?_⟩
  · obtain ⟨t, ht, hr⟩ := some_of_rel (hat [0])
    rw [ht, (hr _ rfl).primitive rfl]
  · obtain ⟨t, ht, hr⟩ := some_of_rel (hat [1])
    rw [ht, (hr _ rfl).direct (by decide) rfl rfl rfl]
  · obtain ⟨t, ht, hr⟩ := some_of_rel (hat [2, 0])
    rw [ht, (hr _ rfl).deeper (by decide) rfl (by decide)]

/-- `m: {str: [Foo]}` names the class in the list without a shared pointer. -/
theorem paramText_container_deeper :
    ¬ ∀ (function : String) (p : Param) (hint : Expr) (text : String), p.hint = some hint →
      isContainer hint = true → paramText function p = .ok text →
      ∃ type : CppType, text = type.text ++ "& " ++ p.name.name ∧
        ∀ path span id, path ≠ [] → annotationAt? path hint = some (.name span id) →
          type.at? path = some (heldName id) := by
  intro h
  obtain ⟨type, htext, hat⟩ := h "f" ⟨⟨"m", .nowhere⟩, some (.dict .nowhere [.name .nowhere "str"]
    [.list .nowhere [.name .nowhere "Foo"]]), none, .positional, .nowhere⟩ _
    "Dict<String, List<Foo>>& m" rfl rfl (by cbv)
  have hfoo := CppType.infix_at (hat [0, 0] .nowhere "Foo" nofun rfl)
  have hcolon : ':' ∈ (heldName "Foo").text.toList := by
    have hshared : (heldName "Foo").text = "std::shared_ptr<Foo>" := rfl
    rw [hshared]
    decide
  have hall : ':' ∈ "Dict<String, List<Foo>>& m".toList := by
    rw [htext, String.append_assoc, String.toList_append]
    exact List.mem_append_left _ (hfoo.subset hcolon)
  exact absurd hall (by decide)

end MysToCpp.Cpp
