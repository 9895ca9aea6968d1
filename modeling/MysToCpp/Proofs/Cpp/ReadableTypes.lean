/-
# What the text of a type says about its annotation

A type is written as a name, or as a template with its arguments in angle brackets (`TypeTerm`).  Names
hold none of the characters that stand around them, so the text of a type is read in one way only:
`TypeTerm.text_inj` follows the term and keeps track of what stands behind it.  The term of a type tells
its annotation, because `List`, `Tuple`, `Dict` and `std::optional` are the only templates there are and
`str` is the only name that is written otherwise (`resolveType_readable`).  A class may be named `List` or
`Optional`; it has no arguments.
-/
import MysToCpp.Proofs.Cpp.Readable
import MysToCpp.Proofs.Cpp.TypeTree
import MysToCpp.Proofs.Tree.Within
import MysToCpp.Text.Unicode

namespace MysToCpp.Cpp

open Lexer (IsIdentifier)
open Text (isIdentifierChar)

/-! ## Terms -/

/-- A type as it is written. -/
inductive TypeTerm where
  | name (id : String)
  | app (head : String) (args : List TypeTerm)

namespace TypeTerm

variable [Text.IdentifierTable]

mutual

def text : TypeTerm → List Char
  | .name id => id.toList
  | .app head args => head.toList ++ '<' :: argsText args

/-- Arguments with the bracket that closes them. -/
def argsText : List TypeTerm → List Char
  | [] => ['>']
  | t :: rest => t.text ++ closing rest

/-- The arguments behind another one, with the bracket that closes them. -/
def closing : List TypeTerm → List Char
  | [] => ['>']
  | t :: rest => ',' :: ' ' :: (t.text ++ closing rest)

end

/-- The characters of names and of the heads of templates. -/
def isHeadChar (c : Char) : Bool := isIdentifierChar c || c = ':'

/-- A name or the head of a template. -/
structure IsHead (id : String) : Prop where
  filled : id.toList ≠ []
  chars : ∀ c ∈ id.toList, isHeadChar c = true

instance (id : String) : Decidable (IsHead id) :=
  decidable_of_iff (id.toList ≠ [] ∧ id.toList.all isHeadChar = true)
    ⟨fun h => ⟨h.1, List.all_eq_true.mp h.2⟩, fun h => ⟨h.filled, List.all_eq_true.mpr h.chars⟩⟩

mutual

/-- The names and heads of a term are such. -/
def Valid : TypeTerm → Prop
  | .name id => IsHead id
  | .app head args => IsHead head ∧ AllValid args

def AllValid : List TypeTerm → Prop
  | [] => True
  | t :: rest => t.Valid ∧ AllValid rest

end

/-! ### Terms are read in one way -/

/-- Nothing that goes on with a term stands in front. -/
def Stops (rest : List Char) : Prop := ∀ c ∈ rest.head?, isHeadChar c = false ∧ c ≠ '<'

theorem stops_cons {c : Char} (rest : List Char) (h : isHeadChar c = false ∧ c ≠ '<') :
    Stops (c :: rest) := by
  rintro x ⟨⟩
  exact h

theorem stops_closing (ts : List TypeTerm) (rest : List Char) : Stops (closing ts ++ rest) := by
  cases ts with
  | nil => exact stops_cons _ ⟨rfl, by decide⟩
  | cons t ts => exact stops_cons _ ⟨rfl, by decide⟩

/-- Two heads are the same if no character of a head stands behind them. -/
theorem IsHead.inj {a b : String} {r s : List Char} (ha : IsHead a) (hb : IsHead b)
    (hr : ∀ c ∈ r.head?, isHeadChar c = false) (hs : ∀ c ∈ s.head?, isHeadChar c = false)
    (h : a.toList ++ r = b.toList ++ s) : a = b ∧ r = s := by
  obtain ⟨hab, hrs⟩ := append_inj_of_run ha.chars hb.chars hr hs h
  exact ⟨String.toList_inj.mp hab, hrs⟩

theorem Stops.head {rest : List Char} (h : Stops rest) : ∀ c ∈ rest.head?, isHeadChar c = false :=
  fun c hc => (h c hc).1

theorem open_head (rest : List Char) : ∀ c ∈ ('<' :: rest).head?, isHeadChar c = false := by
  rintro c ⟨⟩
  rfl

theorem Stops.ne_open {rest : List Char} (h : Stops rest) (more : List Char) : rest ≠ '<' :: more := by
  rintro rfl
  exact (h '<' rfl).2 rfl

theorem Valid.ne_close {t : TypeTerm} (h : t.Valid) (rest more : List Char) :
    t.text ++ rest ≠ '>' :: more := by
  have hhead {id : String} (hid : IsHead id) (behind : List Char) : id.toList ++ behind ≠ '>' :: more := by
    obtain ⟨c, cs, hcs⟩ := List.exists_cons_of_ne_nil hid.filled
    intro heq
    rw [hcs] at heq
    obtain rfl := (List.cons.inj heq).1
    have hc := hid.chars '>' (by rw [hcs]; exact List.mem_cons_self)
    exact Bool.false_ne_true hc
  cases t with
  | name id => exact hhead h rest
  | app head args =>
      rw [text, List.append_assoc]
      exact hhead h.1 _

mutual

/-- A term is read in one way, up to what cannot go on with it. -/
theorem text_inj (s : TypeTerm) {t : TypeTerm} {r r' : List Char} (hs : s.Valid) (ht : t.Valid)
    (hr : Stops r) (hr' : Stops r') (h : s.text ++ r = t.text ++ r') : s = t ∧ r = r' := by
  match s, t with
  | .name a, .name b =>
      obtain ⟨hab, hrest⟩ := hs.inj ht hr.head hr'.head h
      exact ⟨by rw [hab], hrest⟩
  | .name a, .app head args =>
      rw [text, text, List.append_assoc] at h
      obtain ⟨-, hrest⟩ := hs.inj ht.1 hr.head (open_head _) h
      exact absurd hrest (hr.ne_open _)
  | .app head args, .name b =>
      rw [text, text, List.append_assoc] at h
      obtain ⟨-, hrest⟩ := hs.1.inj ht (open_head _) hr'.head h
      exact absurd hrest.symm (hr'.ne_open _)
  | .app head args, .app head' args' =>
      rw [text, text, List.append_assoc, List.append_assoc] at h
      obtain ⟨hhead, hrest⟩ := hs.1.inj ht.1 (open_head _) (open_head _) h
      obtain ⟨hargs, hrest⟩ := argsText_inj args hs.2 ht.2 (List.cons.inj hrest).2
      exact ⟨by rw [hhead, hargs], hrest⟩

theorem argsText_inj (ss : List TypeTerm) {ts : List TypeTerm} {r r' : List Char} (hs : AllValid ss)
    (ht : AllValid ts) (h : argsText ss ++ r = argsText ts ++ r') : ss = ts ∧ r = r' := by
  match ss, ts with
  | [], [] => exact ⟨rfl, (List.cons.inj h).2⟩
  | [], t :: ts =>
      rw [argsText, argsText, List.append_assoc] at h
      exact absurd h.symm (ht.1.ne_close _ _)
  | s :: ss, [] =>
      rw [argsText, argsText, List.append_assoc] at h
      exact absurd h (hs.1.ne_close _ _)
  | s :: ss, t :: ts =>
      rw [argsText, argsText, List.append_assoc, List.append_assoc] at h
      obtain ⟨hst, hrest⟩ := text_inj s hs.1 ht.1 (stops_closing ss r) (stops_closing ts r') h
      obtain ⟨hmore, hrest⟩ := closing_inj ss hs.2 ht.2 hrest
      exact ⟨by rw [hst, hmore], hrest⟩

theorem closing_inj (ss : List TypeTerm) {ts : List TypeTerm} {r r' : List Char} (hs : AllValid ss)
    (ht : AllValid ts) (h : closing ss ++ r = closing ts ++ r') : ss = ts ∧ r = r' := by
  match ss, ts with
  | [], [] => exact ⟨rfl, (List.cons.inj h).2⟩
  | [], t :: ts => exact absurd (List.cons.inj h).1 (by decide)
  | s :: ss, [] => exact absurd (List.cons.inj h).1 (by decide)
  | s :: ss, t :: ts =>
      rw [closing, closing, List.cons_append, List.cons_append, List.cons_append, List.cons_append,
        List.append_assoc, List.append_assoc] at h
      have h := (List.cons.inj (List.cons.inj h).2).2
      obtain ⟨hst, hrest⟩ := text_inj s hs.1 ht.1 (stops_closing ss r) (stops_closing ts r') h
      obtain ⟨hmore, hrest⟩ := closing_inj ss hs.2 ht.2 hrest
      exact ⟨by rw [hst, hmore], hrest⟩

end

end TypeTerm

/-! ## Angle brackets -/

/-- How many angle brackets are open behind a character; `none` where one closes too many. -/
def angle (depth : Nat) (c : Char) : Option Nat :=
  if c = '<' then some (depth + 1)
  else if c = '>' then
    match depth with
    | 0 => none
    | depth + 1 => some depth
  else some depth

/-- Every angle bracket that is opened is closed, and no other one. -/
def AnglesBalanced (cs : List Char) : Prop := cs.foldlM angle 0 = some 0

theorem angle_other {c : Char} (h : c ≠ '<' ∧ c ≠ '>') (depth : Nat) : angle depth c = some depth := by
  simp [angle, h]

namespace TypeTerm

variable [Text.IdentifierTable]

theorem IsHead.angles {id : String} (h : IsHead id) (depth : Nat) :
    id.toList.foldlM angle depth = some depth := by
  have hplain : ∀ c ∈ id.toList, c ≠ '<' ∧ c ≠ '>' := by
    intro c hc
    constructor
    all_goals
      rintro rfl
      exact Bool.false_ne_true (h.chars _ hc)
  generalize id.toList = cs at hplain
  induction cs with
  | nil => rfl
  | cons c cs ih =>
      obtain ⟨hc, hcs⟩ := List.forall_mem_cons.mp hplain
      rw [List.foldlM_cons, angle_other hc]
      exact ih hcs

mutual

theorem angles_text (t : TypeTerm) (h : t.Valid) (depth : Nat) :
    t.text.foldlM angle depth = some depth := by
  match t with
  | .name id => exact IsHead.angles h depth
  | .app head args =>
      rw [text, List.foldlM_append, h.1.angles depth]
      exact angles_argsText args h.2 depth

theorem angles_argsText (ts : List TypeTerm) (h : AllValid ts) (depth : Nat) :
    (argsText ts).foldlM angle (depth + 1) = some depth := by
  match ts with
  | [] => rfl
  | t :: ts =>
      rw [argsText, List.foldlM_append, angles_text t h.1 (depth + 1)]
      exact angles_closing ts h.2 depth

theorem angles_closing (ts : List TypeTerm) (h : AllValid ts) (depth : Nat) :
    (closing ts).foldlM angle (depth + 1) = some depth := by
  match ts with
  | [] => rfl
  | t :: ts =>
      show (t.text ++ closing ts).foldlM angle (depth + 1) = some depth
      rw [List.foldlM_append, angles_text t h.1 (depth + 1)]
      exact angles_closing ts h.2 depth

end

theorem Valid.balanced {t : TypeTerm} (h : t.Valid) : AnglesBalanced t.text := angles_text t h 0

end TypeTerm

/-! ## The terms of types -/

open TypeTerm (IsHead AllValid argsText closing)

namespace CppType

mutual

/-- A type as it is written. -/
def term : CppType → TypeTerm
  | .named name => .name name
  | .shared name => .app "std::shared_ptr" [.name name]
  | .optional name => .app "std::optional" [.name name]
  | .list element => .app "List" [element.term]
  | .tuple components => .app "Tuple" (terms components)
  | .dict key value => .app "Dict" [.name key, value.term]

def terms : List CppType → List TypeTerm
  | [] => []
  | t :: rest => t.term :: terms rest

end

end CppType

theorem toList_commas {texts : List String} {ts : List TypeTerm} {first : String}
    (h : texts.map String.toList = ts.map TypeTerm.text) :
    (commas (first :: texts)).toList ++ ['>'] = first.toList ++ closing ts := by
  induction texts generalizing ts first with
  | nil =>
      obtain rfl := List.map_eq_nil_iff.mp h.symm
      rw [commas, String.intercalate_singleton, closing]
  | cons second texts ih =>
      cases ts with
      | nil => cases h
      | cons t ts =>
          obtain ⟨ht, hts⟩ := List.cons.inj h
          have hcomma : ", ".toList = [',', ' '] := rfl
          rw [commas, String.intercalate_cons_cons, String.toList_append, String.toList_append,
            List.append_assoc, closing, hcomma, ← ht, ← ih hts, List.append_assoc]
          rfl

theorem toList_template {head : String} {texts : List String} {ts : List TypeTerm}
    (h : texts.map String.toList = ts.map TypeTerm.text) :
    (template head texts).toList = (TypeTerm.app head ts).text := by
  rw [template, String.toList_append, String.toList_append, String.toList_append, TypeTerm.text,
    List.append_assoc, List.append_assoc]
  cases texts with
  | nil =>
      obtain rfl := List.map_eq_nil_iff.mp h.symm
      rfl
  | cons first texts =>
      cases ts with
      | nil => cases h
      | cons t ts =>
          obtain ⟨ht, hts⟩ := List.cons.inj h
          have hclose : ">".toList = ['>'] := rfl
          rw [hclose, toList_commas hts, ht]
          rfl

namespace CppType

mutual

theorem toList_text (t : CppType) : t.text.toList = t.term.text := by
  match t with
  | .named name => rfl
  | .shared name | .optional name => exact toList_template rfl
  | .list element => exact toList_template (by rw [List.map_singleton, toList_text element, List.map_singleton])
  | .tuple components => exact toList_template (toList_texts components)
  | .dict key value =>
      refine toList_template ?_
      rw [List.map_cons, List.map_singleton, toList_text value]
      rfl

theorem toList_texts (ts : List CppType) : (texts ts).map String.toList = (terms ts).map TypeTerm.text := by
  match ts with
  | [] => rfl
  | t :: ts => rw [texts, terms, List.map_cons, List.map_cons, toList_text t, toList_texts ts]

end

end CppType

section

variable [Text.IdentifierTable]

/-! ## Annotations -/

/-- An identifier that is no C++ name of another type. -/
def OwnName (id : String) : Prop := IsIdentifier id ∧ id ≠ "String"

theorem isHead_identifier {id : String} (h : IsIdentifier id) : IsHead id where
  filled := by
    obtain ⟨first, more, hid, -⟩ := h
    rw [hid]
    exact List.cons_ne_nil _ _
  chars c hc := by rw [TypeTerm.isHeadChar, h.chars c hc, Bool.true_or]

theorem isHead_typeName {id : String} (h : IsIdentifier id) : IsHead (typeName id) := by
  unfold typeName
  split
  · exact of_decide_eq_true rfl
  · exact isHead_identifier h

theorem OwnName.inj {a b : String} (ha : OwnName a) (hb : OwnName b) (h : typeName a = typeName b) :
    a = b := by
  unfold typeName at h
  split at h
  · next hstr =>
    split at h
    · next hstr' => exact hstr.trans hstr'.symm
    · exact absurd h.symm hb.2
  · split at h
    · exact absurd h ha.2
    · exact h

mutual

theorem Resolves.valid {e : Expr} {t : CppType} (h : Resolves e t) (hnames : e.Names OwnName) :
    t.term.Valid := by
  cases h with
  | name span id => exact isHead_typeName (Expr.names_name.mp hnames).1
  | optional span outer inner id =>
      have hid := Expr.names_name.mp (Expr.names_subscript.mp hnames).2
      exact ⟨of_decide_eq_true rfl, isHead_typeName hid.1, trivial⟩
  | @list span e t ht =>
      have he := Expr.names_list.mp hnames e List.mem_cons_self
      exact ⟨of_decide_eq_true rfl, ht.valid he, trivial⟩
  | tuple span hts => exact ⟨of_decide_eq_true rfl, hts.valid (Expr.names_tuple.mp hnames)⟩
  | @dict span inner id e t ht =>
      have hall := Expr.names_dict.mp hnames
      have hid := Expr.names_name.mp (hall _ List.mem_cons_self)
      exact ⟨of_decide_eq_true rfl, isHead_typeName hid.1, ht.valid (hall e (by simp)), trivial⟩

theorem ResolvesAll.valid {es : List Expr} {ts : List CppType} (h : ResolvesAll es ts)
    (hnames : ∀ e ∈ es, e.Names OwnName) : AllValid (CppType.terms ts) := by
  cases h with
  | nil => trivial
  | cons ht hts =>
      obtain ⟨he, hes⟩ := List.forall_mem_cons.mp hnames
      exact ⟨ht.valid he, hts.valid hes⟩

end

mutual

theorem Resolves.bare_eq {a b : Expr} {s t : CppType} (ha : Resolves a s) (hb : Resolves b t)
    (hnames : a.Names OwnName) (hnames' : b.Names OwnName) (h : s.term = t.term) : a.bare = b.bare := by
  cases ha with
  | name span id => cases hb with
    | name span' id' =>
        have hid := (Expr.names_name.mp hnames).inj (Expr.names_name.mp hnames') (TypeTerm.name.inj h)
        rw [Expr.bare, Expr.bare, hid]
    | _ => simp [CppType.term] at h
  | optional span outer inner id => cases hb with
    | optional span' outer' inner' id' =>
        have hid := Expr.names_name.mp (Expr.names_subscript.mp hnames).2
        have hid' := Expr.names_name.mp (Expr.names_subscript.mp hnames').2
        simp only [CppType.term, TypeTerm.app.injEq, List.cons.injEq, TypeTerm.name.injEq, and_true,
          true_and] at h
        simp only [Expr.bare, hid.inj hid' h]
    | _ => simp [CppType.term] at h
  | @list span e t he => cases hb with
    | @list span' e' t' he' =>
        simp only [CppType.term, TypeTerm.app.injEq, List.cons.injEq, and_true, true_and] at h
        have helement := he.bare_eq he' (Expr.names_list.mp hnames e List.mem_cons_self)
          (Expr.names_list.mp hnames' e' List.mem_cons_self) h
        simp only [Expr.bare, Expr.bareAll, helement]
    | _ => simp [CppType.term] at h
  | tuple span hes => cases hb with
    | tuple span' hes' =>
        simp only [CppType.term, TypeTerm.app.injEq, true_and] at h
        have helements := hes.bareAll_eq hes' (Expr.names_tuple.mp hnames) (Expr.names_tuple.mp hnames') h
        simp only [Expr.bare, helements]
    | _ => simp [CppType.term] at h
  | @dict span inner id e t he => cases hb with
    | @dict span' inner' id' e' t' he' =>
        have hall := Expr.names_dict.mp hnames
        have hall' := Expr.names_dict.mp hnames'
        simp only [CppType.term, TypeTerm.app.injEq, List.cons.injEq, TypeTerm.name.injEq, and_true,
          true_and] at h
        have hid := (Expr.names_name.mp (hall _ List.mem_cons_self)).inj
          (Expr.names_name.mp (hall' _ List.mem_cons_self)) h.1
        have hvalue := he.bare_eq he' (hall e (.tail _ List.mem_cons_self))
          (hall' e' (.tail _ List.mem_cons_self)) h.2
        simp only [Expr.bare, Expr.bareAll, hid, hvalue]
    | _ => simp [CppType.term] at h

theorem ResolvesAll.bareAll_eq {as bs : List Expr} {ss ts : List CppType} (ha : ResolvesAll as ss)
    (hb : ResolvesAll bs ts) (hnames : ∀ e ∈ as, e.Names OwnName) (hnames' : ∀ e ∈ bs, e.Names OwnName)
    (h : CppType.terms ss = CppType.terms ts) : Expr.bareAll as = Expr.bareAll bs := by
  cases ha with
  | nil => cases hb with
    | nil => rfl
    | cons => cases h
  | cons hfirst hrest => cases hb with
    | nil => cases h
    | cons hfirst' hrest' =>
        obtain ⟨he, hes⟩ := List.forall_mem_cons.mp hnames
        obtain ⟨he', hes'⟩ := List.forall_mem_cons.mp hnames'
        obtain ⟨hterm, hterms⟩ := List.cons.inj h
        rw [Expr.bareAll, Expr.bareAll, hfirst.bare_eq hfirst' he he' hterm,
          hrest.bareAll_eq hrest' hes hes' hterms]

end

/-- Annotations with the same type are the same but for their places, and angle brackets are balanced in
their type, where names are identifiers other than `String`. -/
theorem resolveType_readable {a b : Expr} {text : String} (ha : a.Names OwnName) (hb : b.Names OwnName)
    (hta : resolveType a = .ok text) (htb : resolveType b = .ok text) :
    a.bare = b.bare ∧ AnglesBalanced text.toList := by
  obtain ⟨s, hs, rfl⟩ := resolveType_eq_ok.mp hta
  obtain ⟨t, ht, htext⟩ := resolveType_eq_ok.mp htb
  have hsvalid := hs.valid ha
  have hwritten := congrArg String.toList htext
  rw [CppType.toList_text, CppType.toList_text] at hwritten
  have hstop : TypeTerm.Stops [] := nofun
  have hterm := s.term.text_inj hsvalid (ht.valid hb) hstop hstop (congrArg (· ++ []) hwritten)
  refine ⟨hs.bare_eq ht ha hb hterm.1, ?_⟩
  rw [CppType.toList_text]
  exact hsvalid.balanced

end

/-- `([List], {str: ()}, Optional[Optional])` at a place of a text. -/
def nestedHint (span : Span) : Expr :=
  .tuple span [.list span [.name span "List"], .dict span [.name span "str"] [.tuple span []],
    .subscript span (.name span "Optional") (.name span "Optional")]

/-- Classes named like templates, an empty tuple, and two places. -/
theorem resolveType_readable_nested :
    let a := nestedHint .nowhere
    let b := nestedHint ⟨⟨1, 4, 3⟩, ⟨1, 44, 43⟩⟩
    let text := "Tuple<List<List>, Dict<String, Tuple<>>, std::optional<Optional>>"
    a.Names OwnName ∧ b.Names OwnName ∧ resolveType a = .ok text ∧ resolveType b = .ok text ∧
      a.bare = b.bare ∧ AnglesBalanced text.toList := by
  intro a b text
  have hown (span : Span) : (nestedHint span).Names OwnName := by
    have hlist : OwnName "List" :=
      ⟨⟨'L', ['i', 's', 't'], rfl, by decide, List.all_eq_true.mp (by decide)⟩, by decide⟩
    have hstr : OwnName "str" :=
      ⟨⟨'s', ['t', 'r'], rfl, by decide, List.all_eq_true.mp (by decide)⟩, by decide⟩
    have hoptional : OwnName "Optional" :=
      ⟨⟨'O', ['p', 't', 'i', 'o', 'n', 'a', 'l'], rfl, by decide, List.all_eq_true.mp (by decide)⟩,
        by decide⟩
    simp [nestedHint, hlist, hstr, hoptional]
  have hta : resolveType a = .ok text := by cbv
  have htb : resolveType b = .ok text := by cbv
  exact ⟨hown _, hown _, hta, htb, resolveType_readable (hown _) (hown _) hta htb⟩

end MysToCpp.Cpp
