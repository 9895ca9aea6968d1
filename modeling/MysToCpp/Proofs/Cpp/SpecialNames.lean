/-
# `self` and `print`

An attribute is written with `this->`, and a call as output, where the text of the receiver or of the
function is `self` or `print`.  The text is that of a name only if the expression is one, possibly with
subscripts behind it, which are dropped, or alone in a boolean operation, which adds nothing (`base`): every
other text has a mark or a digit in it or is a constant (`lowerExpr_eq_word`).  So the two special forms
belong to `self` and `print` with subscripts (`lowerExpr_special`), and not only to the bare names.
-/
import Mathlib.Data.List.Basic
import Mathlib.Logic.Basic
import MysToCpp.Cpp.Expr
import MysToCpp.Proofs.Text.Decimals

namespace MysToCpp.Cpp

open Decimal (decimalChars)

/-! ## Words that only names are written as -/

def allSmall (s : String) : Bool := s.toList.all Char.isLower

@[simp] theorem allSmall_append (s t : String) : allSmall (s ++ t) = (allSmall s && allSmall t) := by
  rw [allSmall, String.toList_append, List.all_append]
  rfl

@[simp] theorem allSmall_blank : allSmall " " = false := by decide

@[simp] theorem allSmall_comma : allSmall ", " = false := by decide

/-- A word of small letters that is no truth value and no number. -/
structure NameOnly (w : String) : Prop where
  small : allSmall w = true
  noTruth : w ≠ "true" ∧ w ≠ "false"
  noNumber : ¬ w.toList ⊆ decimalChars

theorem nameOnly_self : NameOnly "self" := ⟨by decide, by decide, fun h => absurd (@h 's') (by decide)⟩

theorem nameOnly_print : NameOnly "print" := ⟨by decide, by decide, fun h => absurd (@h 'p') (by decide)⟩

theorem allSmall_embedded (code : List Char) : allSmall (embedded code) = false := by
  have hstart : allSmall "/* mys-embedded-c++ start */\n\n" = false := by decide
  obtain ⟨rest, hrest⟩ : ∃ rest, embedded code = "/* mys-embedded-c++ start */\n\n" ++ rest :=
    ⟨_, String.append_assoc ..⟩
  rw [hrest, allSmall_append, hstart]
  rfl

theorem allSmall_quote (s : String) : allSmall (quote s) = false := by
  rw [allSmall, quote, String.toList_ofList]
  rfl

theorem allSmall_stringText (s : String) : allSmall (stringText s) = false := by
  by_cases h : embeddedSentinel.toList.isPrefixOf s.toList = true
  · rw [stringText, if_pos h]
    exact allSmall_embedded _
  · rw [stringText, if_neg h]
    exact allSmall_quote s

section Texts

variable {w : String} (hw : NameOnly w)

include hw

theorem NameOnly.ne_of_mark {text : String} (h : allSmall text = false) : text ≠ w := by
  rintro rfl
  exact Bool.false_ne_true (h.symm.trans hw.small)

theorem NameOnly.ne_constant {span : Span} {c : Constant} {text : String}
    (h : constantText span c = .ok text) : text ≠ w := by
  cases c with
  | text s =>
      cases h
      exact hw.ne_of_mark (allSmall_stringText s)
  | bool b =>
      cases h
      cases b
      · exact hw.noTruth.2.symm
      · exact hw.noTruth.1.symm
  | int n =>
      cases h
      rintro rfl
      refine hw.noNumber ?_
      rw [Nat.toString_eq_ofList_toDigits, String.toList_ofList]
      exact Decimal.toDigits_subset n
  | float x =>
      cases h
      rintro rfl
      refine hw.noNumber ?_
      rw [floatLiteral, String.toList_append, Decimal.render, String.toList_ofList]
      exact List.append_subset.mpr ⟨Decimal.write_subset x, Decimal.literal_subset rfl⟩
  | none =>
      cases h
      exact hw.ne_of_mark (by decide)
  | bytes | ellipsis => cases h

end Texts

/-! ## Marked texts -/

/-- A text that is given has a character that is no small letter. -/
def Marked (l : Lowered String) : Prop := ∀ text, l = .ok text → allSmall text = false

theorem marked_ok {text : String} (h : allSmall text = false) : Marked (.ok text) := by
  intro text' htext
  cases htext
  exact h

theorem marked_error (e : LoweringError) : Marked (.error e) := nofun

theorem Marked.bind {α : Type} {l : Lowered α} {f : α → Lowered String} (h : ∀ a, Marked (f a)) :
    Marked (l >>= f) := by
  intro text htext
  obtain ⟨a, -, htext⟩ := bind_eq_ok htext
  exact h a text htext

theorem allSmall_operation (left token right : String) : allSmall (operation left token right) = false := by
  simp [operation]

theorem marked_binaryText (span : Span) (op : BinaryOp) (left right : String) :
    Marked (binaryText span op left right) := by
  unfold binaryText
  split
  · exact marked_ok (by simp [powerText])
  · split
    · exact marked_ok (allSmall_operation _ _ _)
    · exact marked_error _

theorem marked_compareText (span : Span) (op : CompareOp) (left right : String) :
    Marked (compareText span op left right) := by
  unfold compareText
  split
  · exact marked_ok (by simp)
  · exact marked_ok (by simp)
  · split
    · exact marked_ok (by simp)
    · exact marked_error _

theorem allSmall_unaryToken {op : UnaryOp} {token : String} (h : unaryToken? op = some token) :
    allSmall token = false := by
  cases op <;> cases h <;> decide

theorem allSmall_printText (args : List String) : allSmall (printText args) = false := by
  have hstop : allSmall " << std::endl" = false := by decide
  unfold printText
  split
  · decide
  · simp [hstop]

theorem marked_callOrFail (func : String) (args : List String) (keywords : List KeywordArg) :
    Marked (callOrFail func args keywords) := by
  cases keywords with
  | cons k rest => exact marked_error _
  | nil =>
      refine marked_ok ?_
      unfold callText
      split
      · exact allSmall_printText args
      · have hclose : allSmall ")" = false := by decide
        simp [hclose]

theorem allSmall_memberText (value attr : String) : allSmall (memberText value attr) = false := by
  have hthis : allSmall "this->" = false := by decide
  have hdot : allSmall "." = false := by decide
  unfold memberText
  split
  · simp [hthis]
  · simp [hdot]

theorem marked_boolText {span : Span} {op : BoolOp} (first second : String) (rest : List String) :
    Marked (boolText span op (first :: second :: rest)) := by
  refine marked_ok ?_
  rw [List.foldl_cons]
  have hstart := allSmall_operation first (boolToken op) second
  generalize operation first (boolToken op) second = text at hstart
  induction rest generalizing text with
  | nil => exact hstart
  | cons value rest ih => exact ih _ (allSmall_operation _ _ _)

/-! ## The name behind a text -/

/-- The part of an expression that its text is taken from. -/
def base : Expr → Expr
  | .subscript _ value _ => base value
  | .boolOp _ _ [value] => base value
  | e => e

/-- The text is taken from the name `w`. -/
def TakenFrom (e : Expr) (w : String) : Prop := ∃ span, base e = .name span w

theorem lowerExpr_boolOp_single (span : Span) (op : BoolOp) (value : Expr) :
    lowerExpr (.boolOp span op [value]) = lowerExpr value := by
  rw [lowerExpr, lowerExprs, lowerExprs]
  cases lowerExpr value <;> rfl

/-- The text of an expression that is neither a name nor a constant and does not hand on the text of a part
is marked. -/
theorem marked_lowerExpr {e : Expr} (hname : e.name? = none) (hconstant : ∀ span c, e ≠ .constant span c)
    (hsubscript : ∀ span value index, e ≠ .subscript span value index)
    (hsingle : ∀ span op value, e ≠ .boolOp span op [value]) : Marked (lowerExpr e) := by
  cases e with
  | name span id => cases hname
  | constant span c => exact absurd rfl (hconstant span c)
  | subscript span value index => exact absurd rfl (hsubscript span value index)
  | binary span left op right =>
      rw [lowerExpr]
      exact .bind fun l => .bind fun r => marked_binaryText span op l r
  | boolOp span op values =>
      rw [lowerExpr]
      match values with
      | [] => exact marked_error _
      | [value] => exact absurd rfl (hsingle span op value)
      | first :: second :: rest =>
          intro text h
          obtain ⟨texts, htexts, h⟩ := bind_eq_ok h
          obtain ⟨a, -, htexts⟩ := bind_eq_ok htexts
          obtain ⟨more, hmore, htexts⟩ := bind_eq_ok htexts
          obtain ⟨b, -, hmore⟩ := bind_eq_ok hmore
          obtain ⟨more', -, hmore⟩ := bind_eq_ok hmore
          cases hmore
          cases htexts
          exact marked_boolText a b more' text h
  | unary span op operand =>
      rw [lowerExpr]
      split
      · next token htoken =>
        refine .bind fun text => marked_ok ?_
        rw [allSmall_append, allSmall_unaryToken htoken]
        rfl
      · exact marked_error _
  | compare span left ops comparators =>
      match ops, comparators with
      | [op], [right] =>
          rw [lowerExpr]
          exact .bind fun l => .bind fun r => marked_compareText span op l r
      | [], _ => exact marked_error _
      | _ :: _ :: _, _ => exact marked_error _
      | [_], [] => exact marked_error _
      | [_], _ :: _ :: _ => exact marked_error _
  | call span func args keywords =>
      rw [lowerExpr]
      exact .bind fun f => .bind fun texts => marked_callOrFail f texts keywords
  | member span value attr =>
      rw [lowerExpr]
      exact .bind fun text => marked_ok (allSmall_memberText text attr.name)
  | tuple span elements =>
      have hopen : allSmall "Tuple<todo>(\x7b" = false := by decide
      rw [lowerExpr]
      exact .bind fun texts => marked_ok (by simp [hopen])
  | list span elements =>
      have hopen : allSmall "List<todo>(\x7b" = false := by decide
      rw [lowerExpr]
      exact .bind fun texts => marked_ok (by simp [hopen])
  | dict span keys values => exact marked_ok (by decide)
  | _ => exact marked_error _

theorem lowerExpr_eq_word {w : String} (hw : NameOnly w) (e : Expr) :
    lowerExpr e = .ok w ↔ TakenFrom e w := by
  unfold TakenFrom
  fun_induction base e with
  | case1 span value index ih =>
      rw [lowerExpr]
      exact ih
  | case2 span op value ih =>
      rw [lowerExpr_boolOp_single]
      exact ih
  | case3 e hsubscript hsingle =>
      constructor
      · intro h
        cases hname : e.name? with
        | some id =>
            obtain ⟨span, rfl⟩ := Expr.name?_eq_some.mp hname
            cases h
            exact ⟨span, rfl⟩
        | none =>
            by_cases hconstant : ∃ span c, e = .constant span c
            · obtain ⟨span, c, rfl⟩ := hconstant
              exact absurd rfl (hw.ne_constant h)
            · have hmarked := marked_lowerExpr hname (fun span c he => hconstant ⟨span, c, he⟩)
                hsubscript hsingle
              exact absurd rfl (hw.ne_of_mark (hmarked w h))
      · rintro ⟨span, rfl⟩
        rfl

/-! ## The special forms -/

/-- The two forms of an attribute are told apart by the last character in front of its name. -/
theorem memberText_eq_this {receiver attr : String} :
    memberText receiver attr = "this->" ++ attr ↔ receiver = "self" := by
  unfold memberText
  split
  · next h => exact ⟨fun _ => h, fun _ => rfl⟩
  · next h =>
    refine ⟨fun htext => ?_, fun hself => absurd hself h⟩
    have hfront : receiver.toList ++ ['.'] = "this->".toList := by
      have htext := congrArg String.toList htext
      simp only [String.toList_append] at htext
      exact List.append_cancel_right htext
    have hlast := congrArg List.getLast? hfront
    rw [List.getLast?_concat] at hlast
    exact absurd hlast (by decide)

theorem getLast?_printText (args : List String) : (printText args).toList.getLast? = some 'l' := by
  unfold printText
  split
  · decide
  · rw [String.toList_append]
    exact List.getLast?_append_of_ne_nil _ (by decide)

/-- A call that is no output ends with a parenthesis. -/
theorem callText_eq_print {func : String} {args : List String} :
    (∃ texts, callText func args = printText texts) ↔ func = "print" := by
  unfold callText
  split
  · next h => exact ⟨fun _ => h, fun _ => ⟨args, rfl⟩⟩
  · next h =>
    refine ⟨?_, fun hprint => absurd hprint h⟩
    rintro ⟨texts, htext⟩
    have hlast := congrArg (fun s : String => s.toList.getLast?) htext
    simp only [getLast?_printText, String.toList_append] at hlast
    rw [List.getLast?_append_of_ne_nil _ (by decide)] at hlast
    exact absurd hlast (by decide)

/-- An attribute is written with `this->` exactly if the text of its receiver is taken from the name `self`,
and otherwise behind that text; a call without keyword arguments is written as output exactly if the text of
the function is taken from the name `print`, and otherwise as a call of that text. -/
theorem lowerExpr_special {e : Expr} {text : String} (h : lowerExpr e = .ok text) :
    (∀ span value attr, e = .member span value attr →
      ∃ receiver, lowerExpr value = .ok receiver ∧
        (text = "this->" ++ attr.name ↔ TakenFrom value "self") ∧
        (¬ TakenFrom value "self" → text = receiver ++ "." ++ attr.name)) ∧
    ∀ span func args, e = .call span func args [] →
      ∃ callee texts, lowerExpr func = .ok callee ∧ lowerExprs args = .ok texts ∧
        ((∃ printed, text = printText printed) ↔ TakenFrom func "print") ∧
        (TakenFrom func "print" → text = printText texts) ∧
        (¬ TakenFrom func "print" → text = callee ++ "(" ++ commas texts ++ ")") := by
  constructor
  · rintro span value attr rfl
    rw [lowerExpr] at h
    obtain ⟨receiver, hreceiver, h⟩ := bind_eq_ok h
    cases h
    have hself : receiver = "self" ↔ TakenFrom value "self" := by
      rw [← lowerExpr_eq_word nameOnly_self, hreceiver]
      exact ⟨fun h => by rw [h], Except.ok.inj⟩
    refine ⟨receiver, hreceiver, memberText_eq_this.trans hself, fun hno => ?_⟩
    exact if_neg (hself.not.mpr hno)
  · rintro span func args rfl
    rw [lowerExpr] at h
    obtain ⟨callee, hcallee, h⟩ := bind_eq_ok h
    obtain ⟨texts, htexts, h⟩ := bind_eq_ok h
    cases h
    have hprint : callee = "print" ↔ TakenFrom func "print" := by
      rw [← lowerExpr_eq_word nameOnly_print, hcallee]
      exact ⟨fun h => by rw [h], Except.ok.inj⟩
    refine ⟨callee, texts, hcallee, htexts, callText_eq_print.trans hprint, fun hyes => ?_, fun hno => ?_⟩
    · exact if_pos (hprint.mpr hyes)
    · exact if_neg (hprint.not.mpr hno)

/-- `self.x` and `f(x)`. -/
theorem lowerExpr_special_samples :
    (∃ text, lowerExpr (.member .nowhere (.name .nowhere "self") ⟨"x", .nowhere⟩) = .ok text ∧
      text = "this->" ++ "x") ∧
    ∃ text, lowerExpr (.call .nowhere (.name .nowhere "f") [.name .nowhere "x"] []) = .ok text ∧
      ¬ ∃ printed, text = printText printed := by
  constructor
  · have htext : lowerExpr (.member .nowhere (.name .nowhere "self") ⟨"x", .nowhere⟩) = .ok "this->x" := rfl
    obtain ⟨receiver, -, hthis, -⟩ := (lowerExpr_special htext).1 _ _ _ rfl
    exact ⟨_, htext, hthis.mpr ⟨.nowhere, rfl⟩⟩
  · have htext : lowerExpr (.call .nowhere (.name .nowhere "f") [.name .nowhere "x"] []) = .ok "f(x)" := rfl
    obtain ⟨callee, texts, -, -, hprint, -⟩ := (lowerExpr_special htext).2 _ _ _ rfl
    refine ⟨_, htext, fun h => ?_⟩
    obtain ⟨span, hname⟩ := hprint.mp h
    exact absurd hname (by simp [base])

/-- `self[0].x` has no name as its receiver and is written with `this->` nevertheless. -/
theorem lowerExpr_special_subscript :
    ¬ ∀ span value attr text, lowerExpr (.member span value attr) = .ok text →
      (text = "this->" ++ attr.name ↔ ∃ inner, value = .name inner "self") := by
  intro h
  obtain ⟨inner, hvalue⟩ := (h .nowhere (.subscript .nowhere (.name .nowhere "self")
    (.constant .nowhere (.int 0))) ⟨"x", .nowhere⟩ "this->x" rfl).mp rfl
  cases hvalue

end MysToCpp.Cpp
