/-
# What has no C++ form

A tree that was parsed may still have no C++ form.  An `Unsupported` construct stands at a place in the
source; a `Misdeclared` function or method breaks a rule for declarations, which is reported without a
place.
-/
import MysToCpp.Source.Position

namespace MysToCpp

/-- Constructs without a C++ form. -/
inductive Unsupported where
  | construct
  | lambda
  | bytes
  | ellipsis
  /-- A list type with this many element types instead of one. -/
  | mixedList (count : Nat)
  | bareReturn
  | manyTargets
  /-- A variable declared without a value. -/
  | uninitialized (name : String)
  | decoratedMethod
  deriving DecidableEq, Repr, Inhabited

/-- Rules for declarations that can be broken. -/
inductive Misdeclared where
  | untypedParam (function param : String)
  | mainResult
  | mainParams
  | missingSelf
  deriving DecidableEq, Repr, Inhabited

/-- Why a tree has no C++ form. -/
inductive LoweringError where
  | unsupported (what : Unsupported) (span : Span)
  | misdeclared (what : Misdeclared)
  deriving DecidableEq, Repr, Inhabited

/-- C++ text, or why there is none. -/
abbrev Lowered := Except LoweringError

theorem Cpp.bind_eq_ok {α β : Type} {x : Lowered α} {f : α → Lowered β} {b : β}
    (h : x >>= f = .ok b) : ∃ a, x = .ok a ∧ f a = .ok b := by
  cases x with
  | error e => cases h
  | ok a => exact ⟨a, rfl, h⟩

def Unsupported.message : Unsupported → String
  | construct => "unsupported language construct"
  | lambda => "lambda functions are not supported"
  | bytes => "bytes() is not yet supported"
  | ellipsis => "'...' is not yet supported"
  | mixedList count => "lists must be homogeneous, found " ++ toString count ++ " element types"
  | bareReturn => "'return' without a value is not supported"
  | manyTargets => "assignments with more than one target is not yet supported"
  | uninitialized v => "variables must be initialized when declared ('" ++ v ++ "')"
  | decoratedMethod => "Methods must not be decorated."

def Misdeclared.message : Misdeclared → String
  | untypedParam function param => function ++ "(" ++ param ++ ") is not typed."
  | mainResult => "main() must return 'None'."
  | mainParams => "main() takes 'args: [str]' or no arguments."
  | missingSelf => "Methods must always take 'self' as their first argument."

def LoweringError.message : LoweringError → String
  | unsupported what _ => what.message
  | misdeclared what => what.message

end MysToCpp
