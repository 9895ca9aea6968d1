/-
# Operators of the language

The operators of expressions, by meaning and not by spelling.
-/

namespace MysToCpp

/-- Operators between two numbers or sequences. -/
inductive BinaryOp where
  | add | sub | mult | matMult | div | mod | pow | shiftLeft | shiftRight | bitOr | bitXor | bitAnd
  | floorDiv
  deriving DecidableEq, Repr, Inhabited

/-- Operators between truth values. -/
inductive BoolOp where
  | and | or
  deriving DecidableEq, Repr, Inhabited

/-- Operators in front of an operand. -/
inductive UnaryOp where
  | invert | not | plus | minus
  deriving DecidableEq, Repr, Inhabited

/-- Comparisons, identity and membership tests. -/
inductive CompareOp where
  | eq | notEq | less | lessEq | greater | greaterEq | is | isNot | isIn | notIn
  deriving DecidableEq, Repr, Inhabited

end MysToCpp
