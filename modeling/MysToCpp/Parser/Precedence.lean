/-
# Precedence

How tightly operators bind.  A `Precedence` has a `binding` power; an operator takes an operand only if it binds
at least as tightly as the place asks for.  Between two powers there is room for one more, which is what
the right side of an operator that groups to the left asks for.
-/
import MysToCpp.Token.Basic
import MysToCpp.Tree.Expr

namespace MysToCpp

/-- The levels of binding, the loosest first. -/
inductive Precedence where
  | lowest
  /-- `:=` -/
  | named
  /-- `… if … else …` -/
  | ternary
  | or
  | and
  | not
  /-- Comparisons, identity and membership tests. -/
  | compare
  | bitOr
  | bitXor
  | bitAnd
  | shift
  /-- Sums and differences. -/
  | term
  /-- Products, quotients and remainders. -/
  | factor
  /-- Signs and `~`. -/
  | unary
  | power
  | await
  /-- Calls, subscripts and attributes. -/
  | postfixed
  deriving DecidableEq, Repr, Inhabited

def Precedence.binding : Precedence → Nat
  | lowest => 0
  | named => 2
  | ternary => 4
  | or => 6
  | and => 8
  | not => 10
  | compare => 12
  | bitOr => 14
  | bitXor => 16
  | bitAnd => 18
  | shift => 20
  | term => 22
  | factor => 24
  | unary => 26
  | power => 28
  | await => 30
  | postfixed => 32

/-- What assignment and loop targets ask for: they end before a comparison. -/
def Precedence.target : Nat := Precedence.compare.binding + 1

/-- The operator between two operands that a mark stands for, and its level. -/
def BinaryOp.ofPunct? : Punct → Option (BinaryOp × Precedence)
  | .plus => some (.add, .term)
  | .minus => some (.sub, .term)
  | .star => some (.mult, .factor)
  | .atSign => some (.matMult, .factor)
  | .slash => some (.div, .factor)
  | .doubleSlash => some (.floorDiv, .factor)
  | .percent => some (.mod, .factor)
  | .doubleStar => some (.pow, .power)
  | .shiftLeft => some (.shiftLeft, .shift)
  | .shiftRight => some (.shiftRight, .shift)
  | .pipe => some (.bitOr, .bitOr)
  | .caret => some (.bitXor, .bitXor)
  | .amp => some (.bitAnd, .bitAnd)
  | _ => none

/-- The operator of a mark that assigns at the same time. -/
def BinaryOp.ofAssignment? : Punct → Option BinaryOp
  | .plusAssign => some .add
  | .minusAssign => some .sub
  | .starAssign => some .mult
  | .atAssign => some .matMult
  | .slashAssign => some .div
  | .doubleSlashAssign => some .floorDiv
  | .percentAssign => some .mod
  | .doubleStarAssign => some .pow
  | .shiftLeftAssign => some .shiftLeft
  | .shiftRightAssign => some .shiftRight
  | .pipeAssign => some .bitOr
  | .caretAssign => some .bitXor
  | .ampAssign => some .bitAnd
  | _ => none

/-- The comparison that starts with a token, and whether the token behind it belongs to it. -/
def CompareOp.of? (first second : TokenKind) : Option (CompareOp × Bool) :=
  match first with
  | .punct .eqEq => some (.eq, false)
  | .punct .notEq => some (.notEq, false)
  | .punct .less => some (.less, false)
  | .punct .lessEq => some (.lessEq, false)
  | .punct .greater => some (.greater, false)
  | .punct .greaterEq => some (.greaterEq, false)
  | .keyword .inKw => some (.isIn, false)
  | .keyword .isKw => if second.isKeyword .notKw then some (.isNot, true) else some (.is, false)
  | .keyword .notKw => if second.isKeyword .inKw then some (.notIn, true) else none
  | _ => none

/-- What can follow an operand. -/
inductive Operator where
  | boolean (op : BoolOp)
  | comparison
  | binary (op : BinaryOp) (level : Precedence)
  | conditional
  | named
  | call
  | subscript
  | member
  deriving DecidableEq, Repr, Inhabited

namespace Operator

/-- The operator that starts with a token. -/
def of? (first second : TokenKind) : Option Operator :=
  match first with
  | .keyword .orKw => some (.boolean .or)
  | .keyword .andKw => some (.boolean .and)
  | .keyword .ifKw => some .conditional
  | .punct .walrus => some .named
  | .punct .parenOpen => some .call
  | .punct .squareOpen => some .subscript
  | .punct .dot => some .member
  | .punct p =>
    match BinaryOp.ofPunct? p with
    | some (op, level) => some (.binary op level)
    | none => (CompareOp.of? first second).map fun _ => .comparison
  | _ => (CompareOp.of? first second).map fun _ => .comparison

def level : Operator → Precedence
  | boolean .or => .or
  | boolean .and => .and
  | comparison => .compare
  | binary _ level => level
  | conditional => .ternary
  | named => .named
  | call | subscript | member => .postfixed

/-- What an operator asks of its right operand: more than its own power if it groups to the left, its own
power if it groups to the right, and that of a sign behind `**`, so that `2 ** -1` is one power. -/
def rightBinding (op : Operator) : Nat :=
  match op with
  | conditional | named => op.level.binding
  | binary .pow _ => Precedence.unary.binding
  | _ => op.level.binding + 1

end Operator

end MysToCpp
