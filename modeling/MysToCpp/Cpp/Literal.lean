/-
# C++ literals and operators

The C++ spelling of operators, string literals and numbers.  A string literal holds visible ASCII
characters only: control characters are written as the octal escapes of their UTF-8 bytes, and other
characters beyond ASCII by their code point.
-/
import MysToCpp.Decimal.Style
import MysToCpp.Tree.Operator

namespace MysToCpp.Cpp

/-- The C++ operator between two operands; powers and matrix products have none. -/
def binaryToken? : BinaryOp → Option String
  | .add => some "+"
  | .sub => some "-"
  | .mult => some "*"
  | .div | .floorDiv => some "/"
  | .mod => some "%"
  | .shiftLeft => some "<<"
  | .shiftRight => some ">>"
  | .bitOr => some "|"
  | .bitXor => some "^"
  | .bitAnd => some "&"
  | .pow | .matMult => none

/-- The C++ operator between truth values. -/
def boolToken : BoolOp → String
  | .and => "&&"
  | .or => "||"

/-- The C++ operator in front of an operand; `~` has none. -/
def unaryToken? : UnaryOp → Option String
  | .not => some "!"
  | .plus => some "+"
  | .minus => some "-"
  | .invert => none

/-- The C++ comparison; membership tests are calls instead. -/
def compareToken? : CompareOp → Option String
  | .eq | .is => some "=="
  | .notEq | .isNot => some "!="
  | .less => some "<"
  | .lessEq => some "<="
  | .greater => some ">"
  | .greaterEq => some ">="
  | .isIn | .notIn => none

/-- The types that are passed by value. -/
def isPrimitive (name : String) : Bool := name = "int" || name = "float" || name = "bool"

def isControl (c : Char) : Bool := c.toNat < 0x20 || (0x7F ≤ c.toNat && c.toNat < 0xA0)

/-- Digits filled up with zeros to a width. -/
def padded (width : Nat) (digits : List Char) : List Char :=
  List.replicate (width - digits.length) '0' ++ digits

/-- A byte as an octal escape of three digits. -/
def octalEscape (b : UInt8) : List Char := '\\' :: padded 3 (Nat.toDigits 8 b.toNat)

def escapeChar (c : Char) : List Char :=
  if c = '\\' then ['\\', '\\']
  else if c = '"' then ['\\', '"']
  else if c = '\n' then ['\\', 'n']
  else if c = '\r' then ['\\', 'r']
  else if c = '\t' then ['\\', 't']
  else if isControl c then (String.utf8EncodeChar c).flatMap octalEscape
  else if c.toNat < 0x80 then [c]
  else if c.toNat ≤ 0xFFFF then '\\' :: 'u' :: padded 4 (Nat.toDigits 16 c.toNat)
  else '\\' :: 'U' :: padded 8 (Nat.toDigits 16 c.toNat)

def quote (s : String) : String :=
  .ofList ('"' :: s.toList.flatMap escapeChar ++ ['"'])

/-- A number with the suffix of single precision. -/
def floatLiteral (x : Binary64) : String := Decimal.render x ++ "f"

end MysToCpp.Cpp
