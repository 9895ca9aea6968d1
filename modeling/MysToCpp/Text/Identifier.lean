/-
# Characters of identifiers

An identifier starts with a character of the Unicode property `XID_Start` or an underscore and goes
on with characters of `XID_Continue`.  The ASCII part of both is decided by comparison.  The rest
changes from one version of Unicode to the next, so it is a parameter, an `IdentifierTable`, and what
is shown of the lexer holds for every table.
-/
import MysToCpp.Text.Ranges

namespace MysToCpp.Text

/-- What a version of Unicode says about the characters of identifiers beyond ASCII. -/
class IdentifierTable where
  /-- The characters of `XID_Start`. -/
  startRanges : List (Nat × Nat)
  /-- The characters of `XID_Continue` that are not in `XID_Start`. -/
  extraRanges : List (Nat × Nat)

section

variable [IdentifierTable]

/-- Whether an identifier can start with `c`. -/
def isIdentifierStart (c : Char) : Bool :=
  if c.toNat < 0x80 then c.isAlpha || c == '_'
  else inRanges IdentifierTable.startRanges c.toNat

/-- Whether an identifier can go on with `c`. -/
def isIdentifierChar (c : Char) : Bool :=
  if c.toNat < 0x80 then c.isAlphanum || c == '_'
  else inRanges IdentifierTable.startRanges c.toNat || inRanges IdentifierTable.extraRanges c.toNat

end

def isDigit (c : Char) : Bool := c.isDigit

def isHexDigit (c : Char) : Bool :=
  c.isDigit || ('a' ≤ c && c ≤ 'f') || ('A' ≤ c && c ≤ 'F')

/-- The value of a digit or letter as a digit of a base up to 36; other characters count as 36. -/
def digitValue (c : Char) : Nat :=
  if c.isDigit then c.toNat - '0'.toNat
  else if c.isLower then c.toNat - 'a'.toNat + 10
  else if c.isUpper then c.toNat - 'A'.toNat + 10
  else 36

/-- The number that digits of a base spell, the first digit counting most. -/
def ofDigits (base : Nat) (cs : List Char) : Nat :=
  cs.foldl (fun n c => n * base + digitValue c) 0

end MysToCpp.Text
