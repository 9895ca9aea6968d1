/-
# Number literals

A number literal is read in two steps: first the run of characters that belongs to it, whatever it is
worth, then the value of that run.  Letters and digits that follow the digits belong to the run, so that
`1abc` is one bad number and not a number with a name behind it.
-/
import MysToCpp.Decimal.Read
import MysToCpp.Token.Basic
import MysToCpp.Token.Cursor
import MysToCpp.Token.Error

namespace MysToCpp.Token

open Text (IdentifierTable isDigit isIdentifierChar digitValue ofDigits)

variable [IdentifierTable]

/-- What a scan ended with, and where it stopped. -/
abbrev Scanned := Except LexFault TokenKind × Cursor

/-- The integers of the language lie below this. -/
def intLimit : Nat := Nat.pow 2 128

def isDigitOrUnderscore (c : Char) : Bool := isDigit c || c = '_'

/-- Whether `a` stands directly before `b` somewhere. -/
def hasPair (a b : Char) (cs : List Char) : Bool :=
  (cs.zip cs.tail).any fun pair => pair.1 = a && pair.2 = b

def withoutUnderscores (cs : List Char) : List Char := cs.filter (· ≠ '_')

/-- The value of digits of a base, if there are some and the integers of the language reach that far. -/
def readInt? (base : Nat) (cs : List Char) : Option Nat :=
  if cs.isEmpty || !cs.all (digitValue · < base) then none
  else
    let n := ofDigits base cs
    if n < intLimit then some n else none

/-- The failure of a number with this text. -/
def badNumber (text : List Char) : Except LexFault TokenKind :=
  .error (.invalidNumber (.ofList text))

/-- A number in base two, eight or sixteen; `marker` is the character that says which. -/
def radixValue (base : Nat) (marker : Char) (digits : List Char) : Except LexFault TokenKind :=
  let text := '0' :: marker :: digits
  if digits.getLast? = some '_' || hasPair '_' '_' digits then badNumber text
  else match readInt? base (withoutUnderscores digits) with
    | some n => .ok (.int n)
    | none => badNumber text

/-- The base that the character behind a leading zero asks for. -/
def radixOf? (first : Char) (second : Option Char) : Option (Nat × Char) :=
  match second with
  | some marker =>
    if first ≠ '0' then none
    else if marker = 'x' || marker = 'X' then some (16, marker)
    else if marker = 'o' || marker = 'O' then some (8, marker)
    else if marker = 'b' || marker = 'B' then some (2, marker)
    else none
  | none => none

/-- Whether the underscores of a decimal stand anywhere but between two characters other than an
underscore and a point. -/
def misplacesUnderscore (text : List Char) : Bool :=
  text.getLast? = some '_' || hasPair '_' '_' text || hasPair '_' '.' text || hasPair '.' '_' text

def dropPlus : List Char → List Char
  | '+' :: cs => cs
  | cs => cs

/-- The value of a decimal literal.  A whole number does not start with a zero unless it is zero. -/
def decimalValue (text : List Char) (isFloat : Bool) : Except LexFault TokenKind :=
  let digits := withoutUnderscores text
  if misplacesUnderscore text then badNumber text
  else if isFloat then
    match Decimal.readDecimal? digits with
    | some x => .ok (.float x)
    | none => badNumber text
  else if digits.head? = some '0' && digits.any (· ≠ '0') then badNumber text
  else match readInt? 10 (dropPlus digits) with
    | some n => .ok (.int n)
    | none => badNumber text

/-- A point with the digits behind it.  Two points in a row belong to no number. -/
def scanFraction (c : Cursor) : List Char × Cursor :=
  if c.peek? = some '.' && c.peekSecond? ≠ some '.' then
    let (digits, c) := c.skip.takeWhile isDigitOrUnderscore
    ('.' :: digits, c)
  else ([], c)

def scanSign (c : Cursor) : List Char × Cursor :=
  match c.peek? with
  | some sign => if sign = '+' || sign = '-' then ([sign], c.skip) else ([], c)
  | none => ([], c)

/-- An exponent, if there is one: its mark, a sign or none, and digits. -/
def scanExponent (c : Cursor) : List Char × Cursor :=
  match c.peek? with
  | some mark =>
    if mark = 'e' || mark = 'E' then
      let (sign, c) := scanSign c.skip
      let (digits, c) := c.takeWhile isDigitOrUnderscore
      (mark :: sign ++ digits, c)
    else ([], c)
  | none => ([], c)

/-- Reads the letters and digits that stick to a decimal and gives its value. -/
def finishDecimal (text : List Char) (isFloat : Bool) (c : Cursor) : Scanned :=
  let (glued, c) := c.takeWhile isIdentifierChar
  (decimalValue (text ++ glued) isFloat, c)

/-- Reads a number whose first character is `first`, with the cursor behind it. -/
def scanNumber (first : Char) (c : Cursor) : Scanned :=
  match radixOf? first c.peek? with
  | some (base, marker) =>
    let (digits, c) := c.skip.takeWhile fun x => x.isAlphanum || x = '_'
    (radixValue base marker digits, c)
  | none =>
    let (whole, c) := c.takeWhile isDigitOrUnderscore
    let (fraction, c) := scanFraction c
    let (exponent, c) := scanExponent c
    let isFloat := !fraction.isEmpty || !exponent.isEmpty
    finishDecimal (first :: whole ++ fraction ++ exponent) isFloat c

/-- Reads a number that starts with a point, with the cursor behind it. -/
def scanLeadingDot (c : Cursor) : Scanned :=
  let (digits, c) := c.takeWhile isDigitOrUnderscore
  let (exponent, c) := scanExponent c
  finishDecimal (['0', '.'] ++ digits ++ exponent) true c

end MysToCpp.Token
