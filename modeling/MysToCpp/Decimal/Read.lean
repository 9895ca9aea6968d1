/-
# Reading decimals

`readDecimal?` reads a decimal number: a sign or none, digits with or without a point among them, at
least one of them, and an exponent or none, which has digits of its own.
-/
import MysToCpp.Decimal.Binary64
import MysToCpp.Text.Identifier

namespace MysToCpp.Decimal

open Text (isDigit ofDigits)

/-- Splits a sign off the front; the flag says whether it is a minus. -/
def splitSign : List Char → Bool × List Char
  | '+' :: cs => (false, cs)
  | '-' :: cs => (true, cs)
  | cs => (false, cs)

/-- The exponent part: nothing, or a mark, a sign or none, and digits. -/
def readExponent? : List Char → Option Int
  | [] => some 0
  | c :: cs =>
    if c = 'e' || c = 'E' then
      let (negative, ds) := splitSign cs
      if ds.isEmpty || !ds.all isDigit then none
      else some (if negative then -(ofDigits 10 ds : Int) else ofDigits 10 ds)
    else none

/-- The digits behind a point, and what follows them; no digits if there is no point. -/
def splitFraction : List Char → List Char × List Char
  | '.' :: cs => cs.span isDigit
  | cs => ([], cs)

/-- The number nearest to a decimal text. -/
def readDecimal? (cs : List Char) : Option Binary64 :=
  let (negative, cs) := splitSign cs
  let (whole, cs) := cs.span isDigit
  let (fraction, cs) := splitFraction cs
  if whole.isEmpty && fraction.isEmpty then none
  else (readExponent? cs).map fun e =>
    .ofDecimal negative (ofDigits 10 (whole ++ fraction)) (e - fraction.length)

end MysToCpp.Decimal
