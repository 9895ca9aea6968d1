/-
# How decimals are written

A `Style` holds the decisions of a number format: between which powers of ten it is positional, and
how the values without digits are spelled.  `Style.write` applies it to the shortest decimal of a
number.
-/
import MysToCpp.Decimal.Shortest

namespace MysToCpp.Decimal

/-- The decisions of a number format. -/
structure Style where
  /-- The least exponent written positionally. -/
  leastPositional : Int
  /-- The greatest exponent written positionally. -/
  greatestPositional : Int
  /-- What stands behind the digits of a whole number. -/
  wholeEnd : List Char
  exponentMark : Char
  infinity : List Char
  notANumber : List Char

/-- Digits with a point: `whole.fraction`, and `wholeEnd` if there is no fraction. -/
def Style.positional (style : Style) (n : Scientific) : List Char :=
  if n.exponent < 0 then
    ['0', '.'] ++ List.replicate (-n.exponent - 1).toNat '0' ++ n.digits
  else
    let width := n.exponent.toNat + 1
    let whole := n.digits.take width
    let fraction := n.digits.drop width
    if fraction.isEmpty then
      whole ++ List.replicate (width - whole.length) '0' ++ style.wholeEnd
    else whole ++ ['.'] ++ fraction

/-- One digit, a point and the others, and the power of ten; a single digit has no point. -/
def Style.scientific (style : Style) (n : Scientific) : List Char :=
  let tail := n.digits.drop 1
  n.digits.take 1 ++ (if tail.isEmpty then [] else '.' :: tail) ++ [style.exponentMark] ++
    (if n.exponent < 0 then ['-'] else []) ++ Nat.toDigits 10 n.exponent.natAbs

def Style.write (style : Style) (x : Binary64) : List Char :=
  if x.isNaN then style.notANumber
  else
    (if x.isNegative then ['-'] else []) ++
      if x.isInfinite then style.infinity
      else if x.isZero then ['0'] ++ style.wholeEnd
      else
        let n := shortest x
        if style.leastPositional ≤ n.exponent && n.exponent ≤ style.greatestPositional then
          style.positional n
        else style.scientific n

/-- Positional from `0.0001` up to below ten to the sixteenth, a whole number ends in `.0`. -/
def plain : Style :=
  { leastPositional := -4
    greatestPositional := 15
    wholeEnd := ['.', '0']
    exponentMark := 'e'
    infinity := ['i', 'n', 'f']
    notANumber := ['N', 'a', 'N'] }

def render (x : Binary64) : String := .ofList (plain.write x)

end MysToCpp.Decimal
