/-
# The shortest decimal of a floating-point number

The decimals that round to a number form an interval around it.  `shortest` gives the one with the
fewest digits, and of those the nearest; of two equally near ones it gives the greater.  For each
count of digits it looks at the two neighbours of the number among the decimals with that many
digits: if any of those lies in the interval, one of the two does.
-/
import MysToCpp.Decimal.Binary64

namespace MysToCpp.Decimal

/-- The decimal `d.ddd · 10 ^ exponent`, given by its digits. -/
structure Scientific where
  digits : List Char
  exponent : Int
  deriving DecidableEq, Repr, Inhabited

/-- A number with the ends of the interval that rounds to it, all over one denominator. -/
structure Rounding where
  low : Nat
  value : Nat
  high : Nat
  denominator : Nat
  /-- Whether the ends belong to the interval. -/
  closed : Bool

/-- The interval around a finite number.  The gap below a power of two is half of the one above. -/
def Rounding.of (x : Binary64) : Rounding :=
  let m := x.significand
  let q := x.scale
  let up := Nat.pow 2 (q - 2).toNat
  let below := if m = Nat.pow 2 52 && 1 < x.exponentField then 1 else 2
  { low := (4 * m - below) * up
    value := 4 * m * up
    high := (4 * m + 2) * up
    denominator := Nat.pow 2 (2 - q).toNat
    closed := m % 2 = 0 }

/-- Whether `num / den` lies in the interval. -/
def Rounding.contains (r : Rounding) (num den : Nat) : Bool :=
  let n := num * r.denominator
  if r.closed then r.low * den ≤ n && n ≤ r.high * den
  else r.low * den < n && n < r.high * den

/-- The least `j ≤ fuel` with `den ≤ num · 10 ^ j`. -/
def leastShift (den : Nat) : Nat → Nat → Nat
  | 0, _ => 0
  | fuel + 1, num => if den ≤ num then 0 else leastShift den fuel (num * 10) + 1

/-- The greatest `k` with `10 ^ k ≤ num / den`, for quotients of at least `10 ^ (-400)`. -/
def floorLog10 (num den : Nat) : Int :=
  if den ≤ num then (Nat.toDigits 10 (num / den)).length - 1
  else -(leastShift den 400 num : Int)

/-- `10 ^ e` as a numerator and a denominator. -/
def powerOfTen (e : Int) : Nat × Nat :=
  (Nat.pow 10 e.toNat, Nat.pow 10 (-e).toNat)

/-- The multiple of `10 ^ e` next to the number that lies in the interval, if there is one; the nearer
of two, and the greater of two equally near. -/
def Rounding.multiple? (r : Rounding) (e : Int) : Option Nat :=
  let unit := powerOfTen e
  let below := r.value * unit.2 / (r.denominator * unit.1)
  let lowHit := r.contains (below * unit.1) unit.2
  let highHit := r.contains ((below + 1) * unit.1) unit.2
  let nearerBelow := 2 * r.value * unit.2 < (2 * below + 1) * (r.denominator * unit.1)
  if lowHit && (nearerBelow || !highHit) then some below
  else if highHit then some (below + 1)
  else none

/-- The digits of `n · 10 ^ e` without the zeros at their end. -/
def Scientific.ofNat (n : Nat) (e : Int) : Scientific :=
  let ds := Nat.toDigits 10 n
  let kept := (ds.reverse.dropWhile (· = '0')).reverse
  ⟨kept, e + ds.length - 1⟩

/-- Looks for a decimal with `count`, `count + 1`, … digits, at most `fuel` times. -/
def Rounding.search (r : Rounding) (magnitude : Int) : Nat → Nat → Scientific
  | 0, _ => ⟨['0'], 0⟩
  | fuel + 1, count =>
    let e := magnitude - count + 1
    match r.multiple? e with
    | some n => .ofNat n e
    | none => r.search magnitude fuel (count + 1)

/-- The shortest decimal that rounds to the magnitude of a finite number that is not zero.  Seventeen
digits always suffice. -/
def shortest (x : Binary64) : Scientific :=
  let r := Rounding.of x
  r.search (floorLog10 r.value r.denominator) 17 1

end MysToCpp.Decimal
