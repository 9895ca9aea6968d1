/-
# Binary floating-point numbers

`Binary64` is a number of the IEEE 754 format binary64, kept as its 64 bits, so that two numbers can
be told apart by equality.  A finite number is `significand · 2 ^ scale` with a sign.
`Binary64.ofDecimal` rounds a decimal number to the nearest one, a tie to the even significand, in
exact integer arithmetic.
-/

namespace MysToCpp

/-- A floating-point number, given by its bits: sign, eleven bits of exponent, 52 of fraction. -/
structure Binary64 where
  bits : UInt64
  deriving DecidableEq, Repr, Inhabited

namespace Binary64

/-- The bits without the sign. -/
def magnitude (x : Binary64) : Nat := x.bits.toNat % Nat.pow 2 63

def isNegative (x : Binary64) : Bool := Nat.pow 2 63 ≤ x.bits.toNat

def exponentField (x : Binary64) : Nat := x.magnitude / Nat.pow 2 52

def fraction (x : Binary64) : Nat := x.magnitude % Nat.pow 2 52

/-- The magnitude of the infinities. -/
def infinity : Nat := 2047 * Nat.pow 2 52

def isNaN (x : Binary64) : Bool := infinity < x.magnitude

def isInfinite (x : Binary64) : Bool := x.magnitude = infinity

def isZero (x : Binary64) : Bool := x.magnitude = 0

/-- The integer `m` of a finite magnitude `m · 2 ^ q`. -/
def significand (x : Binary64) : Nat :=
  if x.exponentField = 0 then x.fraction else x.fraction + Nat.pow 2 52

/-- The power `q` of a finite magnitude `m · 2 ^ q`. -/
def scale (x : Binary64) : Int := (max x.exponentField 1 : Nat) - 1075

/-- Equality of numbers: the zeros are equal, and no NaN equals anything. -/
def sameNumber (x y : Binary64) : Bool :=
  !x.isNaN && !y.isNaN && (x.bits == y.bits || (x.isZero && y.isZero))

/-- The number with this sign and magnitude. -/
def ofParts (negative : Bool) (magnitude : Nat) : Binary64 :=
  ⟨UInt64.ofNat (if negative then magnitude + Nat.pow 2 63 else magnitude)⟩

/-- A quotient rounded to the nearest integer, a tie to the even one. -/
def roundQuotient (num den : Nat) : Nat :=
  let low := num / den
  let rest := 2 * (num % den)
  if den < rest || (rest == den && low % 2 == 1) then low + 1 else low

/-- The quotient `num / den · 2 ^ (-q)` as a numerator and a denominator. -/
def scaleDown (num den : Nat) (q : Int) : Nat × Nat :=
  if q < 0 then (num * Nat.pow 2 (-q).toNat, den) else (num, den * Nat.pow 2 q.toNat)

/-- The greatest `e` with `2 ^ e ≤ num / den`, for positive `num` and `den`. -/
def floorLog2 (num den : Nat) : Int :=
  let e : Int := (num.log2 : Int) - (den.log2 : Int)
  let scaled := scaleDown num den e
  if scaled.2 ≤ scaled.1 then e else e - 1

/-- The magnitude nearest to a positive quotient. -/
def roundMagnitude (num den : Nat) : Nat :=
  let q := max (floorLog2 num den - 52) (-1074)
  let scaled := scaleDown num den q
  min infinity ((q + 1074).toNat * Nat.pow 2 52 + roundQuotient scaled.1 scaled.2)

/-- The number nearest to `digits · 10 ^ exponent`.  Decimals beyond the range of the format are
settled by their size alone, so that no huge power is computed. -/
def ofDecimal (negative : Bool) (digits : Nat) (exponent : Int) : Binary64 :=
  let size : Int := exponent + (Nat.toDigits 10 digits).length
  ofParts negative <|
    if digits = 0 || size < -330 then 0
    else if 310 < size then infinity
    else if exponent < 0 then roundMagnitude digits (Nat.pow 10 (-exponent).toNat)
    else roundMagnitude (digits * Nat.pow 10 exponent.toNat) 1

end Binary64

end MysToCpp
