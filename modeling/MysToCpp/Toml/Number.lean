/-
# Numbers and dates of TOML

All of them are read from a word: digits, letters, and the marks that can stand among them.  An integer
has 64 bits with its sign; a number with a point or an exponent is a floating-point number.
-/
import MysToCpp.Decimal.Read
import MysToCpp.Text.Split
import MysToCpp.Toml.Reader

namespace MysToCpp.Toml

open Reader
open Text (isDigit isHexDigit ofDigits splitAt)

/-- The digits of a text without the underscores, which stand only between digits. -/
def digitsOf? (isDigit : Char → Bool) (cs : List Char) : Option (List Char) :=
  let groups := splitAt '_' cs
  if groups.all fun g => !g.isEmpty && g.all isDigit then some groups.flatten else none

/-- The digits of a decimal number, which has no zero in front of other digits. -/
def wholeDigits? (cs : List Char) : Option (List Char) := do
  let ds ← digitsOf? isDigit cs
  if ds.head? = some '0' && 1 < ds.length then none else some ds

/-- An integer that fits into 64 bits with a sign. -/
def fitting? (n : Int) : Option Int :=
  if -(Nat.pow 2 63 : Int) ≤ n && n < Nat.pow 2 63 then some n else none

/-- An integer; in another base than ten it has no sign. -/
def integer? : List Char → Option Int
  | '0' :: 'x' :: cs => do fitting? (ofDigits 16 (← digitsOf? isHexDigit cs))
  | '0' :: 'o' :: cs => do fitting? (ofDigits 8 (← digitsOf? (fun c => '0' ≤ c && c ≤ '7') cs))
  | '0' :: 'b' :: cs => do fitting? (ofDigits 2 (← digitsOf? (fun c => c = '0' || c = '1') cs))
  | cs => do
    let (negative, cs) := Decimal.splitSign cs
    let n : Int := ofDigits 10 (← wholeDigits? cs)
    fitting? (if negative then -n else n)

/-- The infinities and the values that are no number. -/
def special? (cs : List Char) : Option Binary64 :=
  let (negative, cs) := Decimal.splitSign cs
  if cs = ['i', 'n', 'f'] then some (.ofParts negative Binary64.infinity)
  else if cs = ['n', 'a', 'n'] then some (.ofParts negative (Binary64.infinity + Nat.pow 2 51))
  else none

/-- The point and the digits behind it, if there is a point. -/
def fraction? : List Char → Option (List Char)
  | [] => some []
  | '.' :: cs => (digitsOf? isDigit cs).map ('.' :: ·)
  | _ => none

/-- The mark, the sign and the digits of an exponent, if there is one. -/
def exponent? : List Char → Option (List Char)
  | [] => some []
  | _ :: '+' :: cs => (digitsOf? isDigit cs).map ('e' :: ·)
  | _ :: '-' :: cs => (digitsOf? isDigit cs).map ('e' :: '-' :: ·)
  | _ :: cs => (digitsOf? isDigit cs).map ('e' :: ·)

/-- A floating-point number; one too large to have a finite value is none, if it has no minus. -/
def float? (cs : List Char) : Option Binary64 :=
  special? cs <|> do
    let (negative, cs) := Decimal.splitSign cs
    let (front, power) := cs.span fun c => c ≠ 'e' && c ≠ 'E'
    let (whole, behind) := front.span (· ≠ '.')
    if behind.isEmpty && power.isEmpty then failure
    let digits := (← wholeDigits? whole) ++ (← fraction? behind) ++ (← exponent? power)
    let x ← Decimal.readDecimal? (if negative then '-' :: digits else digits)
    if x.isInfinite && !negative then none else some x

/-- Whether a text has `n` digits that spell a number from `lo` to `hi`. -/
def inRange (n lo hi : Nat) (cs : List Char) : Bool :=
  cs.length = n && cs.all isDigit && lo ≤ ofDigits 10 cs && ofDigits 10 cs ≤ hi

def daysIn (year month : Nat) : Nat :=
  if month = 2 then
    if year % 4 = 0 && (year % 100 ≠ 0 || year % 400 = 0) then 29 else 28
  else if month = 4 || month = 6 || month = 9 || month = 11 then 30
  else 31

/-- Whether a text is a date: a year, a month and a day of it. -/
def isDate (cs : List Char) : Bool :=
  match splitAt '-' cs with
  | [year, month, day] =>
    inRange 4 0 9999 year && inRange 2 1 12 month
      && inRange 2 1 (daysIn (ofDigits 10 year) (ofDigits 10 month)) day
  | _ => false

/-- Whether a text is a time of day; its seconds may be `60` and may have a fraction. -/
def isTime (cs : List Char) : Bool :=
  match splitAt ':' cs with
  | [hour, minute, second] =>
    let (whole, behind) := second.span isDigit
    inRange 2 0 23 hour && inRange 2 0 59 minute && inRange 2 0 60 whole
      && match behind with
        | [] => true
        | c :: ds => c = '.' && !ds.isEmpty && ds.all isDigit
  | _ => false

/-- Whether a text is a difference to the time of Greenwich. -/
def isOffset : List Char → Bool
  | ['Z'] | ['z'] => true
  | c :: cs =>
    (c = '+' || c = '-') && match splitAt ':' cs with
      | [hour, minute] => inRange 2 0 23 hour && inRange 2 0 59 minute
      | _ => false
  | [] => false

/-- Whether a text is a time of day, with an offset or without. -/
def isOffsetTime (cs : List Char) : Bool :=
  let (time, offset) := cs.span fun c => isDigit c || c = ':' || c = '.'
  isTime time && (offset.isEmpty || isOffset offset)

/-- Whether a word is a time, a date, or a date with a time behind a `T`. -/
def isMoment (cs : List Char) : Bool :=
  let (date, rest) := cs.span fun c => c ≠ 'T' && c ≠ 't'
  isTime cs || (isDate date && match rest with
    | [] => true
    | _ :: time => isOffsetTime time)

def isWordChar (c : Char) : Bool :=
  c.isAlphanum || c = '+' || c = '-' || c = '_' || c = '.' || c = ':'

/-- A word; a date and a time of day with a space between them are one. -/
def word : Reader (List Char) := do
  let cs ← takeWhile isWordChar
  match ← get with
  | ' ' :: c :: _ =>
    if isDate cs && isDigit c then
      expect [' ']
      return cs ++ 'T' :: (← takeWhile isWordChar)
    else return cs
  | _ => return cs

end MysToCpp.Toml
