/-
# String literals

A string literal stands between quotes, one or three on each side, and letters in front of it say how
it is read: `r` keeps backslashes, `b` makes bytes, `f` keeps the text for formatting.  `scanString` reads
a literal behind its first quote; escapes are read by `scanEscape`.
-/
import MysToCpp.Source.File
import MysToCpp.Token.Number

namespace MysToCpp.Token

open Text (isHexDigit ofDigits)

/-- How the text of a literal is read. -/
structure StringForm where
  raw : Bool := false
  bytes : Bool := false
  formatted : Bool := false
  deriving DecidableEq, Repr, Inhabited

namespace StringForm

/-- Takes one more letter into account; `u` counts only if it is the only one. -/
def addMarker (alone : Bool) (form : StringForm) (c : Char) : Option StringForm :=
  match c.toLower with
  | 'r' => if form.raw then none else some { form with raw := true }
  | 'b' => if form.bytes || form.formatted then none else some { form with bytes := true }
  | 'f' => if form.formatted || form.bytes then none else some { form with formatted := true }
  | 'u' => if alone then some form else none
  | _ => none

/-- The form that the letters before a quote ask for; `none` if they are no such letters. -/
def ofMarkers? (cs : List Char) : Option StringForm :=
  if 2 < byteLength cs then none
  else cs.foldlM (addMarker (byteLength cs == 1)) {}

end StringForm

/-- The character with this code point, if there is one. -/
def charOf? (n : Nat) : Option Char :=
  if n < 0xD800 || (0xDFFF < n && n < 0x110000) then some (Char.ofNat n) else none

def isOctalDigit (c : Char) : Bool := '0' ≤ c && c ≤ '7'

/-- An escape read so far: the characters it stands for, or the text of a bad one. -/
abbrev Escaped := Except (List Char) (List Char) × Cursor

/-- An octal escape: one to three digits, of which `first` is read already. -/
def scanOctal (bytes : Bool) (first : Char) (c : Cursor) : Escaped :=
  let (more, c) := c.takeAtMost 2 isOctalDigit
  let code := ofDigits 8 (first :: more)
  let bad := '\\' :: Nat.toDigits 8 code
  if bytes && 0xFF < code then (.error bad, c)
  else match charOf? code with
    | some x => (.ok [x], c)
    | none => (.error bad, c)

/-- An escape of exactly `count` hexadecimal digits. -/
def scanHex (marker : Char) (count : Nat) (c : Cursor) : Escaped :=
  let (digits, c) := c.takeAtMost count isHexDigit
  let bad := '\\' :: marker :: digits
  if digits.length < count then (.error bad, c)
  else match charOf? (ofDigits 16 digits) with
    | some x => (.ok [x], c)
    | none => (.error bad, c)

/-- The character that a one-letter escape stands for. -/
def simpleEscape? : Char → Option Char
  | '\\' => some '\\'
  | '\'' => some '\''
  | '"' => some '"'
  | 'a' => some '\x07'
  | 'b' => some '\x08'
  | 'f' => some '\x0c'
  | 'n' => some '\n'
  | 'r' => some '\r'
  | 't' => some '\t'
  | 'v' => some '\x0b'
  | _ => none

/-- Reads the escape whose character behind the backslash is `e`.  An escaped line feed stands for
nothing, and an unknown escape for itself. -/
def scanEscape (bytes : Bool) (e : Char) (c : Cursor) : Escaped :=
  if e = '\n' then (.ok [], c)
  else match simpleEscape? e with
    | some x => (.ok [x], c)
    | none =>
      if isOctalDigit e then scanOctal bytes e c
      else if e = 'x' then scanHex 'x' 2 c
      else if e = 'u' && !bytes then scanHex 'u' 4 c
      else if e = 'U' && !bytes then scanHex 'U' 8 c
      else if e = 'N' && !bytes then (.error ['\\', 'N'], c)
      else (.ok ['\\', e], c)

def atTwoQuotes (quote : Char) (c : Cursor) : Bool :=
  c.peek? = some quote && c.peekSecond? = some quote

/-- Reads the text of a literal and its closing quotes, at most `fuel` characters or escapes of it.
`read` is the text read so far, the last character first. -/
def scanBody (form : StringForm) (quote : Char) (triple : Bool) :
    Nat → List Char → Cursor → Except LexFault (List Char) × Cursor
  | 0, _, c => (.error .unterminatedString, c)
  | fuel + 1, read, c =>
    match c.next? with
    | none => (.error .unterminatedString, c)
    | some (x, c) =>
      if x = quote then
        if !triple then (.ok read.reverse, c)
        else if atTwoQuotes quote c then (.ok read.reverse, c.skip.skip)
        else scanBody form quote triple fuel (x :: read) c
      else if x = '\n' && !triple then (.error .unterminatedString, c)
      else if form.bytes && 0x80 ≤ x.toNat then (.error .nonAsciiBytes, c)
      else if x ≠ '\\' then scanBody form quote triple fuel (x :: read) c
      else match c.next? with
        | none => (.error .unterminatedString, c)
        | some (e, c) =>
          if form.raw then scanBody form quote triple fuel (e :: '\\' :: read) c
          else match scanEscape form.bytes e c with
            | (.ok text, c) => scanBody form quote triple fuel (text.reverse ++ read) c
            | (.error bad, c) => (.error (.invalidEscape (.ofList bad)), c)

/-- The token of a literal with this text.  Bytes keep the low eight bits of each character. -/
def StringForm.token (form : StringForm) (text : List Char) : TokenKind :=
  if form.bytes then .bytes (text.map fun c => UInt8.ofNat c.toNat)
  else if form.formatted then .formatted (.ofList text)
  else .text (.ofList text)

/-- Reads a string literal whose first quote is `quote`, with the cursor behind it. -/
def scanString (form : StringForm) (quote : Char) (c : Cursor) : Scanned :=
  let triple := atTwoQuotes quote c
  let c := if triple then c.skip.skip else c
  let (text, c) := scanBody form quote triple (c.rest.length + 1) [] c
  (text.map form.token, c)

end MysToCpp.Token
