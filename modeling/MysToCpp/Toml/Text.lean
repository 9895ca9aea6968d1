/-
# Strings and keys of TOML

A basic string has double quotes and escapes, a literal string has single quotes and none; either has a
form with three quotes that goes over lines.  A key is made of bare words and strings, with dots between
them.
-/
import MysToCpp.Text.Identifier
import MysToCpp.Toml.Reader
import MysToCpp.Token.StringLiteral

namespace MysToCpp.Toml

open Reader
open Text (isHexDigit ofDigits)

/-- The character with the code point that `n` hexadecimal digits spell. -/
def codePoint (n : Nat) : Reader Char := do
  match Token.charOf? (ofDigits 16 (← exactly n isHexDigit)) with
  | some c => return c
  | none => failure

/-- An escape: a backslash, a letter, and the digits that it asks for. -/
def escape : Reader Char := do
  expect ['\\']
  match ← anyChar with
  | 'b' => return '\x08'
  | 't' => return '\t'
  | 'n' => return '\n'
  | 'f' => return '\x0c'
  | 'r' => return '\r'
  | '"' => return '"'
  | '\\' => return '\\'
  | 'u' => codePoint 4
  | 'U' => codePoint 8
  | _ => failure

/-- A string in double quotes. -/
def basicString : Reader String := do
  expect ['"']
  let cs ← many (escape <|> charWhere fun c => isTextChar c && c ≠ '"' && c ≠ '\\')
  expect ['"']
  return .ofList cs

/-- A string in single quotes. -/
def literalString : Reader String := do
  expect ['\'']
  let cs ← takeWhile fun c => isTextChar c && c ≠ '\''
  expect ['\'']
  return .ofList cs

/-- A line end inside of a string is one character, however it is written. -/
def lineBreak : Reader (List Char) := do
  newline
  return ['\n']

/-- A backslash at the end of a line, with the blanks and line ends behind it. -/
def lineContinuation : Reader (List Char) := do
  expect ['\\']
  blanks
  newline
  let _ ← many (newline <|> (do let _ ← charWhere isBlank))
  return []

/-- One quote or two that do not end a string over lines. -/
def innerQuotes (quote : Char) : Reader (List Char) := do
  let quotes ← takeWhile (· = quote)
  if quotes.length < 3 then return quotes else failure

/-- The quotes that end a string over lines: three, and up to two in front of them that belong to it. -/
def closingQuotes (quote : Char) : Reader (List Char) := do
  let quotes ← takeWhile (· = quote)
  if 3 ≤ quotes.length && quotes.length ≤ 5 then return quotes.drop 3 else failure

/-- A string over lines, made of these pieces and of quotes; a line end at its start is left out. -/
def longString (quote : Char) (piece : Reader (List Char)) : Reader String := do
  expect [quote, quote, quote]
  newline <|> return ()
  let pieces ← many (piece <|> (do
    let quotes ← innerQuotes quote
    if quotes.isEmpty then failure else return quotes))
  let last ← closingQuotes quote
  return .ofList (pieces.flatten ++ last)

/-- A string over lines in double quotes. -/
def longBasicString : Reader String :=
  longString '"' (lineBreak <|> lineContinuation <|> (do return [← escape])
    <|> (do return [← charWhere fun c => isTextChar c && c ≠ '"' && c ≠ '\\']))

/-- A string over lines in single quotes. -/
def longLiteralString : Reader String :=
  longString '\'' (lineBreak <|> (do return [← charWhere fun c => isTextChar c && c ≠ '\'']))

def anyString : Reader String :=
  longBasicString <|> basicString <|> longLiteralString <|> literalString

def isBareChar (c : Char) : Bool := c.isAlphanum || c = '_' || c = '-'

def bareWord : Reader String := do
  let cs ← takeWhile isBareChar
  if cs.isEmpty then failure else return .ofList cs

/-- A part of a key, with blanks around it. -/
def keyPart : Reader String := do
  blanks
  let part ← basicString <|> literalString <|> bareWord
  blanks
  return part

/-- The most parts of a key, and the deepest nesting of arrays and inline tables. -/
def maxDepth : Nat := 79

/-- A key: parts with dots between them. -/
def key : Reader (List String) := do
  let parts ← separated '.' keyPart
  if parts.length ≤ maxDepth then return parts else failure

end MysToCpp.Toml
