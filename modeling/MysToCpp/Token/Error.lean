/-
# Lexical errors

Why a text cannot be read as tokens, and where.
-/
import MysToCpp.Source.Position

namespace MysToCpp

/-- Why a text is no token. -/
inductive LexFault where
  | unterminatedString
  | invalidEscape (sequence : String)
  | invalidNumber (text : String)
  | nonAsciiBytes
  | unexpectedChar (c : Char)
  | inconsistentDedent
  | unmatchedBracket (c : Char)
  | badContinuation
  deriving DecidableEq, Repr, Inhabited

/-- A fault and the text it was found in. -/
structure LexError where
  fault : LexFault
  span : Span
  deriving DecidableEq, Repr, Inhabited

def LexFault.message : LexFault → String
  | unterminatedString => "unterminated string literal"
  | invalidEscape sequence => "invalid escape sequence '" ++ sequence ++ "'"
  | invalidNumber text => "invalid number literal '" ++ text ++ "'"
  | nonAsciiBytes => "bytes can only contain ASCII literal characters"
  | unexpectedChar c => "invalid character '" ++ c.toString ++ "'"
  | inconsistentDedent => "unindent does not match any outer indentation level"
  | unmatchedBracket c => "unmatched '" ++ c.toString ++ "'"
  | badContinuation => "unexpected character after line continuation character"

def LexError.message (e : LexError) : String := e.fault.message

end MysToCpp
