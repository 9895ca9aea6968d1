/-
# Tokens

A token is a `TokenKind` with the span it was read from.  Beside the words and marks with a fixed
spelling there are names, literals with their value, and the three layout tokens that stand for the
ends of lines and the changes of indentation.
-/
import MysToCpp.Decimal.Binary64
import MysToCpp.Source.Position
import MysToCpp.Token.Word

namespace MysToCpp

/-- What a token is, with the value of a name or literal. -/
inductive TokenKind where
  | keyword (word : Keyword)
  | punct (mark : Punct)
  | name (text : String)
  | int (value : Nat)
  | float (value : Binary64)
  | text (value : String)
  | bytes (value : List UInt8)
  | formatted (value : String)
  | newline
  | indent
  | dedent
  | endOfFile
  deriving DecidableEq, Repr, Inhabited

/-- A token and where it stands. -/
structure Token where
  kind : TokenKind
  span : Span := .nowhere
  deriving DecidableEq, Repr, Inhabited

namespace TokenKind

instance : Coe Keyword TokenKind := ⟨keyword⟩

instance : Coe Punct TokenKind := ⟨punct⟩

/-- How a message refers to a kind of token. -/
def describe : TokenKind → String
  | keyword w => "'" ++ w.spelling ++ "'"
  | punct p => "'" ++ p.spelling ++ "'"
  | name n => "name '" ++ n ++ "'"
  | int _ | float _ => "number"
  | text _ | bytes _ | formatted _ => "string"
  | newline => "newline"
  | indent => "indent"
  | dedent => "dedent"
  | endOfFile => "end of file"

def startsExpression : TokenKind → Bool
  | name _ | int _ | float _ | text _ | bytes _ | formatted _ => true
  | keyword w => (w matches .falseKw | .noneKw | .trueKw | .notKw | .lambdaKw | .awaitKw | .yieldKw)
  | punct p =>
    (p matches .plus | .minus | .tilde | .star | .parenOpen | .squareOpen | .braceOpen | .ellipsis)
  | newline | indent | dedent | endOfFile => false

/-- Whether two tokens are the same; floating-point values are compared as numbers. -/
def same : TokenKind → TokenKind → Bool
  | float x, float y => x.sameNumber y
  | a, b => a = b

def isPunct (p : Punct) (k : TokenKind) : Bool := k = punct p

def isKeyword (w : Keyword) (k : TokenKind) : Bool := k = keyword w

def isName : TokenKind → Bool
  | name _ => true
  | _ => false

end TokenKind

end MysToCpp
