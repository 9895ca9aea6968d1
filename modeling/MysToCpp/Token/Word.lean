/-
# Keywords and punctuation

The words and marks with a fixed spelling.  Each type has a `spelling`, and `Keyword.ofSpelling?` reads
a keyword back.
-/

namespace MysToCpp

/-- The reserved words. -/
inductive Keyword where
  | falseKw | noneKw | trueKw | andKw | asKw | assertKw | asyncKw | awaitKw | breakKw | classKw
  | continueKw | defKw | delKw | elifKw | elseKw | exceptKw | finallyKw | forKw | fromKw | globalKw
  | ifKw | importKw | inKw | isKw | lambdaKw | nonlocalKw | notKw | orKw | passKw | raiseKw
  | returnKw | tryKw | whileKw | withKw | yieldKw
  deriving DecidableEq, Repr, Inhabited

/-- Operators, assignment marks and delimiters. -/
inductive Punct where
  | plus | minus | star | doubleStar | slash | doubleSlash | percent | atSign | shiftLeft
  | shiftRight | amp | pipe | caret | tilde | less | greater | lessEq | greaterEq | eqEq | notEq
  | assign | walrus | arrow
  | plusAssign | minusAssign | starAssign | doubleStarAssign | slashAssign | doubleSlashAssign
  | percentAssign | atAssign | ampAssign | pipeAssign | caretAssign | shiftLeftAssign
  | shiftRightAssign
  | parenOpen | parenClose | squareOpen | squareClose | braceOpen | braceClose
  | comma | colon | semicolon | dot | ellipsis
  deriving DecidableEq, Repr, Inhabited

namespace Keyword

def spelling : Keyword → String
  | falseKw => "False" | noneKw => "None" | trueKw => "True" | andKw => "and" | asKw => "as"
  | assertKw => "assert" | asyncKw => "async" | awaitKw => "await" | breakKw => "break"
  | classKw => "class" | continueKw => "continue" | defKw => "def" | delKw => "del"
  | elifKw => "elif" | elseKw => "else" | exceptKw => "except" | finallyKw => "finally"
  | forKw => "for" | fromKw => "from" | globalKw => "global" | ifKw => "if"
  | importKw => "import" | inKw => "in" | isKw => "is" | lambdaKw => "lambda"
  | nonlocalKw => "nonlocal" | notKw => "not" | orKw => "or" | passKw => "pass"
  | raiseKw => "raise" | returnKw => "return" | tryKw => "try" | whileKw => "while"
  | withKw => "with" | yieldKw => "yield"

def all : List Keyword :=
  [falseKw, noneKw, trueKw, andKw, asKw, assertKw, asyncKw, awaitKw, breakKw, classKw, continueKw,
   defKw, delKw, elifKw, elseKw, exceptKw, finallyKw, forKw, fromKw, globalKw, ifKw, importKw, inKw,
   isKw, lambdaKw, nonlocalKw, notKw, orKw, passKw, raiseKw, returnKw, tryKw, whileKw, withKw,
   yieldKw]

def ofSpelling? (s : String) : Option Keyword := all.find? (·.spelling = s)

end Keyword

namespace Punct

def spelling : Punct → String
  | plus => "+" | minus => "-" | star => "*" | doubleStar => "**" | slash => "/"
  | doubleSlash => "//" | percent => "%" | atSign => "@" | shiftLeft => "<<" | shiftRight => ">>"
  | amp => "&" | pipe => "|" | caret => "^" | tilde => "~" | less => "<" | greater => ">"
  | lessEq => "<=" | greaterEq => ">=" | eqEq => "==" | notEq => "!=" | assign => "="
  | walrus => ":=" | arrow => "->"
  | plusAssign => "+=" | minusAssign => "-=" | starAssign => "*=" | doubleStarAssign => "**="
  | slashAssign => "/=" | doubleSlashAssign => "//=" | percentAssign => "%=" | atAssign => "@="
  | ampAssign => "&=" | pipeAssign => "|=" | caretAssign => "^=" | shiftLeftAssign => "<<="
  | shiftRightAssign => ">>="
  | parenOpen => "(" | parenClose => ")" | squareOpen => "[" | squareClose => "]"
  | braceOpen => "\x7b" | braceClose => "\x7d"
  | comma => "," | colon => ":" | semicolon => ";" | dot => "." | ellipsis => "..."

def all : List Punct :=
  [plus, minus, star, doubleStar, slash, doubleSlash, percent, atSign, shiftLeft, shiftRight, amp,
   pipe, caret, tilde, less, greater, lessEq, greaterEq, eqEq, notEq, assign, walrus, arrow,
   plusAssign, minusAssign, starAssign, doubleStarAssign, slashAssign, doubleSlashAssign,
   percentAssign, atAssign, ampAssign, pipeAssign, caretAssign, shiftLeftAssign, shiftRightAssign,
   parenOpen, parenClose, squareOpen, squareClose, braceOpen, braceClose, comma, colon, semicolon,
   dot, ellipsis]

end Punct

end MysToCpp
