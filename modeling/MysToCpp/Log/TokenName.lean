/-
# Tokens in log lines

A log line shows a token by the name of its kind, with the value of a name or literal in parentheses.
-/
import MysToCpp.Decimal.Style
import MysToCpp.Text.Quoted
import MysToCpp.Token.Basic

namespace MysToCpp

/-- The name of a keyword: `Kw` and the word with a capital letter. -/
def Keyword.label (w : Keyword) : String :=
  match w.spelling.toList with
  | [] => "Kw"
  | c :: rest => "Kw" ++ .ofList (c.toUpper :: rest)

def Punct.label : Punct → String
  | plus => "Plus" | minus => "Minus" | star => "Star" | doubleStar => "DoubleStar"
  | slash => "Slash" | doubleSlash => "DoubleSlash" | percent => "Percent" | atSign => "At"
  | shiftLeft => "LShift" | shiftRight => "RShift" | amp => "Amp" | pipe => "Pipe"
  | caret => "Caret" | tilde => "Tilde" | less => "Lt" | greater => "Gt" | lessEq => "Le"
  | greaterEq => "Ge" | eqEq => "EqEq" | notEq => "Neq" | assign => "Eq" | walrus => "ColonEq"
  | arrow => "Arrow"
  | plusAssign => "PlusEq" | minusAssign => "MinusEq" | starAssign => "StarEq"
  | doubleStarAssign => "DoubleStarEq" | slashAssign => "SlashEq"
  | doubleSlashAssign => "DoubleSlashEq" | percentAssign => "PercentEq" | atAssign => "AtEq"
  | ampAssign => "AmpEq" | pipeAssign => "PipeEq" | caretAssign => "CaretEq"
  | shiftLeftAssign => "LShiftEq" | shiftRightAssign => "RShiftEq"
  | parenOpen => "LParen" | parenClose => "RParen" | squareOpen => "LBracket"
  | squareClose => "RBracket" | braceOpen => "LBrace" | braceClose => "RBrace"
  | comma => "Comma" | colon => "Colon" | semicolon => "Semicolon" | dot => "Dot"
  | ellipsis => "Ellipsis"

namespace TokenKind

def label : TokenKind → String
  | keyword w => w.label
  | punct p => p.label
  | name _ => "Identifier"
  | int _ => "IntLiteral"
  | float _ => "FloatLiteral"
  | text _ => "StringLiteral"
  | bytes _ => "BytesLiteral"
  | formatted _ => "FormattedString"
  | newline => "Newline"
  | indent => "Indent"
  | dedent => "Dedent"
  | endOfFile => "Eof"

/-- The value of a name or literal as log lines show it. -/
def shownValue? : TokenKind → Option String
  | name s | text s | formatted s => some (Text.quoted s)
  | int n => some (toString n)
  | float x => some (Decimal.render x)
  | bytes bs => some ("[" ++ ", ".intercalate (bs.map fun b => toString b.toNat) ++ "]")
  | _ => none

/-- A token as log lines show it. -/
def shown (k : TokenKind) : String :=
  match k.shownValue? with
  | some value => k.label ++ "(" ++ value ++ ")"
  | none => k.label

end TokenKind

end MysToCpp
