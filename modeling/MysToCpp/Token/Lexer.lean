/-
# The lexer

`Lexer.next` reads one token.  Between the tokens it skips blanks, comments and continued lines; at the
start of a line outside of brackets it compares the indentation with the open blocks and gives `indent`
or `dedent` tokens; at a line end behind a token it gives `newline`.  `tokenize` reads a whole text and
puts `endOfFile` behind the last token.
-/
import MysToCpp.Token.Layout
import MysToCpp.Token.StringLiteral

namespace MysToCpp

open Text (IdentifierTable isDigit isIdentifierStart isIdentifierChar)
open Token (StringForm Scanned scanNumber scanLeadingDot scanString)

variable [IdentifierTable]

/-- The state of a lexer in a text. -/
structure Lexer where
  /-- What is still to be read. -/
  cursor : Cursor
  /-- Where the current token starts. -/
  start : Position := .origin
  error : Option LexError := none
  layout : Layout := {}
  /-- Tokens that are read but not given yet. -/
  pending : List Token := []
  atLineStart : Bool := true
  /-- Whether the current line has a token, so that its end counts. -/
  lineHasTokens : Bool := false
  /-- Whether the end of the text was reached. -/
  finished : Bool := false
  deriving DecidableEq, Repr, Inhabited

/-- What the start of a line turned out to be. -/
inductive LineStart where
  /-- A line of blanks or a comment, now behind the lexer. -/
  | blank (lexer : Lexer)
  /-- The end of the text. -/
  | atEnd (lexer : Lexer)
  /-- Something to read, perhaps after a layout token. -/
  | code (token : Option Token) (lexer : Lexer)

/-- What reading behind the start of a line came to. -/
inductive LexStep where
  /-- Only something to skip was read. -/
  | skipped (lexer : Lexer)
  /-- A token was read, or an error found. -/
  | answer (token : Option Token) (lexer : Lexer)

namespace Lexer

def ofText (source : String) : Lexer := { cursor := ⟨source.toList, .origin⟩ }

def position (lx : Lexer) : Position := lx.cursor.position

def span (lx : Lexer) : Span := ⟨lx.start, lx.position⟩

def token (lx : Lexer) (kind : TokenKind) : Token := ⟨kind, lx.span⟩

def markStart (lx : Lexer) : Lexer := { lx with start := lx.position }

def moveTo (lx : Lexer) (c : Cursor) : Lexer := { lx with cursor := c }

def fail (lx : Lexer) (fault : LexFault) : Lexer := { lx with error := some ⟨fault, lx.span⟩ }

/-- The blanks inside of a line. -/
def isGap (c : Char) : Bool := c = ' ' || c = '\t' || c = '\x0c' || c = '\r'

/-- The blanks that count as indentation. -/
def isIndentation (c : Char) : Bool := c = ' ' || c = '\t' || c = '\x0c'

/-- Moves to the end of the line. -/
def skipComment (c : Cursor) : Cursor := c.skipWhile (· ≠ '\n')

/-- Skips blanks and comments, and line ends too if a bracket is open, at most `fuel` of them. -/
def skipGaps (inBrackets : Bool) : Nat → Cursor → Cursor
  | 0, c => c
  | fuel + 1, c =>
    match c.peek? with
    | some x =>
      if isGap x || (x = '\n' && inBrackets) then skipGaps inBrackets fuel c.skip
      else if x = '#' then skipGaps inBrackets fuel (skipComment c)
      else c
    | none => c

/-- Gives the end of an open line and the ends of all open blocks, behind the last character. -/
def finish (lx : Lexer) : Option Token × Lexer :=
  let lx := { lx.markStart with finished := true }
  match lx.layout.innermost? with
  | some c => (none, lx.fail (.unmatchedBracket c))
  | none =>
    let (blocks, layout) := lx.layout.closeAll
    let closing := (if lx.lineHasTokens then [lx.token .newline] else []) ++
      List.replicate blocks (lx.token .dedent)
    let lx := { lx with layout, lineHasTokens := false }
    match closing with
    | [] => (none, lx)
    | first :: rest => (some first, { lx with pending := rest })

/-- Opens or closes blocks for a line of this width, with the lexer at its first character. -/
def changeBlocks (width : Nat) (lx : Lexer) : LineStart :=
  let lx := { lx.markStart with atLineStart := false }
  let (change, layout) := lx.layout.changeIndent width
  let lx := { lx with layout }
  match change with
  | .same => .code none lx
  | .indent => .code (some (lx.token .indent)) lx
  | .dedent 0 => .code none lx
  | .dedent (count + 1) =>
    .code (some (lx.token .dedent)) { lx with pending := List.replicate count (lx.token .dedent) }
  | .inconsistent => .code none (lx.fail .inconsistentDedent)

/-- Reads the indentation of a line and says what follows it. -/
def beginLine (lx : Lexer) : LineStart :=
  let (blanks, c) := lx.cursor.takeWhile isIndentation
  let lx := lx.moveTo c
  match c.peek? with
  | none => .atEnd lx
  | some x =>
    if x = '#' then .blank (lx.moveTo (skipComment c).skip)
    else if x = '\n' || x = '\r' then .blank (lx.moveTo c.skip)
    else changeBlocks (blanks.foldl Layout.widthAfter 0) lx

/-- Ends a token that was scanned as a whole. -/
def accept (lx : Lexer) : Scanned → Option Token × Lexer
  | (.ok kind, c) => let lx := lx.moveTo c; (some (lx.token kind), lx)
  | (.error fault, c) => (none, (lx.moveTo c).fail fault)

/-- A keyword, a name, or a string literal with letters in front of it. -/
def scanWord (first : Char) (c : Cursor) : Scanned :=
  let (more, c) := c.takeWhile isIdentifierChar
  let word := first :: more
  let plain : TokenKind :=
    let text := String.ofList word
    match Keyword.ofSpelling? text with
    | some w => .keyword w
    | none => .name text
  match c.peek? with
  | some quote =>
    if quote = '"' || quote = '\'' then
      match StringForm.ofMarkers? word with
      | some form => scanString form quote c.skip
      | none => (.ok plain, c)
    else (.ok plain, c)
  | none => (.ok plain, c)

/-- The mark `longer` if the next character is `second`, and else `shorter`. -/
def either (second : Char) (longer shorter : Punct) (c : Cursor) : Punct × Cursor :=
  if c.peek? = some second then (longer, c.skip) else (shorter, c)

/-- A mark that may be doubled, and that an `=` may follow in either case. -/
def doubled (x : Char) (double doubleAssign single singleAssign : Punct) (c : Cursor) :
    Punct × Cursor :=
  if c.peek? = some x then either '=' doubleAssign double c.skip
  else either '=' singleAssign single c

/-- The longest mark that starts with `x`, brackets and points apart. -/
def operator? (x : Char) (c : Cursor) : Option (Punct × Cursor) :=
  match x with
  | ',' => some (.comma, c)
  | ';' => some (.semicolon, c)
  | '~' => some (.tilde, c)
  | ':' => some (either '=' .walrus .colon c)
  | '=' => some (either '=' .eqEq .assign c)
  | '+' => some (either '=' .plusAssign .plus c)
  | '%' => some (either '=' .percentAssign .percent c)
  | '@' => some (either '=' .atAssign .atSign c)
  | '&' => some (either '=' .ampAssign .amp c)
  | '|' => some (either '=' .pipeAssign .pipe c)
  | '^' => some (either '=' .caretAssign .caret c)
  | '-' => if c.peek? = some '>' then some (.arrow, c.skip) else some (either '=' .minusAssign .minus c)
  | '*' => some (doubled '*' .doubleStar .doubleStarAssign .star .starAssign c)
  | '/' => some (doubled '/' .doubleSlash .doubleSlashAssign .slash .slashAssign c)
  | '<' => some (doubled '<' .shiftLeft .shiftLeftAssign .less .lessEq c)
  | '>' => some (doubled '>' .shiftRight .shiftRightAssign .greater .greaterEq c)
  | '!' => if c.peek? = some '=' then some (.notEq, c.skip) else none
  | _ => none

def openBracket? : Char → Option Punct
  | '(' => some .parenOpen
  | '[' => some .squareOpen
  | '\x7b' => some .braceOpen
  | _ => none

def closeBracket? : Char → Option Punct
  | ')' => some .parenClose
  | ']' => some .squareClose
  | '\x7d' => some .braceClose
  | _ => none

/-- A number, three points or one, behind a first point. -/
def scanDot (c : Cursor) : Scanned :=
  if c.peek?.any isDigit then scanLeadingDot c
  else if c.peek? = some '.' && c.peekSecond? = some '.' then
    (.ok (.punct .ellipsis), c.skip.skip)
  else (.ok (.punct .dot), c)

/-- Reads the token that starts with `x`, with the cursor behind `x`. -/
def scanToken (x : Char) (lx : Lexer) : Option Token × Lexer :=
  if isIdentifierStart x then lx.accept (scanWord x lx.cursor)
  else if isDigit x then lx.accept (scanNumber x lx.cursor)
  else if x = '"' || x = '\'' then lx.accept (scanString {} x lx.cursor)
  else if x = '.' then lx.accept (scanDot lx.cursor)
  else match openBracket? x with
    | some p => ({ lx with layout := lx.layout.openBracket x }).accept (.ok (.punct p), lx.cursor)
    | none =>
      match closeBracket? x with
      | some p =>
        match lx.layout.closeBracket? x with
        | some layout => ({ lx with layout }).accept (.ok (.punct p), lx.cursor)
        | none => (none, lx.fail (.unmatchedBracket x))
      | none =>
        match operator? x lx.cursor with
        | some (p, c) => lx.accept (.ok (.punct p), c)
        | none => (none, lx.fail (.unexpectedChar x))

/-- Ends a line; this is a token only if the line has one. -/
def endLine (lx : Lexer) : LexStep :=
  let lx := { lx with atLineStart := true }
  if lx.lineHasTokens then .answer (some (lx.token .newline)) { lx with lineHasTokens := false }
  else .skipped lx

/-- Goes on to the next line behind a backslash. -/
def continueLine (lx : Lexer) : LexStep :=
  let c := if lx.cursor.peek? = some '\r' then lx.cursor.skip else lx.cursor
  let lx := lx.moveTo c.skip
  if c.peek? = some '\n' then .skipped lx else .answer none (lx.fail .badContinuation)

/-- Reads what follows in the current line. -/
def readOn (lx : Lexer) : LexStep :=
  let c := skipGaps lx.layout.inBrackets lx.cursor.rest.length lx.cursor
  let lx := (lx.moveTo c).markStart
  match c.next? with
  | none => let (token, lx) := lx.finish; .answer token lx
  | some (x, c) =>
    let lx := lx.moveTo c
    if x = '\n' then lx.endLine
    else if x = '\\' then lx.continueLine
    else match lx.scanToken x with
      | (some token, lx) => .answer (some token) { lx with lineHasTokens := true }
      | (none, lx) => .answer none lx

/-- Reads up to the next token, over at most `fuel` lines. -/
def search : Nat → Lexer → Option Token × Lexer
  | 0, lx => (none, lx)
  | fuel + 1, lx =>
    let begun := if lx.atLineStart && !lx.layout.inBrackets then lx.beginLine else .code none lx
    match begun with
    | .blank lx => search fuel lx
    | .atEnd lx => lx.finish
    | .code (some token) lx => (some token, lx)
    | .code none lx =>
      if lx.error.isSome then (none, lx)
      else match lx.readOn with
        | .skipped lx => search fuel lx
        | .answer token lx => (token, lx)

/-- Reads the next token; `none` at the end of the text or behind an error. -/
def next (lx : Lexer) : Option Token × Lexer :=
  match lx.pending with
  | token :: rest => (some token, { lx with pending := rest })
  | [] =>
    if lx.finished || lx.error.isSome then (none, lx)
    else lx.search (lx.cursor.rest.length + 1)

/-- Reads at most `fuel` tokens. -/
def readAll : Nat → Lexer → List Token × Lexer
  | 0, lx => ([], lx)
  | fuel + 1, lx =>
    match lx.next with
    | (none, lx) => ([], lx)
    | (some token, lx) => let (tokens, lx) := readAll fuel lx; (token :: tokens, lx)

/-- All tokens of a text up to an error, and the lexer behind them.  A text has at most twice as many
tokens as characters. -/
def run (source : String) : List Token × Lexer :=
  readAll (2 * source.length + 1) (ofText source)

end Lexer

/-- The tokens of a text with `endOfFile` behind them, or the first error. -/
def tokenize (source : String) : Except LexError (List Token) :=
  let (tokens, lx) := Lexer.run source
  match lx.error with
  | some e => .error e
  | none => .ok (tokens ++ [⟨.endOfFile, .empty lx.position⟩])

end MysToCpp
