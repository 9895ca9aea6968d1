/-
# Parsers

A `Parser` reads tokens from the front of a list.  It gives a value and goes on, or it gives none and
has recorded an error; what was read before the error stays read.  Loops are written with
`Parser.repeatWhile`: a round that asks for another one has read a token, so there are at most as many
rounds as tokens.
-/
import MysToCpp.Token.Basic
import MysToCpp.Tree.Expr

namespace MysToCpp

/-- Why tokens are no program. -/
inductive ParseFault where
  /-- Something else was expected. -/
  | expected (what : String) (found : TokenKind)
  | unexpected (found : TokenKind)
  | other (text : String)
  deriving DecidableEq, Repr, Inhabited

/-- A fault and where it was found. -/
structure ParseError where
  fault : ParseFault
  span : Span
  deriving DecidableEq, Repr, Inhabited

def ParseFault.message : ParseFault → String
  | expected what found => "expected " ++ what ++ ", found " ++ found.describe
  | unexpected found => "unexpected " ++ found.describe
  | other text => text

def ParseError.message (e : ParseError) : String := e.fault.message

/-- The state of a parser: the token read last, the tokens to read, and the errors found. -/
structure ParserState where
  previous : Option Token := none
  rest : List Token
  errors : List ParseError := []
  deriving DecidableEq, Repr, Inhabited

namespace ParserState

/-- The kind of the next token; behind the last one there is the end of the file. -/
def kind (s : ParserState) : TokenKind :=
  match s.rest with
  | token :: _ => token.kind
  | [] => .endOfFile

/-- The kind of the token behind the next one. -/
def secondKind (s : ParserState) : TokenKind :=
  match s.rest with
  | _ :: token :: _ => token.kind
  | _ => .endOfFile

/-- The span of the next token; behind the last one, the span of that one. -/
def span (s : ParserState) : Span :=
  match s.rest, s.previous with
  | token :: _, _ => token.span
  | [], some token => token.span
  | [], none => .nowhere

/-- The span of the token read last; before the first one, the span of that one. -/
def previousSpan (s : ParserState) : Span :=
  match s.previous with
  | some token => token.span
  | none => s.span

/-- From `start` to the end of the token read last. -/
def spanFrom (s : ParserState) (start : Span) : Span := start.through s.previousSpan

def atEnd (s : ParserState) : Bool := s.kind = .endOfFile

def isAt (s : ParserState) (k : TokenKind) : Bool := s.kind.same k

def advance (s : ParserState) : ParserState :=
  match s.rest with
  | token :: rest => { s with previous := some token, rest }
  | [] => s

def record (s : ParserState) (e : ParseError) : ParserState :=
  { s with errors := s.errors ++ [e] }

def firstError? (s : ParserState) : Option ParseError := s.errors.head?

end ParserState

/-- Reads tokens; `none` says that reading failed. -/
def Parser (α : Type) : Type := ParserState → Option α × ParserState

namespace Parser

/-- Gives a value and reads nothing. -/
protected def pure {α : Type} (a : α) : Parser α := fun s => (some a, s)

/-- Reads on with `f` behind `p`, unless `p` failed. -/
protected def bind {α β : Type} (p : Parser α) (f : α → Parser β) : Parser β := fun s =>
  match p s with
  | (some a, s') => f a s'
  | (none, s') => (none, s')

instance : Monad Parser where
  pure := Parser.pure
  bind := Parser.bind

/-- Fails without an error: what a bounded search gives when its bound is reached. -/
def stuck {α : Type} : Parser α := fun s => (none, s)

def ask {α : Type} (f : ParserState → α) : Parser α := fun s => (some (f s), s)

def kind : Parser TokenKind := ask (·.kind)

def secondKind : Parser TokenKind := ask (·.secondKind)

def span : Parser Span := ask (·.span)

def spanFrom (start : Span) : Parser Span := ask (·.spanFrom start)

def atEnd : Parser Bool := ask (·.atEnd)

def isAt (k : TokenKind) : Parser Bool := ask (·.isAt k)

/-- Reads a token, if there is one. -/
def advance : Parser Unit := fun s => (some (), s.advance)

/-- Reads a token of this kind, if it is next, and says whether it was. -/
def skip (k : TokenKind) : Parser Bool := fun s =>
  if s.isAt k then (some true, s.advance) else (some false, s)

def failAt {α : Type} (fault : ParseFault) (span : Span) : Parser α := fun s =>
  (none, s.record ⟨fault, span⟩)

def failWith {α : Type} (text : String) (span : Span) : Parser α := failAt (.other text) span

/-- Fails because something else than the next token was expected. -/
def failExpected {α : Type} (what : String) : Parser α := fun s =>
  failAt (.expected what s.kind) s.span s

/-- Reads a token of this kind and gives its span. -/
def expect (k : TokenKind) : Parser Span := fun s =>
  if s.isAt k then (some s.span, s.advance) else failExpected k.describe s

def identifier : Parser Ident := fun s =>
  match s.kind with
  | .name text => (some ⟨text, s.span⟩, s.advance)
  | _ => failExpected "identifier" s

/-- At most `fuel` rounds of `repeatWhile`. -/
def repeatFuel {σ : Type} (step : σ → Parser (Option σ)) : Nat → σ → Parser σ
  | 0, _ => stuck
  | fuel + 1, a => do
    match ← step a with
    | some b => repeatFuel step fuel b
    | none => pure a

/-- Repeats a step, which gives the next value or says that the last one stays.  A step that gives a
value reads a token, so that one round more than there are tokens is enough. -/
def repeatWhile {σ : Type} (step : σ → Parser (Option σ)) (a : σ) : Parser σ := fun s =>
  repeatFuel step (s.rest.length + 1) a s

/-- A round of `unfold`: what the step gives comes in front of what was found before. -/
def gather {σ α : Type} (step : σ → Parser (Option (α × σ))) (now : List α × σ) :
    Parser (Option (List α × σ)) := do
  match ← step now.2 with
  | some (x, b) => pure (some (x :: now.1, b))
  | none => pure none

/-- Collects what a step gives until it gives nothing; the step is told a value from the round before. -/
def unfold {σ α : Type} (step : σ → Parser (Option (α × σ))) (a : σ) : Parser (List α) := do
  let last ← repeatWhile (gather step) ([], a)
  pure last.1.reverse

/-- A parser as a step that is told nothing. -/
def untold {α : Type} (p : Parser (Option α)) (_ : Unit) : Parser (Option (α × Unit)) := do
  match ← p with
  | some x => pure (some (x, ()))
  | none => pure none

/-- Collects what a parser gives until it gives nothing. -/
def many {α : Type} (p : Parser (Option α)) : Parser (List α) := unfold (untold p) ()

/-- Gives what `p` reads, and nothing if it fails; what it recorded stays recorded. -/
def attempt {α : Type} (p : Parser α) : Parser (Option α) := fun s =>
  let (a, s') := p s
  (some a, s')

/-- Gives what `p` reads behind a token of this kind, and nothing if that is not next. -/
def after {α : Type} (k : TokenKind) (p : Parser α) : Parser (Option α) := do
  if ← skip k then
    let a ← p
    pure (some a)
  else pure none

end Parser

end MysToCpp
