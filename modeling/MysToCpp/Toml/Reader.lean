/-
# Readers of TOML

A `Reader` takes a value off the front of a text, or fails.  Here are the pieces that all of the format
is made of: runs of characters, blanks, line ends and comments.
-/

namespace MysToCpp.Toml

/-- Takes a value off the front of a text, if it starts with one. -/
abbrev Reader := StateT (List Char) Option

namespace Reader

/-- The next character, which stays in the text. -/
def peek? : Reader (Option Char) := do return (← get).head?

def anyChar : Reader Char := fun
  | [] => none
  | c :: cs => some (c, cs)

def charWhere (p : Char → Bool) : Reader Char := do
  let c ← anyChar
  if p c then return c else failure

/-- Exactly these characters. -/
def expect (word : List Char) : Reader Unit := fun cs =>
  if word.isPrefixOf cs then some ((), cs.drop word.length) else none

/-- Whether these characters come next; if so, they are taken. -/
def skip (word : List Char) : Reader Bool := fun cs =>
  if word.isPrefixOf cs then some (true, cs.drop word.length) else some (false, cs)

/-- As many characters with this property as there are. -/
def takeWhile (p : Char → Bool) : Reader (List Char) := fun cs => some (cs.takeWhile p, cs.dropWhile p)

def exactly (n : Nat) (p : Char → Bool) : Reader (List Char) := fun cs =>
  let taken := cs.take n
  if taken.length = n && taken.all p then some (taken, cs.drop n) else none

/-- At most `n` values. -/
def manyUpTo {α : Type} (item : Reader α) : Nat → Reader (List α)
  | 0 => return []
  | n + 1 => (do
      let first ← item
      let rest ← manyUpTo item n
      return first :: rest) <|> return []

/-- As many values as there are; each takes at least a character. -/
def many {α : Type} (item : Reader α) : Reader (List α) := do manyUpTo item (← get).length

/-- One value or more with a mark between them. -/
def separated {α : Type} (mark : Char) (item : Reader α) : Reader (List α) := do
  let first ← item
  let rest ← many (do expect [mark]; item)
  return first :: rest

def atEnd : Reader Unit := do if (← get).isEmpty then return () else failure

end Reader

open Reader

/-- Space and tab. -/
def isBlank (c : Char) : Bool := c = ' ' || c = '\t'

def blanks : Reader Unit := do let _ ← takeWhile isBlank

/-- A line end, with a carriage return in front of it or not. -/
def newline : Reader Unit := expect ['\n'] <|> expect ['\r', '\n']

/-- The characters of comments and strings: all but the controls of ASCII, of which the tab is allowed. -/
def isTextChar (c : Char) : Bool := c = '\t' || (0x20 ≤ c.toNat && c.toNat ≠ 0x7f)

def comment : Reader Unit := do
  expect ['#']
  let _ ← takeWhile isTextChar

/-- What may follow an entry or a header up to the end of its line. -/
def lineRest : Reader Unit := do
  blanks
  if (← peek?) = some '#' then comment
  newline <|> atEnd

/-- Blanks, line ends and comments between the items of an array. -/
def spacing : Reader Unit := do
  blanks
  let _ ← many (do
    if (← peek?) = some '#' then comment
    newline
    blanks)

end MysToCpp.Toml
