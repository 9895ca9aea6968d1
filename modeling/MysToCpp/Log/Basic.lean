/-
# Log lines

What the program tells about its work.  An event has a level, and is shown as one line if its level is
at or above the one that is asked for.
-/

namespace MysToCpp

/-- How much an event matters, from the least on. -/
inductive LogLevel where
  | trace | debug | info | warn | error
  deriving DecidableEq, Repr, Inhabited

namespace LogLevel

def rank : LogLevel → Nat
  | trace => 0 | debug => 1 | info => 2 | warn => 3 | error => 4

def spelling : LogLevel → String
  | trace => "trace" | debug => "debug" | info => "info" | warn => "warn" | error => "error"

def all : List LogLevel := [trace, debug, info, warn, error]

/-- The level with exactly this spelling. -/
def ofSpelling? (s : String) : Option LogLevel := all.find? (·.spelling = s)

/-- The level that a text names in letters of either case; `warning` names `warn` too.  The message
about a text that names none has it in small letters. -/
def ofText (s : String) : Except String LogLevel :=
  let word := String.ofList (s.toList.map Char.toLower)
  if word = "warning" then .ok warn
  else match ofSpelling? word with
    | some level => .ok level
    | none => .error ("unknown log level '" ++ word ++ "'")

/-- The mark in front of an event, five characters wide. -/
def mark : LogLevel → String
  | trace => "TRACE" | debug => "DEBUG" | info => " INFO" | warn => " WARN" | error => "ERROR"

end LogLevel

/-- Something that the program tells about its work. -/
structure LogEvent where
  level : LogLevel
  message : String
  deriving DecidableEq, Repr, Inhabited

namespace LogEvent

/-- A character of a message.  Those that could steer a terminal are written as escapes. -/
def shownChar (c : Char) : List Char :=
  if c = '\x1b' || c = '\x07' || c = '\x08' || c = '\x0c' || c = '\x7f' then
    ['\\', 'x'] ++ (if c.toNat < 16 then ['0'] else []) ++ Nat.toDigits 16 c.toNat
  else if 0x80 ≤ c.toNat && c.toNat ≤ 0x9f then
    ['\\', 'u', '\x7b'] ++ Nat.toDigits 16 c.toNat ++ ['\x7d']
  else [c]

def line (e : LogEvent) : String :=
  e.level.mark ++ " " ++ .ofList (e.message.toList.flatMap shownChar) ++ "\n"

/-- Whether an event is shown when events from `threshold` on are asked for. -/
def isShown (threshold : LogLevel) (e : LogEvent) : Bool := threshold.rank ≤ e.level.rank

end LogEvent

/-- The lines of the events that are shown. -/
def logLines (threshold : LogLevel) (events : List LogEvent) : String :=
  String.join ((events.filter (·.isShown threshold)).map LogEvent.line)

end MysToCpp
