/-
# The command line

`CommandLine.read` reads the arguments of the program as a request.  Options stand before the command or
behind it; the first thing that is wrong, or that asks for help or the version, ends the reading.
-/
import MysToCpp.Settings

namespace MysToCpp.CommandLine

/-- The commands. -/
inductive Topic where
  | transpile
  | check
  | version
  deriving DecidableEq, Repr, Inhabited

def Topic.word : Topic → String
  | transpile => "transpile"
  | check => "check"
  | version => "version"

def Topic.ofWord? (s : String) : Option Topic :=
  [Topic.transpile, .check, .version].find? (·.word = s)

/-- Why reading ends before a command is known. -/
inductive Stop where
  /-- Help is asked for, about a command or about the program. -/
  | help (topic : Option Topic)
  | version
  | misuse
  deriving DecidableEq, Repr, Inhabited

/-- Where an argument stands: before the command, or behind it. -/
inductive Level where
  | program
  | command (topic : Topic)
  deriving DecidableEq, Repr, Inhabited

/-- The options without a value. -/
inductive Switch where
  | verbose | help | version
  deriving DecidableEq, Repr, Inhabited

/-- The options with a value. -/
inductive Setting where
  | format | output
  deriving DecidableEq, Repr, Inhabited

abbrev Opt := Switch ⊕ Setting

/-- The option with a long name. -/
def Level.long? (level : Level) (name : List Char) : Option Opt :=
  match String.ofList name, level with
  | "verbose", _ => some (.inl .verbose)
  | "message-format", _ => some (.inr .format)
  | "help", _ => some (.inl .help)
  | "version", .program => some (.inl .version)
  | "output", .command .transpile => some (.inr .output)
  | _, _ => none

/-- The option with a letter. -/
def Level.short? (level : Level) (letter : Char) : Option Opt :=
  match letter, level with
  | 'v', _ => some (.inl .verbose)
  | 'h', _ => some (.inl .help)
  | 'V', .program => some (.inl .version)
  | 'o', .command .transpile => some (.inr .output)
  | _, _ => none

/-- What is given on a level. -/
structure Given where
  verbose : Bool := false
  format : Option MessageFormat := none
  output : Option String := none
  file : Option String := none
  deriving DecidableEq, Repr, Inhabited

/-- Takes an option without a value into account; none is given twice. -/
def Switch.apply (level : Level) (g : Given) : Switch → Except Stop Given
  | verbose => if g.verbose then .error .misuse else .ok { g with verbose := true }
  | version => .error .version
  | help =>
    match level with
    | .program => .error (.help none)
    | .command topic => .error (.help (some topic))

/-- Takes an option with its value into account; none is given twice. -/
def Setting.apply (value : List Char) (g : Given) : Setting → Except Stop Given
  | format =>
    match g.format, MessageFormat.ofSpelling? (.ofList value) with
    | none, some f => .ok { g with format := some f }
    | _, _ => .error .misuse
  | output =>
    if g.output.isSome || value.isEmpty then .error .misuse
    else .ok { g with output := some (.ofList value) }

def Given.setFile (level : Level) (name : List Char) (g : Given) : Except Stop Given :=
  match level with
  | .command .transpile | .command .check =>
    if g.file.isSome || name.isEmpty then .error .misuse
    else .ok { g with file := some (.ofList name) }
  | _ => .error .misuse

/-- Whether an argument can be the value of the option before it. -/
def isValue : List Char → Bool
  | '-' :: _ :: _ => false
  | _ => true

/-- The value of an option behind its letter; an equals sign is not part of it. -/
def attached : List Char → List Char
  | '=' :: value => value
  | value => value

/-- Reads letters behind one dash.  An option that has its value in the next argument is left. -/
def readLetters (level : Level) : List Char → Given → Except Stop (Given × Option Setting)
  | [], g => .ok (g, none)
  | c :: rest, g =>
    match level.short? c with
    | none => .error .misuse
    | some (.inl switch) => do readLetters level rest (← switch.apply level g)
    | some (.inr setting) =>
      if rest.isEmpty then .ok (g, some setting)
      else do .ok (← setting.apply (attached rest) g, none)

/-- Reads a long option, with a value behind an equals sign or without one. -/
def readLong (level : Level) (arg : List Char) (g : Given) : Except Stop (Given × Option Setting) :=
  let (name, behind) := arg.span (· ≠ '=')
  match level.long? name, behind with
  | some (.inl switch), [] => do .ok (← switch.apply level g, none)
  | some (.inr setting), [] => .ok (g, some setting)
  | some (.inr setting), _ :: value => do .ok (← setting.apply value g, none)
  | _, _ => .error .misuse

/-- What the arguments of a level give, and the command behind them with its own arguments. -/
abbrev LevelRead := Except Stop (Given × Option (Topic × List String))

/-- Reads arguments that are no options, whatever they start with. -/
def readFiles (level : Level) (args : List String) (g : Given) : LevelRead := do
  .ok (← args.foldlM (fun g arg => g.setFile level arg.toList) g, none)

/-- Reads a request for help about a command. -/
def readHelp : List String → Stop
  | [] | ["help"] => .help none
  | [word] =>
    match Topic.ofWord? word with
    | some topic => .help (some topic)
    | none => .misuse
  | _ => .misuse

/-- Reads the arguments of a level. -/
def readLevel (level : Level) : List String → Given → LevelRead
  | [], g => .ok (g, none)
  | arg :: rest, g =>
    let goOn (read : Except Stop (Given × Option Setting)) : LevelRead := do
      match ← read with
      | (g, none) => readLevel level rest g
      | (g, some setting) =>
        match rest with
        | [] => .error .misuse
        | value :: rest =>
          if isValue value.toList then do readLevel level rest (← setting.apply value.toList g)
          else .error .misuse
    match arg.toList with
    | ['-', '-'] => readFiles level rest g
    | '-' :: '-' :: long => goOn (readLong level long g)
    | '-' :: letter :: letters => goOn (readLetters level (letter :: letters) g)
    | word =>
      match level with
      | .command _ => goOn (do .ok (← g.setFile level word, none))
      | .program =>
        if arg = "help" then .error (readHelp rest)
        else match Topic.ofWord? arg with
          | some topic => .ok (g, some (topic, rest))
          | none => .error .misuse

/-- What the program does. -/
inductive Command where
  /-- Writes the C++ text of a file to another one. -/
  | transpile (file : String) (output : Option String)
  /-- Tells what is wrong with a file. -/
  | check (file : String)
  /-- Tells the version. -/
  | version
  deriving DecidableEq, Repr, Inhabited

/-- A command with the options that all commands have. -/
structure Request where
  command : Command
  verbose : Bool
  format : Option MessageFormat
  deriving DecidableEq, Repr, Inhabited

/-- The command of a topic, if its file is given. -/
def Topic.command (g : Given) : Topic → Except Stop Command
  | transpile =>
    match g.file with
    | some file => .ok (.transpile file g.output)
    | none => .error .misuse
  | check =>
    match g.file with
    | some file => .ok (.check file)
    | none => .error .misuse
  | version => .ok .version

/-- The request that arguments make.  Of an option on both levels, the one behind the command counts. -/
def read (args : List String) : Except Stop Request := do
  let (outer, named) ← readLevel .program args {}
  match named with
  | none => .error .misuse
  | some (topic, rest) =>
    let (inner, _) ← readLevel (.command topic) rest {}
    .ok { command := ← topic.command inner,
          verbose := outer.verbose || inner.verbose,
          format := inner.format <|> outer.format }

end MysToCpp.CommandLine
