/-
# Settings

What a user sets once for all runs: how much is logged, where outputs go, and how diagnostics are shown.
Settings are read from a TOML document; what it does not set has its default, and names that mean
nothing are left out.
-/
import MysToCpp.Files.Access
import MysToCpp.Files.Path
import MysToCpp.Log.Basic
import MysToCpp.Toml.Document

namespace MysToCpp

/-- How diagnostics are shown. -/
inductive MessageFormat where
  | text
  | json
  deriving DecidableEq, Repr, Inhabited

namespace MessageFormat

def spelling : MessageFormat → String
  | text => "text"
  | json => "json"

def label : MessageFormat → String
  | text => "Text"
  | json => "Json"

def all : List MessageFormat := [text, json]

def ofSpelling? (s : String) : Option MessageFormat := all.find? (·.spelling = s)

/-- The format with this spelling, or why there is none. -/
def ofText (s : String) : Except String MessageFormat :=
  match ofSpelling? s with
  | some format => .ok format
  | none => .error ("unknown message format '" ++ s ++ "'")

end MessageFormat

/-- Where outputs go. -/
structure OutputSettings where
  extension : String := "cpp"
  directory : Option String := none
  deriving DecidableEq, Repr, Inhabited

/-- Whether an extension can end a name: it has no slash. -/
def isExtension (s : String) : Bool := !s.toList.contains '/'

/-- The path of the output for an input: the input with the extension that is set, moved to the directory
that is set.  There is none if the extension has a slash. -/
def OutputSettings.pathFor? (out : OutputSettings) (input : String) : Option String :=
  if !isExtension out.extension then none
  else
    let path := Path.withExtension out.extension input
    match out.directory, Path.fileName? path with
    | some directory, some name => some (Path.join directory name)
    | _, _ => some path

/-- What a user sets. -/
structure Settings where
  level : LogLevel := .warn
  output : OutputSettings := {}
  format : MessageFormat := .text
  deriving DecidableEq, Repr, Inhabited

/-- Why there are no settings. -/
inductive SettingsError where
  | unreadable (fault : FileFault)
  /-- The text is no document, or sets something to what it cannot be. -/
  | malformed
  deriving DecidableEq, Repr, Inhabited

def SettingsError.message : SettingsError → String
  | unreadable fault => "IO error: " ++ fault.message
  | malformed => "Config parse error: the settings are not valid"

namespace Toml

/-- The values of a group of settings, in order, by the names they have.  A list sets them from the first
on, and a date sets none. -/
def Node.fields? (names : List String) : Node → Option (List (Option Node))
  | .table _ entries => some (names.map fun name => entries.lookup name)
  | .array items => some (items.take names.length |>.map some)
  | .tables earlier last => some ((earlier ++ [last]).map fun es => some (.table .header es))
  | .moment _ => some []
  | _ => none

/-- Whether a value is a table or a list with nothing in it. -/
def Node.isNothing : Node → Bool
  | .table _ entries => entries.isEmpty
  | .array items => items.isEmpty
  | _ => false

/-- The word that a value picks out of a choice: it is the word, or a table that gives nothing but the
word an empty value. -/
def Node.choice? : Node → Option String
  | .text word => some word
  | .table _ [(word, node)] => if node.isNothing then some word else none
  | _ => none

def Node.text? : Node → Option String
  | .text s => some s
  | _ => none

/-- Reads the setting at a place of a group; without a value it has its default. -/
def setting {α : Type} (default : α) (read : Node → Option α) (fields : List (Option Node))
    (place : Nat) : Option α :=
  match fields[place]? with
  | some (some node) => read node
  | _ => some default

end Toml

namespace Settings

open Toml (Node setting)

/-- The group `log`. -/
def readLevel (node : Node) : Option LogLevel := do
  let fields ← node.fields? ["level"]
  setting .warn (fun n => do LogLevel.ofSpelling? (← n.choice?)) fields 0

/-- The group `output`. -/
def readOutput (node : Node) : Option OutputSettings := do
  let fields ← node.fields? ["extension", "directory"]
  let extension ← setting "cpp" Node.text? fields 0
  let directory ← setting none (fun n => some <$> n.text?) fields 1
  some ⟨extension, directory⟩

/-- The group `diagnostics`. -/
def readFormat (node : Node) : Option MessageFormat := do
  let fields ← node.fields? ["format"]
  setting .text (fun n => do MessageFormat.ofSpelling? (← n.choice?)) fields 0

/-- The settings of a document. -/
def ofEntries? (entries : Toml.Entries) : Option Settings := do
  let fields := ["log", "output", "diagnostics"].map fun name => entries.lookup name
  let level ← setting .warn readLevel fields 0
  let output ← setting {} readOutput fields 1
  let format ← setting .text readFormat fields 2
  some ⟨level, output, format⟩

def ofText (s : String) : Except SettingsError Settings :=
  match Toml.Entries.ofText? s >>= ofEntries? with
  | some settings => .ok settings
  | none => .error .malformed

/-- The settings in a file, as far as its text could be read. -/
def ofFile (text : Except FileFault String) : Except SettingsError Settings :=
  match text with
  | .ok s => ofText s
  | .error fault => .error (.unreadable fault)

end Settings

end MysToCpp
