/-
# Running a command

`Program.run` answers arguments: it reads the user's settings, carries out the command, and gives what is
written to the two output streams and the exit status.  Files are reached only through a `FileAccess`.
Identifiers are those of Unicode 18.
-/
import MysToCpp.Command.Help
import MysToCpp.Diagnostic.Json
import MysToCpp.Log.Transpile
import MysToCpp.Text.Unicode

namespace MysToCpp.Program

/-- What the program was about to do with a file. -/
inductive FileAction where
  | read
  | createDirectory
  | write
  deriving DecidableEq, Repr, Inhabited

/-- An operation on files that failed. -/
structure FileError where
  action : FileAction
  path : String
  fault : FileFault
  deriving DecidableEq, Repr, Inhabited

def FileError.message (e : FileError) : String :=
  let what := match e.action with
    | .read => "Failed to read file: "
    | .createDirectory => "Failed to create directory: "
    | .write => "Failed to write: "
  what ++ e.path

def FileError.report (e : FileError) : String :=
  "Error: " ++ e.message ++ "\n\nCaused by:\n    " ++ e.fault.message ++ "\n"

/-- Why there is no C++ text of a file on disk. -/
inductive SourceFailure where
  | unreadable (error : FileError)
  | rejected (error : TranspileError)
  deriving DecidableEq, Repr, Inhabited

/-- The reasons of a failure, from the outermost on. -/
def SourceFailure.reasons : SourceFailure → List String
  | unreadable e => [e.message, e.fault.message]
  | rejected e => [e.message]

section

variable {m : Type → Type} [Monad m]

def readSource (files : FileAccess m) (path : String) : m (Except FileError SourceFile) := do
  match ← files.readText path with
  | .ok content => return .ok ⟨path, content⟩
  | .error fault => return .error ⟨.read, path, fault⟩

/-- The C++ text of a file on disk. -/
def transpileFile (files : FileAccess m) (path : String) : m (Except SourceFailure String) := do
  match ← readSource files path with
  | .ok file => return (transpile file).mapError .rejected
  | .error e => return .error (.unreadable e)

/-- Variables of the environment with their values. -/
abbrev Environment := List (String × String)

/-- The path of the user's settings: below the first directory for settings that the environment names. -/
def settingsPath? (env : Environment) : Option String :=
  let directory? :=
    (env.lookup "XDG_CONFIG_HOME")
      <|> ((env.lookup "HOME").map (Path.join · ".config"))
      <|> (env.lookup "APPDATA")
  directory?.map fun d => Path.join (Path.join d programName) "config.toml"

/-- The user's settings; defaults where there is no file. -/
def loadSettings (files : FileAccess m) (env : Environment) : m (Except SettingsError Settings) := do
  match settingsPath? env with
  | none => return .ok {}
  | some path =>
    if ← files.isThere path then return Settings.ofFile (← files.readText path)
    else return .ok {}

/-- A run writes to the error stream, and can end with an exit status before it is through. -/
abbrev Run (m : Type → Type) := ExceptT Nat (StateT String m)

/-- Writes to the error stream. -/
def tell (text : String) : Run m Unit := modify (· ++ text)

/-- Ends the run with an operation on files that failed. -/
def fail {α : Type} (e : FileError) : Run m α := do
  tell e.report
  throw 1

/-- Goes on with the result of an operation on files. -/
def orFail {α : Type} (action : FileAction) (path : String) (result : m (Except FileFault α)) : Run m α := do
  match ← (result : StateT String m (Except FileFault α)) with
  | .ok a => return a
  | .error fault => fail ⟨action, path, fault⟩

/-- What a run is told by settings and options. -/
structure Context where
  settings : Settings
  threshold : LogLevel
  format : MessageFormat

/-- Writes events to the error stream, as far as they are shown. -/
def Context.log (ctx : Context) (events : List LogEvent) : Run m Unit :=
  tell (logLines ctx.threshold events)

/-- How an error about a file is shown. -/
def Context.showError (ctx : Context) (path : String) (e : TranspileError) : String :=
  match ctx.format, e with
  | .json, .diagnostic d _ => d.renderJson path ++ "\n"
  | _, _ => e.message ++ "\n"

/-- The C++ text of a file; what is wrong with it ends the run. -/
def translate (files : FileAccess m) (ctx : Context) (path : String) : Run m String := do
  let content ← orFail .read path (files.readText path)
  let file : SourceFile := ⟨path, content⟩
  ctx.log (transpileEvents file)
  match transpile file with
  | .ok code => return code
  | .error e =>
    tell (ctx.showError path e)
    throw 1

/-- Makes the directory for outputs, if one is set and missing. -/
def makeOutputDirectory (files : FileAccess m) (ctx : Context) : Run m Unit := do
  match ctx.settings.output.directory with
  | none => return ()
  | some directory =>
    if ← (files.isThere directory : StateT String m Bool) then return ()
    ctx.log [⟨.warn, "Creating output directory " ++ directory⟩]
    orFail .createDirectory directory (files.makeDirectories directory)

/-- The exit status of a run that settings made impossible. -/
def crashed : Nat := 101

/-- The path of the output: the one that is given, or the one that the settings make of the input. -/
def outputPath (ctx : Context) (file : String) (output : Option String) : Run m String :=
  match output <|> ctx.settings.output.pathFor? file with
  | some path => return path
  | none => do
    tell ("extension cannot contain path separators: " ++ ctx.settings.output.extension ++ "\n")
    throw crashed

/-- Carries out a command; the result is what is written to the output stream. -/
def execute (files : FileAccess m) (ctx : Context) : CommandLine.Command → Run m String
  | .transpile file output => do
    let path ← outputPath ctx file output
    let code ← translate files ctx file
    makeOutputDirectory files ctx
    orFail .write path (files.writeText path code)
    ctx.log [⟨.info, "Wrote " ++ path⟩]
    return ""
  | .check file => do
    let _ ← translate files ctx file
    tell (file ++ ": ok\n")
    return ""
  | .version => return programName ++ " " ++ programVersion ++ "\n"

/-- What a run comes to. -/
structure Outcome where
  status : Nat
  stdout : String := ""
  stderr : String := ""
  deriving DecidableEq, Repr, Inhabited

/-- Carries out a request with the user's settings. -/
def perform (files : FileAccess m) (env : Environment) (request : CommandLine.Request) : m Outcome := do
  let loaded ← loadSettings files env
  let (settings, warning) := match loaded with
    | .ok settings => (settings, "")
    | .error e => ({}, "warning: ignoring user configuration: " ++ e.message ++ "\n")
  let ctx : Context :=
    { settings,
      threshold := if request.verbose then .debug else settings.level,
      format := request.format.getD settings.format }
  let run : Run m String := do
    ctx.log [.debug (programName ++ " " ++ programVersion
      ++ " (message format " ++ ctx.format.label ++ ")")]
    execute files ctx request.command
  match ← run.run.run warning with
  | (.ok stdout, stderr) => return ⟨0, stdout, stderr⟩
  | (.error status, stderr) => return ⟨status, "", stderr⟩

/-- Answers the arguments of the program. -/
def run (files : FileAccess m) (env : Environment) (args : List String) : m Outcome :=
  match CommandLine.read args with
  | .ok request => perform files env request
  | .error (.help topic) => return { status := 0, stdout := CommandLine.helpText topic }
  | .error .version => return { status := 0, stdout := programName ++ " " ++ programVersion ++ "\n" }
  | .error .misuse => return { status := 2, stderr := CommandLine.usageText }

end

end MysToCpp.Program
