/-
# The program

Runs the program on the files, the environment and the streams of the machine.
-/
import MysToCpp.Command.Run

namespace MysToCpp

/-- The fault of an operation on the files of the machine. -/
def FileFault.ofError : IO.Error → FileFault
  | .noFileOrDirectory .. => .notFound
  | .alreadyExists .. => .alreadyExists
  | .inappropriateType _ code details =>
    if code = 20 || code = -20 then .notDirectory
    else if code = 21 || code = -21 then .isDirectory
    else .other details
  | e => .other (toString e)

/-- An operation on the files of the machine, with its fault as a value. -/
def attempt {α : Type} (action : IO α) : IO (Except FileFault α) := do
  match ← action.toBaseIO with
  | .ok a => return .ok a
  | .error e => return .error (.ofError e)

/-- The operations on the files of the machine. -/
def machineFiles : FileAccess IO where
  readText path := do
    match ← attempt (IO.FS.readBinFile path) with
    | .error fault => return .error fault
    | .ok content =>
      match String.fromUTF8? content with
      | some text => return .ok text
      | none => return .error .notText
  isThere path := do
    match ← attempt (IO.FS.realPath path) with
    | .ok _ => return true
    | .error _ => return false
  isDirectory path := do
    match ← attempt (IO.FS.realPath path) with
    | .ok place => place.isDir
    | .error _ => return false
  makeDirectory path := attempt (IO.FS.createDir path)
  writeText path text := attempt (IO.FS.writeFile path text)

/-- The variables that the program asks for, as far as they are set. -/
def machineEnvironment : IO Program.Environment := do
  let names := ["XDG_CONFIG_HOME", "HOME", "APPDATA"]
  let values ← names.mapM fun name => do return (← IO.getEnv name).map fun value => (name, value)
  return values.filterMap id

end MysToCpp

/-- Answers the arguments, writes to the two streams and exits with the status. -/
def main (args : List String) : IO UInt32 := do
  let outcome ← MysToCpp.Program.run MysToCpp.machineFiles (← MysToCpp.machineEnvironment) args
  (← IO.getStdout).putStr outcome.stdout
  (← IO.getStderr).putStr outcome.stderr
  return outcome.status.toUInt32
