/-
# Access to files

What the program does with files, as a record of operations, so that it runs on the files of a machine
and on a `FileTree` alike.  `FileAccess.makeDirectories` is made of these operations.
-/
import MysToCpp.Files.Path

namespace MysToCpp

/-- Why an operation on files fails. -/
inductive FileFault where
  | notFound
  | notDirectory
  | isDirectory
  | alreadyExists
  /-- The content of a file is not in UTF-8. -/
  | notText
  /-- A path has the character with the code zero. -/
  | zeroInPath
  /-- The root cannot be made. -/
  | noParent
  | other (text : String)
  deriving DecidableEq, Repr, Inhabited

def FileFault.message : FileFault → String
  | notFound => "No such file or directory (os error 2)"
  | notDirectory => "Not a directory (os error 20)"
  | isDirectory => "Is a directory (os error 21)"
  | alreadyExists => "File exists (os error 17)"
  | notText => "stream did not contain valid UTF-8"
  | zeroInPath => "file name contained an unexpected NUL byte"
  | noParent => "failed to create whole tree"
  | other text => text

/-- The operations on files that the program needs. -/
structure FileAccess (m : Type → Type) where
  /-- The text of a file. -/
  readText : String → m (Except FileFault String)
  /-- Whether a path leads to a file or a directory. -/
  isThere : String → m Bool
  /-- Whether a path leads to a directory. -/
  isDirectory : String → m Bool
  /-- Makes a directory in one that is there. -/
  makeDirectory : String → m (Except FileFault Unit)
  /-- Gives a file a new text. -/
  writeText : String → String → m (Except FileFault Unit)

namespace FileAccess

variable {m : Type → Type} [Monad m]

/-- Makes a directory, which may be there already. -/
def needDirectory (files : FileAccess m) (path : String) : m (Except FileFault Unit) := do
  match ← files.makeDirectory path with
  | .ok () => return .ok ()
  | .error fault => if ← files.isDirectory path then return .ok () else return .error fault

/-- Makes a directory, and first the one it lies in if that is missing, up to `depth` levels.  What was
made before a fault stays. -/
def makeDirectoriesUpTo (files : FileAccess m) : Nat → String → m (Except FileFault Unit)
  | 0, _ => return .error .noParent
  | depth + 1, path => do
    if path.isEmpty then return .ok ()
    match ← files.needDirectory path with
    | .error .notFound =>
      match Path.parent? path with
      | none => return .error .noParent
      | some parent =>
        match ← makeDirectoriesUpTo files depth parent with
        | .ok () => files.needDirectory path
        | .error fault => return .error fault
    | result => return result

/-- Makes a directory and those it lies in, as far as they are missing.  There are fewer of them than
characters in its path. -/
def makeDirectories (files : FileAccess m) (path : String) : m (Except FileFault Unit) :=
  files.makeDirectoriesUpTo (path.length + 1) path

end FileAccess

end MysToCpp
