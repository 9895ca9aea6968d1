/-
# Files in memory

A `FileTree` holds directories and files by the names that lead to them from the root, and has a working
directory, which paths without a slash at the front start from.  `FileTree.access` gives the operations
on it.
-/
import MysToCpp.Files.Access

namespace MysToCpp

/-- A file with its bytes, or a directory. -/
inductive FileEntry where
  | file (content : List UInt8)
  | directory
  deriving DecidableEq, Inhabited

/-- The names that lead to an entry from the root. -/
abbrev Location := List String

/-- Files and directories. -/
structure FileTree where
  entries : List (Location × FileEntry)
  workingDirectory : Location
  deriving DecidableEq, Inhabited

namespace FileTree

/-- The entry at a place; the root is a directory. -/
def entry? (tree : FileTree) (place : Location) : Option FileEntry :=
  if place.isEmpty then some .directory else tree.entries.lookup place

/-- The tree with an entry at a place, in front of an older one. -/
def put (tree : FileTree) (place : Location) (entry : FileEntry) : FileTree :=
  { tree with entries := (place, entry) :: tree.entries.filter (·.1 ≠ place) }

/-- The tree with a directory at a place, and at those that it lies in. -/
def putDirectory (tree : FileTree) (place : Location) : FileTree :=
  (List.range place.length).foldl (fun t n =>
    let above := place.take (n + 1)
    match t.entry? above with
    | some _ => t
    | none => t.put above .directory) tree

/-- The tree with a file at a place, and the directories that it lies in. -/
def putFile (tree : FileTree) (place : Location) (content : List UInt8) : FileTree :=
  (tree.putDirectory place.dropLast).put place (.file content)

/-- The directory that pieces of a path lead to from `here`. -/
def enter (tree : FileTree) (here : Location) : List (List Char) → Except FileFault Location
  | [] => .ok here
  | piece :: rest =>
    if Path.isIdle piece then enter tree here rest
    else if Path.isUp piece then enter tree here.dropLast rest
    else
      let place := here ++ [String.ofList piece]
      match tree.entry? place with
      | none => .error .notFound
      | some (.file _) => .error .notDirectory
      | some .directory => enter tree place rest

/-- Where a path leads. -/
inductive Target where
  | directory (place : Location)
  /-- A name in a directory, and whether a slash follows it. -/
  | name (place : Location) (slash : Bool)

/-- Where a path leads, as far as all but its last name is there. -/
def target (tree : FileTree) (path : String) : Except FileFault Target :=
  if path.isEmpty then .error .notFound
  else if path.toList.contains '\x00' then .error .zeroInPath
  else
    let ps := Path.pieces path
    let start := if ps.head? = some [] then [] else tree.workingDirectory
    let (slashes, rest) := ps.reverse.span List.isEmpty
    match rest with
    | [] => .ok (.directory [])
    | last :: front => do
      let here ← tree.enter start front.reverse
      if Path.isIdle last then .ok (.directory here)
      else if Path.isUp last then .ok (.directory here.dropLast)
      else .ok (.name (here ++ [String.ofList last]) (!slashes.isEmpty))

def find (tree : FileTree) (path : String) : Except FileFault FileEntry := do
  match ← tree.target path with
  | .directory _ => .ok .directory
  | .name place slash =>
    match tree.entry? place with
    | none => .error .notFound
    | some (.file content) => if slash then .error .notDirectory else .ok (.file content)
    | some .directory => .ok .directory

def readText (tree : FileTree) (path : String) : Except FileFault String := do
  match ← tree.find path with
  | .directory => .error .isDirectory
  | .file content =>
    match String.fromUTF8? ⟨content.toArray⟩ with
    | some text => .ok text
    | none => .error .notText

def isThere (tree : FileTree) (path : String) : Bool := (tree.find path).isOk

def isDirectory (tree : FileTree) (path : String) : Bool :=
  match tree.find path with
  | .ok .directory => true
  | _ => false

def writeText (tree : FileTree) (path text : String) : Except FileFault FileTree := do
  match ← tree.target path with
  | .directory _ => .error .isDirectory
  | .name place slash =>
    if slash || tree.entry? place = some .directory then .error .isDirectory
    else .ok (tree.put place (.file text.toUTF8.toList))

def makeDirectory (tree : FileTree) (path : String) : Except FileFault FileTree := do
  match ← tree.target path with
  | .directory _ => .error .alreadyExists
  | .name place _ =>
    match tree.entry? place with
    | some _ => .error .alreadyExists
    | none => .ok (tree.put place .directory)

/-- Keeps the tree that an operation makes, or the old one with its fault. -/
def keep (change : FileTree → Except FileFault FileTree) : StateM FileTree (Except FileFault Unit) :=
  modifyGet fun tree =>
    match change tree with
    | .ok changed => (.ok (), changed)
    | .error fault => (.error fault, tree)

/-- The operations on files in memory. -/
def access : FileAccess (StateM FileTree) where
  readText path := do return (← get).readText path
  isThere path := do return (← get).isThere path
  isDirectory path := do return (← get).isDirectory path
  makeDirectory path := keep (·.makeDirectory path)
  writeText path text := keep (·.writeText path text)

end FileTree

end MysToCpp
