/-
# The log of a run

`transpileEvents` gives what the program tells while it looks for the C++ text of a file: each stage
announces its work, and tells its result if it has one.  The tokens and the prototypes found before an
error are told too.
-/
import MysToCpp.Log.Basic
import MysToCpp.Log.TokenName
import MysToCpp.Transpile

namespace MysToCpp

namespace LogEvent

def debug (message : String) : LogEvent := ⟨.debug, message⟩

def trace (message : String) : LogEvent := ⟨.trace, message⟩

def ofToken (t : Token) : LogEvent := .trace (t.kind.shown ++ " at " ++ t.span.start.render)

end LogEvent

open LogEvent (debug trace ofToken)

/-- The prototype of a statement that is a function with a C++ signature. -/
def prototype? : Stmt → Option String
  | .functionDef _ f =>
    if f.isAsync || !f.decorators.isEmpty then none
    else match Cpp.signature f with
      | .ok sig => some sig.prototype
      | .error _ => none
  | _ => none

/-- The events of the prototypes up to the first statement without a C++ form. -/
def prototypeEvents : List Stmt → List LogEvent
  | [] => []
  | stmt :: rest =>
    let told := (prototype? stmt).toList.map fun p => trace ("Forward declaration: " ++ p)
    match Cpp.declare stmt with
    | .ok _ => told ++ prototypeEvents rest
    | .error _ => told

/-- The events of looking for the C++ text of a module. -/
def translateEvents (m : Module) : List LogEvent :=
  debug ("Translating module with " ++ toString m.body.length ++ " statements")
    :: prototypeEvents m.body
    ++ match Cpp.declarations m.body with
      | .ok ds => [debug ("Emitted " ++ toString ds.length ++ " declarations, "
          ++ toString (Cpp.prototypes ds).length ++ " forward declarations")]
      | .error _ => []

/-- The events of reading tokens as a module, and of what comes of it. -/
def parseEvents (tokens : List Token) : List LogEvent :=
  match parseTokens tokens with
  | .ok m =>
    debug ("Parsing successful, got " ++ toString m.body.length ++ " statements") :: translateEvents m
  | .error _ => []

/-- The events of looking for the C++ text of a file. -/
def transpileEvents [Text.IdentifierTable] (file : SourceFile) : List LogEvent :=
  let size := toString (byteLength file.content.toList)
  [debug ("Transpiling " ++ file.name), debug ("Parsing source code (" ++ size ++ " bytes)"),
    debug ("Tokenizing " ++ size ++ " bytes")]
    ++ (Lexer.run file.content).1.map ofToken
    ++ match tokenize file.content with
      | .ok tokens =>
        let told := debug ("Tokenized into " ++ toString tokens.length ++ " tokens")
        told :: told :: parseEvents tokens
      | .error _ => []

end MysToCpp
