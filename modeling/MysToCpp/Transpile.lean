/-
# From source text to C++

`parseSource` reads a text as a module, and `transpile` gives the C++ text of it.  An error is reported
as a diagnostic, shown against the source text, or as a broken rule without a place.
-/
import MysToCpp.Cpp.Module
import MysToCpp.Diagnostic.Text
import MysToCpp.Parser.Statement
import MysToCpp.Token.Lexer

namespace MysToCpp

def programName : String := "mysc"

def programVersion : String := "0.1.0"

/-- Why a text has no C++ form. -/
inductive TranspileError where
  /-- Something at a place in the text, and how it is shown. -/
  | diagnostic (what : Diagnostic) (rendered : String)
  | misdeclared (what : Misdeclared)
  deriving DecidableEq, Repr, Inhabited

def TranspileError.message : TranspileError → String
  | diagnostic _ rendered => rendered
  | misdeclared what => what.message

/-- A diagnostic with how it is shown. -/
def TranspileError.ofDiagnostic (file : SourceFile) (d : Diagnostic) : TranspileError :=
  .diagnostic d (d.render file)

/-- The error of a module without a C++ form. -/
def TranspileError.ofLowering (file : SourceFile) : LoweringError → TranspileError
  | .unsupported what span => ofDiagnostic file ⟨.languageError, what.message, span⟩
  | .misdeclared what => .misdeclared what

variable [Text.IdentifierTable]

/-- The module that a text spells. -/
def parseSource (source : String) : Except SourceError Module :=
  match tokenize source with
  | .error e => .error (.lexical e)
  | .ok tokens =>
    match parseTokens tokens with
    | .error e => .error (.grammatical e)
    | .ok m => .ok m

/-- The C++ text of a module; the file is the one that errors are shown in. -/
def transpileModule (m : Module) (file : SourceFile) : Except TranspileError String :=
  (Cpp.translate m).mapError (.ofLowering file)

/-- The C++ text of a file. -/
def transpile (file : SourceFile) : Except TranspileError String :=
  match parseSource file.content with
  | .error e => .error (.ofDiagnostic file e.diagnostic)
  | .ok m => transpileModule m file

end MysToCpp
