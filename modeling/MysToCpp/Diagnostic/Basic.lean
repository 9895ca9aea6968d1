/-
# Diagnostics

What is reported about a source text: a kind, a message and a place.  Lexical and parse errors are of
the kind `syntaxError`, and constructs without a C++ form of the kind `languageError`.
-/
import MysToCpp.Cpp.Error
import MysToCpp.Parser.Basic
import MysToCpp.Token.Error

namespace MysToCpp

inductive DiagnosticKind where
  | syntaxError
  | languageError
  deriving DecidableEq, Repr, Inhabited

def DiagnosticKind.label : DiagnosticKind → String
  | syntaxError => "SyntaxError"
  | languageError => "LanguageError"

/-- Something to report about a source text. -/
structure Diagnostic where
  kind : DiagnosticKind
  message : String
  span : Span
  deriving DecidableEq, Repr, Inhabited

/-- A diagnostic in one line: `line:column: kind: message`. -/
def Diagnostic.summary (d : Diagnostic) : String :=
  d.span.start.render ++ ": " ++ d.kind.label ++ ": " ++ d.message

/-- Why a text is no program. -/
inductive SourceError where
  | lexical (error : LexError)
  | grammatical (error : ParseError)
  deriving DecidableEq, Repr, Inhabited

/-- The diagnostic of a text that is no program. -/
def SourceError.diagnostic : SourceError → Diagnostic
  | lexical e => ⟨.syntaxError, e.message, e.span⟩
  | grammatical e => ⟨.syntaxError, e.message, e.span⟩

end MysToCpp
