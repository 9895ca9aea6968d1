/-
# Diagnostics as text

A diagnostic is shown in four lines: the file and the line, the text of that line, a mark under the
column, and the kind with the message.
-/
import MysToCpp.Diagnostic.Basic
import MysToCpp.Source.File

namespace MysToCpp

/-- How diagnostics are shown. -/
structure TextStyle where
  colors : Bool := false
  /-- The mark under the column. -/
  mark : Char := '^'
  deriving DecidableEq, Repr, Inhabited

/-- A text in a terminal style, if colors are on. -/
def TextStyle.paint (style : TextStyle) (code text : String) : String :=
  if style.colors then "\x1b[" ++ code ++ "m" ++ text ++ "\x1b[0m" else text

/-- The four lines of a diagnostic; a line that the file does not have is shown empty. -/
def Diagnostic.renderIn (style : TextStyle) (d : Diagnostic) (file : SourceFile) : String :=
  let line := d.span.start.line
  let text := String.ofList ((file.lineText? line).getD [])
  let mark := String.ofList (List.replicate (d.span.start.column - 1) ' ' ++ [style.mark])
  "  File \"" ++ file.name ++ "\", line " ++ toString line ++ "\n" ++
    "    " ++ text ++ "\n" ++
    "    " ++ style.paint "31" mark ++ "\n" ++
    style.paint "1" d.kind.label ++ ": " ++ d.message

/-- The four lines of a diagnostic without colors. -/
def Diagnostic.render (d : Diagnostic) (file : SourceFile) : String := d.renderIn {} file

end MysToCpp
