import MysToCpp.Command.Help
import MysToCpp.Command.Line
import MysToCpp.Command.Run
import MysToCpp.Cpp.Error
import MysToCpp.Cpp.Expr
import MysToCpp.Cpp.Literal
import MysToCpp.Cpp.Module
import MysToCpp.Cpp.Stmt
import MysToCpp.Cpp.TypeName
import MysToCpp.Decimal.Binary64
import MysToCpp.Decimal.Read
import MysToCpp.Decimal.Shortest
import MysToCpp.Decimal.Style
import MysToCpp.Diagnostic.Basic
import MysToCpp.Diagnostic.Json
import MysToCpp.Diagnostic.Text
import MysToCpp.Files.Access
import MysToCpp.Files.Path
import MysToCpp.Files.Tree
import MysToCpp.Log.Basic
import MysToCpp.Log.TokenName
import MysToCpp.Log.Transpile
import MysToCpp.Main
import MysToCpp.Parser.Basic
import MysToCpp.Parser.Clause
import MysToCpp.Parser.Expression
import MysToCpp.Parser.Operand
import MysToCpp.Parser.Precedence
import MysToCpp.Parser.Simple
import MysToCpp.Parser.Statement
import MysToCpp.Settings
import MysToCpp.Source.File
import MysToCpp.Source.Position
import MysToCpp.Text.Blank
import MysToCpp.Text.Identifier
import MysToCpp.Text.Lines
import MysToCpp.Text.Quoted
import MysToCpp.Text.Ranges
import MysToCpp.Text.Split
import MysToCpp.Text.Unicode
import MysToCpp.Token.Basic
import MysToCpp.Token.Cursor
import MysToCpp.Token.Error
import MysToCpp.Token.Layout
import MysToCpp.Token.Lexer
import MysToCpp.Token.Number
import MysToCpp.Token.StringLiteral
import MysToCpp.Token.Word
import MysToCpp.Toml.Document
import MysToCpp.Toml.Number
import MysToCpp.Toml.Reader
import MysToCpp.Toml.Table
import MysToCpp.Toml.Text
import MysToCpp.Transpile
import MysToCpp.Tree.Expr
import MysToCpp.Tree.Operator
import MysToCpp.Tree.Stmt
import MysToCpp.Proofs.Parser.Kept
import MysToCpp.Proofs.Parser.Logic
import MysToCpp.Proofs.Parser.Expressions
import MysToCpp.Proofs.Parser.SimpleStatements
import MysToCpp.Proofs.Parser.Statements
import MysToCpp.Proofs.Parser.Discipline
import MysToCpp.Proofs.Parser.Printer
import MysToCpp.Proofs.Parser.RoundTrip
import MysToCpp.Proofs.Source.Slice
import MysToCpp.Proofs.Text.Digits
import MysToCpp.Proofs.Token.Cursor
import MysToCpp.Proofs.Token.Scan
import MysToCpp.Proofs.Token.Gap
import MysToCpp.Proofs.Token.Step
import MysToCpp.Proofs.Token.Next
import MysToCpp.Proofs.Token.Run
import MysToCpp.Proofs.Token.Lossless
import MysToCpp.Proofs.Token.LaidOut
import MysToCpp.Proofs.Token.Reading
import MysToCpp.Proofs.Token.Spelling
import MysToCpp.Proofs.Cpp.Arithmetic
import MysToCpp.Proofs.Cpp.Quoted
import MysToCpp.Proofs.Cpp.Readable
import MysToCpp.Proofs.Source.Place
import MysToCpp.Proofs.Token.Located
import MysToCpp.Proofs.Tree.Node
import MysToCpp.Proofs.Tree.Within
import MysToCpp.Proofs.Cpp.Blamed
import MysToCpp.Proofs.Diagnostics
import MysToCpp.Proofs.Token.Given
import MysToCpp.Proofs.Parsed
import MysToCpp.Proofs.Cpp.Tidy
import MysToCpp.Proofs.Cpp.TidyExpressions
import MysToCpp.Proofs.Cpp.TidyStatements
import MysToCpp.Proofs.Lowered
import MysToCpp.Proofs.Cpp.Assembly
import MysToCpp.Proofs.Tree.Seen
import MysToCpp.Proofs.Cpp.Unread
import MysToCpp.Proofs.Token.Variation
import MysToCpp.Proofs.Token.SameScan
import MysToCpp.Proofs.Token.SameStrings
import MysToCpp.Proofs.Token.Finds
import MysToCpp.Proofs.Token.SameGaps
import MysToCpp.Proofs.Token.Alike
import MysToCpp.Proofs.Token.LineEnds
import MysToCpp.Proofs.Token.BlankLines
import MysToCpp.Proofs.Token.SpelledLine
import MysToCpp.Proofs.Token.Written
import MysToCpp.Proofs.Token.Numerals
import MysToCpp.Proofs.Token.NumeralWords
import MysToCpp.Proofs.Token.Floats
import MysToCpp.Proofs.Token.Bytes
import MysToCpp.Proofs.Token.NumberEnds
import MysToCpp.Proofs.Token.Verbatim
import MysToCpp.Proofs.Cpp.LiteralBytes
import MysToCpp.Proofs.Parser.SideBySide
import MysToCpp.Proofs.Parser.Parenthesized
import MysToCpp.Proofs.Cpp.TypeTree
import MysToCpp.Proofs.Source.Lookup
import MysToCpp.Proofs.Cpp.EntryPoint
import MysToCpp.Proofs.Cpp.SpecialNames
import MysToCpp.Proofs.Cpp.ContainerParams
import MysToCpp.Proofs.Cpp.ParamTypes
import MysToCpp.Proofs.Cpp.ReadableTypes
import MysToCpp.Proofs.Text.Margin
import MysToCpp.Proofs.Source.Lines
import MysToCpp.Proofs.Token.Faults
import MysToCpp.Proofs.Rendered
import MysToCpp.Proofs.Token.OpenBlocks
import MysToCpp.Proofs.Token.Halting
import MysToCpp.Proofs.Parser.Progress
import MysToCpp.Proofs.Text.Levels
import MysToCpp.Proofs.Cpp.FinallyBlocks
