/-
# Help

The texts that the program shows when it is asked for help, and when its arguments make no request.
-/
import MysToCpp.Command.Line

namespace MysToCpp.CommandLine

/-- Lines with a line end behind each. -/
def linesText (ls : List String) : String := String.join (ls.map (· ++ "\n"))

/-- The options that all commands have. -/
def sharedOptions : List String :=
  ["  -v, --verbose                  Enable verbose output",
   "      --message-format <FORMAT>  Diagnostic format: text or json",
   "  -h, --help                     Print help"]

/-- The help about the program, or about a command. -/
def helpText : Option Topic → String
  | none => linesText (
      ["mysc", "", "Usage: mysc [OPTIONS] <COMMAND>", "", "Commands:",
       "  transpile  Translate a mys source file into C++",
       "  check      Report diagnostics without writing output",
       "  version    Print version information",
       "  help       Print this message or the help of the given subcommand(s)",
       "", "Options:"]
      ++ sharedOptions ++ ["  -V, --version                  Print version"])
  | some .transpile => linesText (
      ["Translate a mys source file into C++", "", "Usage: mysc transpile [OPTIONS] <FILE>", "",
       "Arguments:", "  <FILE>  Source file to translate", "", "Options:",
       "  -o, --output <OUT>             Output file (defaults to the input with the configured extension)"]
      ++ sharedOptions)
  | some .check => linesText (
      ["Report diagnostics without writing output", "", "Usage: mysc check [OPTIONS] <FILE>", "",
       "Arguments:", "  <FILE>  Source file to check", "", "Options:"]
      ++ sharedOptions)
  | some .version => linesText (
      ["Print version information", "", "Usage: mysc version [OPTIONS]", "", "Options:"]
      ++ sharedOptions)

/-- What is shown about arguments that make no request. -/
def usageText : String :=
  linesText ["Usage: mysc [OPTIONS] <COMMAND>", "", "For more information, try '--help'."]

end MysToCpp.CommandLine
