import TickMachine.CommandLine.Arguments
import TickMachine.Json.Value

/-! # Wording

The texts of a command line that are not its own: those of the libraries that read arguments and
JSON, and the date of the build. The command line is given them and passes them on. -/

namespace TickMachine.CommandLine

/-- Texts that the command line passes on. -/
structure Wording where
  /-- The complaint about arguments. -/
  usage : (arguments : List String) → UsageError → String
  /-- The help that arguments ask for. -/
  help : (arguments : List String) → String
  /-- The date of the build. -/
  buildDate : String
  /-- What the JSON reader says about a text that it refuses. -/
  json : (text : String) → Json.Failure → String

namespace Wording

/-- A usage error in plain words. -/
def plainUsage : UsageError → String
  | .unexpectedArgument argument => s!"unexpected argument '{argument}' found"
  | .missingValue option => s!"a value is required for '{option}' but none was supplied"
  | .invalidValue option value => s!"invalid value '{value}' for '{option}'"
  | .repeatedOption option => s!"the argument '{option}' cannot be used multiple times"
  | .missingFile name => s!"the argument '{name}' was not provided"
  | .unknownCommand name => s!"unrecognized subcommand '{name}'"
  | .missingCommand => "a subcommand is required but none was given"

/-- The commands and the options in plain words. -/
def plainHelp : String :=
  "Assembler and emulator for the drum CPU\n\n" ++
    "Usage: drum [OPTIONS] <COMMAND>\n\n" ++
    "Commands:\n" ++
    "  assemble <INPUT> <OUTPUT>    Assemble a source file into a compiled program\n" ++
    "  run <COMPILED> <INPUT>       Execute a compiled program\n\n" ++
    "Options:\n" ++
    "      --log-level <LEVEL>      Least level of the messages on standard error\n" ++
    "  -h, --help                   Print help\n" ++
    "  -V, --version                Print version\n\n" ++
    "Options of run:\n" ++
    "  -O, --output-format <FORMAT> How to print what the program wrote\n" ++
    "      --step-limit <N>         Give up after this many instructions\n" ++
    "      --memory-scale <N>       Memory size as a multiple of the program length\n"

/-- A JSON failure in plain words. -/
def plainJson : Json.Failure → String
  | .truncated => "the text ends too early"
  | .malformed => "the text is not JSON"
  | .mismatched => "the text is not of the expected shape"

/-- Plain words in the place of the libraries' texts, for a build that goes without them and keeps
no date. -/
def plain : Wording where
  usage _ error := s!"error: {plainUsage error}\n"
  help _ := plainHelp
  buildDate := "unknown"
  json _ failure := plainJson failure

end Wording

end TickMachine.CommandLine
