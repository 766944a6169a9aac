import CallFlow.Cli.Argument
import CallFlow.Text.Similarity

/-!
How the program is called, and what is said when it is called wrongly.
-/
namespace CallFlow.Cli

open CallFlow.Text

def programName : String := "pyseq"

def programVersion : String := "0.1.0"

def usage (used : List Argument) : String :=
  let options := if used.isEmpty then ["[OPTIONS]"]
    else (used.filter (· != .input)).map Argument.display
  "Usage: " ++ " ".intercalate ([programName] ++ options ++ [Argument.input.display])

inductive UsageError where
  /-- An unknown name or one value too many. Perhaps `similar` was meant, or the argument was meant as a
  value, which two dashes before it would show. -/
  | unexpected (argument : String) (similar : Option String) (asValue : Bool) (used : List Argument)
  | noValue (argument : Argument)
  | invalidValue (argument : Argument) (value : String)
  | valueOfFlag (argument : Argument) (value : String) (used : List Argument)
  | repeated (argument : Argument)
  | invalidText
  | noInput (used : List Argument)
deriving DecidableEq, Repr, Inhabited

namespace UsageError

def choicesLine (a : Argument) : String :=
  if a.choices.isEmpty then ""
  else "\n  [possible values: " ++ ", ".intercalate a.choices ++ "]"

def tips (ts : List String) : String :=
  if ts.isEmpty then "" else "\n" ++ String.join (ts.map fun t => "\n  tip: " ++ t)

def text : UsageError → String
  | unexpected argument similar asValue used =>
    let similar := similar.toList.map fun name => "a similar argument exists: '--" ++ name ++ "'"
    let asValue := if asValue then
      ["to pass '" ++ argument ++ "' as a value, use '-- " ++ argument ++ "'"] else []
    "unexpected argument '" ++ argument ++ "' found" ++ tips (similar ++ asValue) ++ "\n\n" ++
      usage used
  | noValue argument =>
    "a value is required for '" ++ argument.display ++ "' but none was supplied" ++
      choicesLine argument
  | invalidValue argument value =>
    let similar := (mostSimilar? value argument.choices).toList.map fun choice =>
      "a similar value exists: '" ++ choice ++ "'"
    let what := if value.isEmpty then
        "a value is required for '" ++ argument.display ++ "' but none was supplied"
      else "invalid value '" ++ value ++ "' for '" ++ argument.display ++ "'"
    what ++ choicesLine argument ++ tips similar
  | valueOfFlag argument value used =>
    "unexpected value '" ++ value ++ "' for '" ++ argument.display ++
      "' found; no more were expected\n\n" ++ usage used
  | repeated argument =>
    "the argument '" ++ argument.display ++ "' cannot be used multiple times\n\n" ++ usage []
  | invalidText => "invalid UTF-8 was detected in one or more arguments\n\n" ++ usage []
  | noInput used =>
    "the following required arguments were not provided:\n  " ++ Argument.input.display ++ "\n\n" ++
      usage (used ++ [.input])

def message (e : UsageError) : String :=
  "error: " ++ e.text ++ "\n\nFor more information, try '--help'."

end UsageError

def longHelp : String := "\n".intercalate [
  "Renders the call flow of a Python module as sequence diagram lines",
  "",
  usage [],
  "",
  "Arguments:",
  "  <INPUT>",
  "          Python source file to analyse",
  "",
  "Options:",
  "  -o, --output <PATH>",
  "          Where to write the diagram lines. Defaults to `<INPUT>.txt`",
  "",
  "      --log-filter <FILTER>",
  "          Tracing filter directive for diagnostics on stderr",
  "          ",
  "          [default: warn]",
  "",
  "      --log-format <LOG_FORMAT>",
  "          Diagnostic output format",
  "",
  "          Possible values:",
  "          - compact: Human-readable single line output",
  "          - json:    Structured JSON suitable for ingestion by logging stacks",
  "          ",
  "          [default: compact]",
  "",
  "      --on-unresolved <ON_UNRESOLVED>",
  "          What to do when the main function calls an undefined function",
  "",
  "          Possible values:",
  "          - truncate: Stop listing the main function's calls at the unresolved callee",
  "          - continue: Keep listing the main function's calls",
  "          ",
  "          [default: truncate]",
  "",
  "  -h, --help",
  "          Print help (see a summary with '-h')",
  "",
  "  -V, --version",
  "          Print version",
  ""]

def shortHelp : String := "\n".intercalate [
  "Renders the call flow of a Python module as sequence diagram lines",
  "",
  usage [],
  "",
  "Arguments:",
  "  <INPUT>  Python source file to analyse",
  "",
  "Options:",
  "  -o, --output <PATH>                  Where to write the diagram lines. Defaults to " ++
    "`<INPUT>.txt`",
  "      --log-filter <FILTER>            Tracing filter directive for diagnostics on stderr " ++
    "[default: warn]",
  "      --log-format <LOG_FORMAT>        Diagnostic output format [default: compact] " ++
    "[possible values: compact, json]",
  "      --on-unresolved <ON_UNRESOLVED>  What to do when the main function calls an undefined " ++
    "function [default: truncate] [possible values: truncate, continue]",
  "  -h, --help                           Print help (see more with '--help')",
  "  -V, --version                        Print version",
  ""]

def versionText : String := programName ++ " " ++ programVersion ++ "\n"

end CallFlow.Cli
