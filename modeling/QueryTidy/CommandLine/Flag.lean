import QueryTidy.Text.Control
import QueryTidy.Text.Digits

/-!
The flags of the command line, which of them each command knows, and the ways in which a command
line can be wrong.
-/

set_option autoImplicit false
set_option relaxedAutoImplicit false

namespace QueryTidy.CommandLine

inductive Flag
  | config
  | verbose
  | outputFormat
  | noColor
  | write
  | debounce
  | printDocument
  | help
  | version
deriving DecidableEq

namespace Flag

def long : Flag → Text
  | config => "config".toList
  | verbose => "verbose".toList
  | outputFormat => "output-format".toList
  | noColor => "no-color".toList
  | write => "write".toList
  | debounce => "debounce-ms".toList
  | printDocument => "print-document".toList
  | help => "help".toList
  | version => "version".toList

def short? : Flag → Option Char
  | verbose => some 'v'
  | outputFormat => some 'f'
  | write => some 'w'
  | help => some 'h'
  | version => some 'V'
  | _ => none

/-- What a flag calls its value, if it takes one. -/
def value? : Flag → Option Text
  | config => some "CONFIG".toList
  | outputFormat => some "OUTPUT_FORMAT".toList
  | debounce => some "DEBOUNCE_MS".toList
  | _ => none

def label (f : Flag) : Text :=
  "--".toList ++ f.long ++
    match f.value? with
    | some name => " <".toList ++ name ++ ['>']
    | none => if f = verbose then "...".toList else []

end Flag

inductive Verb
  | check
  | format
  | live
deriving DecidableEq

namespace Verb

def all : List Verb :=
  [check, format, live]

def name : Verb → Text
  | check => "check".toList
  | format => "format".toList
  | live => "live".toList

def about : Verb → Text
  | check => "Report misspelled keywords and common syntax mistakes".toList
  | format => "Reformat a query into a keyword-aligned layout".toList
  | live => "Emulated editor: each stdin line is an edit, findings follow pauses".toList

end Verb

/-- A level of the command line: before the command, or behind it. -/
inductive Scope
  | program
  | verb (v : Verb)
deriving DecidableEq

namespace Scope

def flags : Scope → List Flag
  | program => [.config, .verbose, .help, .version]
  | verb .check => [.outputFormat, .noColor, .config, .verbose, .help]
  | verb .format => [.write, .config, .verbose, .help]
  | verb .live => [.debounce, .printDocument, .noColor, .config, .verbose, .help]

def about : Scope → Text
  | program => "Heuristic SQL keyword spell-checker, syntax linter and formatter".toList
  | verb v => v.about

/-- How messages show the arguments that are not flags, if a level takes any. -/
def positional? : Scope → Option Text
  | verb .check => some "<PATHS>...".toList
  | verb .format => some "<PATH>".toList
  | _ => none

end Scope

inductive UsageFault
  | unknownArgument (argument : Text)
  | unknownCommand (argument : Text)
  | missingCommand
  | nothingGiven
  | help (about : Text)
  | version
  | missingArguments
  | repeated (label : Text)
  | missingValue (label : Text)
  | invalidValue (value label : Text)
  | invalidNumber (value label : Text) (fault : Text.NumberFault)
  | unwantedValue (value label : Text)
deriving DecidableEq

namespace UsageFault

def quote (argument : Text) : Text :=
  '\'' :: Text.withoutControls argument ++ ['\'']

def wording : UsageFault → Text
  | unknownArgument argument =>
    "error: unexpected argument ".toList ++ quote argument ++ " found".toList
  | unknownCommand argument => "error: unrecognized subcommand ".toList ++ quote argument
  | missingCommand =>
    "error: 'sql-query-helper' requires a subcommand but one was not provided".toList
  | nothingGiven => Scope.program.about
  | help about => about
  | version => "sql-query-helper 0.1.0".toList
  | missingArguments => "error: the following required arguments were not provided:".toList
  | repeated label =>
    "error: the argument '".toList ++ label ++ "' cannot be used multiple times".toList
  | missingValue label =>
    "error: a value is required for '".toList ++ label ++ "' but none was supplied".toList
  | invalidValue value label =>
    "error: invalid value ".toList ++ quote value ++ " for '".toList ++ label ++ ['\'']
  | invalidNumber value label fault =>
    "error: invalid value ".toList ++ quote value ++ " for '".toList ++ label ++ "': ".toList ++
      fault.message
  | unwantedValue value label =>
    "error: unexpected value ".toList ++ quote value ++ " for '".toList ++ label ++
      "' found; no more were expected".toList

def message (fault : UsageFault) : Text :=
  (Text.lines fault.wording).headD []

/-- Whether printing the message is what was asked for. -/
def isAnswer : UsageFault → Bool
  | help _ | version => true
  | _ => false

end UsageFault

end QueryTidy.CommandLine
