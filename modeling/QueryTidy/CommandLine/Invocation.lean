import QueryTidy.CommandLine.Flag
import QueryTidy.Report.Render

/-!
Reading a command line, argument by argument. A flag that takes a value may have it attached or in
the next argument; until then the flag is open, and it is settled when the next flag or argument
begins or the line ends. What is wrong first in this order is what is reported.
-/

set_option autoImplicit false
set_option relaxedAutoImplicit false

namespace QueryTidy.CommandLine

/-- What has begun and is not yet settled: a flag that takes a value, or a series of arguments. -/
inductive Open
  | flag (f : Flag) (value : Option Text)
  | arguments (values : List Text)
deriving DecidableEq

/-- What one level of the command line has said so far. -/
structure Given where
  config : Option Text := none
  verbose : Option Nat := none
  format : Option Report.Format := none
  noColor : Bool := false
  write : Bool := false
  debounce : Option Nat := none
  printDocument : Bool := false
  arguments : List Text := []
  pending : Option Open := none
deriving DecidableEq

def formats : List (Text × Report.Format) :=
  [("text".toList, .text), ("json".toList, .json), ("yaml".toList, .yaml)]

def maxVerbosity : Nat :=
  255

def needed (f : Flag) : Option Text → Except UsageFault Text
  | some v => .ok v
  | none => .error (.missingValue f.label)

def nonEmpty (label v : Text) : Except UsageFault Text :=
  if v.isEmpty then .error (.missingValue label) else .ok v

def readDebounce (v : Text) : Except UsageFault Nat :=
  match Text.readNumber v with
  | .ok n => .ok n
  | .error fault => .error (.invalidNumber v Flag.debounce.label fault)

def readFormat (v : Text) : Except UsageFault Report.Format :=
  match formats.lookup v with
  | some format => .ok format
  | none => do
    let v ← nonEmpty Flag.outputFormat.label v
    .error (.invalidValue v Flag.outputFormat.label)

def once (f : Flag) (before : Bool) : Except UsageFault Unit :=
  if before then .error (.repeated f.label) else .ok ()

namespace Given

def accept (g : Given) (scope : Scope) (f : Flag) (value : Option Text) :
    Except UsageFault Given :=
  match f with
  | .config => do
    let v ← needed f value
    once f g.config.isSome
    return { g with config := some (← nonEmpty f.label v) }
  | .outputFormat => do
    let v ← needed f value
    once f g.format.isSome
    return { g with format := some (← readFormat v) }
  | .debounce => do
    let v ← needed f value
    once f g.debounce.isSome
    return { g with debounce := some (← readDebounce v) }
  | .verbose => .ok { g with verbose := some (min (g.verbose.getD 0 + 1) maxVerbosity) }
  | .noColor => do
    once f g.noColor
    return { g with noColor := true }
  | .write => do
    once f g.write
    return { g with write := true }
  | .printDocument => do
    once f g.printDocument
    return { g with printDocument := true }
  | .help => .error (.help scope.about)
  | .version => .error .version

def settle (g : Given) (scope : Scope) : Except UsageFault Given :=
  match g.pending with
  | none => .ok g
  | some (.flag f value) => accept { g with pending := none } scope f value
  | some (.arguments values) => do
    let values ← values.mapM (nonEmpty (scope.positional?.getD []))
    return { g with arguments := g.arguments ++ values, pending := none }

def begin (g : Given) (scope : Scope) (f : Flag) (attached : Option Text) :
    Except UsageFault Given := do
  let g ← g.settle scope
  match f.value?, attached with
  | some _, none => return { g with pending := some (.flag f none) }
  | _, _ => g.accept scope f attached

def long (g : Given) (scope : Scope) (t : Text) : Except UsageFault Given :=
  let name := t.takeWhile (· != '=')
  let attached := (t.dropWhile (· != '=')).tail?
  match scope.flags.find? (·.long == name), attached with
  | none, _ => .error (.unknownArgument ("--".toList ++ name))
  | some f, some v =>
    if f.value?.isNone then .error (.unwantedValue v f.label) else g.begin scope f (some v)
  | some f, none => g.begin scope f none

def attachedValue : Text → Option Text
  | [] => none
  | '=' :: v => some v
  | v => some v

/-- Reads short flags from behind their dash; behind a flag that takes a value stands its value. -/
def shorts (g : Given) (scope : Scope) : Text → Except UsageFault Given
  | [] => .ok g
  | c :: t =>
    match scope.flags.find? (·.short? == some c) with
    | none => .error (.unknownArgument ['-', c])
    | some f =>
      if f.value?.isSome then g.begin scope f (attachedValue t)
      else
        match g.begin scope f none with
        | .ok g => g.shorts scope t
        | .error fault => .error fault

/-- Reads an argument that is neither a flag nor the value of one. A check takes any number of them,
formatting takes one. -/
def argument (g : Given) (scope : Scope) (t : Text) : Except UsageFault Given :=
  match scope.positional?, g.pending with
  | none, _ => .error (.unknownArgument t)
  | some _, some (.arguments values) =>
    if scope = .verb .check then .ok { g with pending := some (.arguments (values ++ [t])) }
    else .error (.unknownArgument t)
  | some _, _ =>
    if scope = .verb .check ∨ g.arguments.isEmpty then do
      let g ← g.settle scope
      return { g with pending := some (.arguments [t]) }
    else .error (.unknownArgument t)

end Given

inductive Kind
  | divider
  | long (t : Text)
  | shorts (t : Text)
  | plain
deriving DecidableEq

/-- The kind of an argument; a single dash is a plain one. -/
def kindOf : Text → Kind
  | ['-', '-'] => .divider
  | '-' :: '-' :: t => .long t
  | ['-'] => .plain
  | '-' :: t => .shorts t
  | _ => .plain

/-- The arguments behind the command; `divided` tells whether `--` has come, after which all are
plain. -/
def scanVerb (v : Verb) (divided : Bool) (g : Given) : List Text → Except UsageFault Given
  | [] => .ok g
  | t :: rest =>
    if divided then do
      scanVerb v true (← g.argument (.verb v) t) rest
    else
      match kindOf t with
      | .divider => scanVerb v true g rest
      | .long name => do scanVerb v false (← g.long (.verb v) name) rest
      | .shorts names => do scanVerb v false (← g.shorts (.verb v) names) rest
      | .plain =>
        match g.pending with
        | some (.flag f none) =>
          scanVerb v false { g with pending := some (.flag f (some t)) } rest
        | _ => do scanVerb v false (← g.argument (.verb v) t) rest

def verb? (t : Text) : Option Verb :=
  Verb.all.find? (·.name == t)

def helpFault : List Text → UsageFault
  | [] => .help Scope.program.about
  | [t] =>
    match verb? t with
    | some v => .help v.about
    | none =>
      if t = "help".toList then
        .help "Print this message or the help of the given subcommand(s)".toList
      else .unknownCommand t
  | t :: u :: _ =>
    if (verb? t).isSome ∨ t = "help".toList then .unknownCommand u else .unknownCommand t

/-- The arguments before the command: what they say, and the command with the arguments behind it,
if one comes. -/
def scanProgram (divided : Bool) (g : Given) :
    List Text → Except UsageFault (Given × Option (Verb × List Text))
  | [] => .ok (g, none)
  | t :: rest =>
    if divided then
      .error <|
        if (verb? t).isSome ∨ t = "help".toList then .unknownArgument t else .unknownCommand t
    else
      match kindOf t with
      | .divider => scanProgram true g rest
      | .long name => do scanProgram false (← g.long .program name) rest
      | .shorts names => do scanProgram false (← g.shorts .program names) rest
      | .plain =>
        match g.pending with
        | some (.flag f none) =>
          scanProgram false { g with pending := some (.flag f (some t)) } rest
        | _ =>
          match verb? t with
          | some v => .ok (g, some (v, rest))
          | none => .error (if t = "help".toList then helpFault rest else .unknownCommand t)

inductive Command
  | check (names : List Text) (format : Report.Format) (noColor : Bool)
  | format (name : Text) (write : Bool)
  | live (debounce : Option Nat) (printDocument noColor : Bool)
deriving DecidableEq

structure Invocation where
  config : Option Text
  verbose : Nat
  command : Command
deriving DecidableEq

def command (v : Verb) (g : Given) : Except UsageFault Command :=
  match v, g.arguments with
  | .check, [] => .error .missingArguments
  | .check, names => .ok (.check names (g.format.getD .text) g.noColor)
  | .format, [] => .error .missingArguments
  | .format, name :: _ => .ok (.format name g.write)
  | .live, _ => .ok (.live g.debounce g.printDocument g.noColor)

/-- The quiet period from outside the command line, where it counts and none is given. -/
def withDefault (v : Verb) (debounce : Option Text) (g : Given) : Except UsageFault Given :=
  match v, g.debounce, debounce with
  | .live, none, some t => do return { g with debounce := some (← readDebounce t) }
  | _, _, _ => .ok g

/-- Reads a command line; `debounce` is the quiet period that the environment sets. Flags behind the
command win over the same flags before it. -/
def parse (debounce : Option Text) (arguments : List Text) : Except UsageFault Invocation := do
  let (before, found) ← scanProgram false {} arguments
  match found with
  | none =>
    let before ← before.settle .program
    .error (if before = {} then .nothingGiven else .missingCommand)
  | some (v, rest) =>
    let behind ← scanVerb v false {} rest
    let behind ← behind.settle (.verb v)
    let behind ← withDefault v debounce behind
    let command ← command v behind
    let before ← before.settle .program
    return ⟨behind.config <|> before.config, (behind.verbose <|> before.verbose).getD 0, command⟩

end QueryTidy.CommandLine
