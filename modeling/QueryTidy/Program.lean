import QueryTidy.CommandLine.Invocation
import QueryTidy.Log.Filter
import QueryTidy.Log.History

/-!
A whole run of the program as a function: from the command line, the environment, the files and the
standard input to what is printed, the exit code and the files afterwards.
-/

set_option autoImplicit false
set_option relaxedAutoImplicit false

namespace QueryTidy.Program

open CommandLine

structure Setting where
  arguments : List Text
  environment : Environment := []
  files : Files := ⟨[]⟩
  stdin : List UInt8 := []
  terminal : Bool := false
deriving DecidableEq

structure Result where
  exitCode : Nat
  stdout : Text := []
  stderr : List Text := []
  files : Files
deriving DecidableEq

/-- What a command prints, how it ends, with an exit code or with a failure, and the files that it
leaves. -/
structure Ending where
  printed : Text
  outcome : Except Failure Nat
  files : Files

def variablesAsked : List Text :=
  ["HOME".toList, Config.debounceVariable, "RUST_LOG".toList, "CLICOLOR_FORCE".toList,
    "CLICOLOR".toList, "NO_COLOR".toList]

def isOn (env : Environment) (name : String) : Bool :=
  (env.lookup name.toList).any (· != ['0'])

def isOff (env : Environment) (name : String) : Bool :=
  env.lookup name.toList = some ['0']

/-- Whether colours can show: they can be forced, else forbidden, and otherwise show on a
terminal. -/
def Setting.showsColour (s : Setting) : Bool :=
  isOn s.environment "CLICOLOR_FORCE" ||
    (!(s.environment.lookup "NO_COLOR".toList).isSome && !isOff s.environment "CLICOLOR" &&
      s.terminal)

def filter (env : Environment) (verbosity : Nat) : Log.Filter :=
  Log.Filter.choose (env.lookup "RUST_LOG".toList) verbosity

def printed : Option Text → Text
  | some t => t ++ ['\n']
  | none => []

/-- What the standard input brings to a live run: everything at once. -/
def chunks (stdin : List UInt8) : List Live.Chunk :=
  [⟨0, stdin⟩]

def documentText (asked : Bool) (document : Text) : Text :=
  if asked then Text.trimEnd document ++ ['\n'] else []

/-- The names of the files that a command line asks for, whether they exist or not. -/
def filesAsked (env : Environment) (i : Invocation) : List Text :=
  (match i.config with
    | some name => [name]
    | none => ((env.lookup "HOME".toList).map Config.homeFile).toList ++ [Config.localFile]) ++
  match i.command with
  | .check names _ _ => names.filter (!Command.isStdin ·)
  | .format name _ => [name].filter (!Command.isStdin ·)
  | .live .. => []

def readsStdin : Command → Bool
  | .check names _ _ => names.any Command.isStdin
  | .format name replace => Command.isStdin name && !replace
  | .live .. => false

def perform (s : Setting) (config : Config) (refusal : Refusal) : Command → Ending
  | .check names format noColor =>
    let options := Report.Options.ofFlags format noColor
    match Command.checkEnding ⟨s.files, s.stdin⟩ config s.showsColour options names
        (.forward names.length) with
    | (.ok out, later) => ⟨printed out.stdout, .ok out.exitCode, later.files⟩
    | (.error f, later) => ⟨[], .error f, later.files⟩
  | .format name replace =>
    match Command.formatEnding ⟨s.files, s.stdin⟩ config name replace refusal with
    | (.ok out, files) => ⟨printed out.stdout, .ok out.exitCode, files⟩
    | (.error f, files) => ⟨[], .error f, files⟩
  | .live quiet printDocument noColor =>
    let coloured := !noColor && s.showsColour
    let out := Command.live config quiet coloured (chunks s.stdin)
    let reports := out.outputs.flatMap (·.2)
    match out.fault with
    | some fault => ⟨reports, .error (Command.liveFailure fault), s.files⟩
    | none => ⟨reports ++ documentText printDocument out.session.document, .ok 0, s.files⟩

def events (s : Setting) (config : Config) (refusal : Refusal) : Command → List Log.Event
  | .check names _ _ => Log.ofCheck ⟨s.files, s.stdin⟩ config names
  | .format name replace => Log.ofFormat ⟨s.files, s.stdin⟩ config name replace refusal
  | .live quiet _ _ => Log.ofLive config quiet (chunks s.stdin)

def failureLine (f : Failure) : Text :=
  "Error: ".toList ++ f.display

def conclude (log : List Text) (e : Ending) : Result :=
  match e.outcome with
  | .ok exitCode => ⟨exitCode, e.printed, log, e.files⟩
  | .error f => ⟨1, e.printed, log ++ [failureLine f], e.files⟩

def logLines (f : Log.Filter) (events : List Log.Event) : List Text :=
  (events.filter f.shows).flatMap Log.Event.lines

def invoke (s : Setting) (i : Invocation) (refusal : Refusal) : Result :=
  let shown := logLines (filter s.environment i.verbose)
  let loading := Log.ofLoad s.files s.environment i.config
  match Config.load s.files s.environment i.config with
  | .error f => conclude (shown loading) ⟨[], .error f, s.files⟩
  | .ok config =>
    conclude (shown (loading ++ events s config refusal i.command))
      (perform s config refusal i.command)

def refuse (s : Setting) (fault : UsageFault) : Result :=
  if fault.isAnswer then ⟨0, fault.message ++ ['\n'], [], s.files⟩
  else ⟨2, [], [fault.message], s.files⟩

def invocation (s : Setting) : Except UsageFault Invocation :=
  CommandLine.parse (s.environment.lookup Config.debounceVariable) s.arguments

/-- Runs the program where some writes are refused. -/
def run (s : Setting) (refusal : Refusal := fun _ _ => none) : Result :=
  match invocation s with
  | .ok i => invoke s i refusal
  | .error fault => refuse s fault

end QueryTidy.Program
