import QueryTidy.Command.Format
import QueryTidy.Command.Live
import QueryTidy.Config.Load
import QueryTidy.Log.Event

/-!
The events of a run in their order, told from the same values that the run works on.
-/

set_option autoImplicit false
set_option relaxedAutoImplicit false

namespace QueryTidy.Log

open Editor

/-- The events of building a dictionary: entries that are accepted are worth telling. -/
def ofDictionary (extra : List Entry) : List Event :=
  match (Dictionary.accepted extra).length with
  | 0 => []
  | count => [.entriesAdded count]

def ofSettings (s : RuleSettings) : List Event :=
  s.unreadable.map fun (rule, value) => .unreadableSeverity rule value

def ofAnalyzer (c : Config) : List Event :=
  ofDictionary c.extra ++ ofSettings c.rules

def ofAnalysis (a : Analyzer) (t : Text) : Event :=
  .analyzed (Text.byteLength (Text.trim t)) (a.analyze t).length

def ofFormatting (d : Dictionary) (t : Text) : Event :=
  .formatted (Text.byteLength t) (Text.byteLength (format d t))

/-- The events of reading configuration files, up to the first one that is not valid. -/
def ofConfigFiles (files : Files) (names : List Text) : List Event :=
  (names.takeWhile fun name => (Config.readFile files name).toOption.isSome).map .configRead

def ofEnvironment (env : Environment) : List Event :=
  match env.lookup Config.debounceVariable with
  | some t => if (Text.readNumber (Text.trim t)).toOption.isSome then [] else [.debounceIgnored t]
  | none => []

def ofLoad (files : Files) (env : Environment) (name : Option Text) : List Event :=
  ofConfigFiles files (Config.filesToRead files env name) ++
    if (Config.load files env name).toOption.isSome then ofEnvironment env else []

/-- The events of analyzing inputs in order, up to the first one that cannot be read. -/
def ofInputs (w : Command.World) (a : Analyzer) : List Text → List Event
  | [] => []
  | name :: names =>
    match w.textOf name with
    | .ok t => ofAnalysis a t :: ofInputs (w.after name) a names
    | .error _ => []

def ofCheck (w : Command.World) (c : Config) (names : List Text) : List Event :=
  ofAnalyzer c ++ ofInputs w c.analyzer names ++
    if (w.texts names).1.toOption.isSome then [.checked names.length] else []

def ofFormat (w : Command.World) (c : Config) (name : Text) (replace : Bool) (refusal : Refusal) :
    List Event :=
  if replace && Command.isStdin name then []
  else
    match w.textOf name with
    | .error _ => []
    | .ok t =>
      ofDictionary c.extra ++ ofFormatting c.dictionary t ::
        if replace && (Command.format w c name replace refusal).toOption.isSome then
          [.fileReplaced name]
        else []

def ofChange (s : Session) : List Event :=
  (if s.debounce.deadline.isSome then [.rescheduling] else []) ++ [.scheduled s.debounce.quiet]

def ofEdit (s : Session) : Edit → List Event
  | .format =>
    ofFormatting s.dictionary s.document ::
      if format s.dictionary s.document = s.document then [] else ofChange s
  | _ => ofChange s

def ofRendering (s : Session) : List Event :=
  [ofAnalysis s.analyzer s.document, .rendering s.findings.length]

def ofCatchUp (s : Session) (now : Millis) : List Event :=
  if (s.catchUp now).1.isEmpty then [] else ofRendering s

def ofArrivals (s : Session) (closing : Millis) : List Arrival → List Event
  | [] =>
    let after := (s.catchUp closing).2
    ofCatchUp s closing ++ if (after.finish closing).1.isEmpty then [] else ofRendering after
  | ⟨time, edit⟩ :: rest =>
    let after := (s.catchUp time).2
    ofCatchUp s time ++ ofEdit after edit ++ ofArrivals (after.perform edit time) closing rest

def ofLive (c : Config) (quiet : Option Millis) (chunks : List Live.Chunk) : List Event :=
  let input := Live.read chunks
  ofAnalyzer c ++ ofArrivals (Command.liveSession c quiet) input.closing input.arrivals

end QueryTidy.Log
