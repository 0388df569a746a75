import QueryTidy.Analyzer
import QueryTidy.Editor.Debounce
import QueryTidy.Format

/-!
An editing session: a document, the edits on it, and its analysis after each pause. Every change of
the document schedules the analysis anew, so at most one analysis is pending and it sees the latest
document.
-/

set_option autoImplicit false
set_option relaxedAutoImplicit false

namespace QueryTidy.Editor

inductive Edit
  /-- Text is added at the end. -/
  | insert (t : Text)
  /-- A line is added below the last one. -/
  | line (t : Text)
  /-- The whole document is replaced. -/
  | replace (t : Text)
  /-- The document is formatted. -/
  | format
deriving DecidableEq

/-- A document with the tools that watch it, the number of times it was written, and the findings
of every analysis so far, the newest last. -/
structure Session where
  analyzer : Analyzer
  dictionary : Dictionary
  debounce : Debounce
  document : Text
  writes : Nat := 0
  rendered : List (List Finding) := []
deriving DecidableEq

/-- A document on whose last line new text would start a line. -/
def endLine (document : Text) : Text :=
  match document.getLast? with
  | none => document
  | some c => if c = '\n' then document else document ++ ['\n']

namespace Session

def start (analyzer : Analyzer) (dictionary : Dictionary) (quiet : Millis) (document : Text) :
    Session :=
  { analyzer, dictionary, debounce := { quiet }, document }

def findings (s : Session) : List Finding :=
  s.analyzer.analyze s.document

def change (s : Session) (now : Millis) : Session :=
  { s with debounce := s.debounce.schedule now }

def write (s : Session) (document : Text) (now : Millis) : Session :=
  change { s with document, writes := s.writes + 1 } now

/-- Formats the document; one that is formatted already is left alone. -/
def formatDocument (s : Session) (now : Millis) : Session :=
  let formatted := format s.dictionary s.document
  if formatted = s.document then s else s.write formatted now

def perform (s : Session) (edit : Edit) (now : Millis) : Session :=
  match edit with
  | .insert t => s.write (s.document ++ t) now
  | .line t => s.write (endLine s.document ++ t ++ ['\n']) now
  | .replace t => s.write t now
  | .format => s.formatDocument now

def analyze (s : Session) : Session :=
  { s with rendered := s.rendered ++ [s.findings] }

def render (s : Session) : Session :=
  analyze { s with debounce := s.debounce.cancel }

/-- Runs the pending analysis if its deadline has been reached, and tells whether it ran. -/
def poll (s : Session) (now : Millis) : Bool × Session :=
  let (fired, debounce) := s.debounce.fire now
  let after := { s with debounce }
  (fired, if fired then after.analyze else after)

def flush (s : Session) : Bool × Session :=
  if s.debounce.deadline.isSome then (true, s.render) else (false, s)

end Session

inductive Step
  | edit (e : Edit) (now : Millis)
  | change (now : Millis)
  | formatDocument (now : Millis)
  | poll (now : Millis)
  | flush
deriving DecidableEq

namespace Session

/-- Makes a call; the calls that may run the analysis tell whether it ran. -/
def step (s : Session) : Step → Option Bool × Session
  | .edit e now => (none, s.perform e now)
  | .change now => (none, s.change now)
  | .formatDocument now => (none, s.formatDocument now)
  | .poll now => let (ran, after) := s.poll now; (some ran, after)
  | .flush => let (ran, after) := s.flush; (some ran, after)

def run (s : Session) (history : List Step) : Session :=
  history.foldl (fun s call => (s.step call).2) s

end Session

end QueryTidy.Editor
