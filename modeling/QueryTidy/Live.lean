import QueryTidy.Bytes.Utf8
import QueryTidy.Editor.Timeline
import QueryTidy.Report.Basic

/-!
Live mode: bytes arrive over time, every complete line is an edit, and a report follows each pause.
A line that is not well-formed text ends the input.
-/

set_option autoImplicit false
set_option relaxedAutoImplicit false

namespace QueryTidy.Live

open Editor

structure Chunk where
  after : Millis
  bytes : List UInt8
deriving DecidableEq

def stamped (now : Millis) : List Chunk → List (Millis × UInt8)
  | [] => []
  | c :: chunks => c.bytes.map (now + c.after, ·) ++ stamped (now + c.after) chunks

/-- The moment at which the input ends: that of the last chunk. -/
def ending (chunks : List Chunk) : Millis :=
  chunks.foldr (fun c total => c.after + total) 0

structure RawLine where
  time : Millis
  bytes : List UInt8
deriving DecidableEq

/-- The lines of stamped bytes: a line is complete with its line feed, and what follows the last
line feed is complete when the input ends. -/
def rawLines (ending : Millis) : List (Millis × UInt8) → List RawLine
  | [] => []
  | (time, b) :: rest =>
    if b = 10 then ⟨time, [b]⟩ :: rawLines ending rest
    else
      match rawLines ending rest with
      | [] => [⟨ending, [b]⟩]
      | line :: lines => ⟨line.time, b :: line.bytes⟩ :: lines

/-- The bytes of a line without its line feed, and without a carriage return just before it. -/
def chomp (bytes : List UInt8) : List UInt8 :=
  match bytes.reverse with
  | 10 :: 13 :: rest => rest.reverse
  | 10 :: rest => rest.reverse
  | _ => bytes

/-- The edit that a line stands for: one of two commands, or a line of the document. -/
def editOf (line : Text) : Edit :=
  let command := Text.trim line
  if command = "\\format".toList then .format
  else if command = "\\clear".toList then .replace []
  else .line line

/-- What is read from an input: the edits in it, the moment at which reading ends, and what was
wrong with the line that ended it early, if one did. -/
structure Feed where
  arrivals : List Arrival
  closing : Millis
  fault : Option Bytes.Fault
deriving DecidableEq

def feed (ending : Millis) : List RawLine → Feed
  | [] => ⟨[], ending, none⟩
  | line :: lines =>
    match Bytes.decode (chomp line.bytes) with
    | .error fault => ⟨[], line.time, some fault⟩
    | .ok t =>
      let rest := feed ending lines
      { rest with arrivals := ⟨line.time, editOf t⟩ :: rest.arrivals }

def read (chunks : List Chunk) : Feed :=
  feed (ending chunks) (rawLines (ending chunks) (stamped 0 chunks))

def reportText (coloured : Bool) (findings : List Finding) : Text :=
  Report.plain coloured ⟨"<live>".toList, findings⟩

/-- What comes of a live session: the reports with their times, the session at the end, and what
was wrong with the input, if anything was. -/
structure Outcome where
  outputs : List (Millis × Text)
  session : Session
  fault : Option Bytes.Fault
deriving DecidableEq

def run (s : Session) (coloured : Bool) (chunks : List Chunk) : Outcome :=
  let input := read chunks
  let (batches, after) := s.play input.closing input.arrivals
  ⟨batches.map fun b => (b.time, reportText coloured b.findings), after, input.fault⟩

end QueryTidy.Live
