import QueryTidy.Editor.Session

/-!
A session driven by edits that arrive over time. Edits that arrive at one moment are all performed
before an analysis that falls due at that moment, and when the last edit is in, an analysis that is
still pending runs at once.
-/

set_option autoImplicit false
set_option relaxedAutoImplicit false

namespace QueryTidy.Editor

structure Arrival where
  time : Millis
  edit : Edit
deriving DecidableEq

structure Batch where
  time : Millis
  findings : List Finding
deriving DecidableEq

/-- Runs the pending analysis at its deadline, if that has passed before `now`. -/
def Session.catchUp (s : Session) (now : Millis) : List Batch × Session :=
  match s.debounce.deadline with
  | some due => if due < now then ([⟨due, s.findings⟩], s.render) else ([], s)
  | none => ([], s)

def Session.finish (s : Session) (now : Millis) : List Batch × Session :=
  if s.debounce.deadline.isSome then ([⟨now, s.findings⟩], s.render) else ([], s)

/-- Plays arrivals in order until the input closes: the analyses that ran, and the session at the
end. -/
def Session.play (s : Session) (closing : Millis) : List Arrival → List Batch × Session
  | [] =>
    let (due, s) := s.catchUp closing
    let (last, s) := s.finish closing
    (due ++ last, s)
  | ⟨time, edit⟩ :: rest =>
    let (due, s) := s.catchUp time
    let (later, s) := (s.perform edit time).play closing rest
    (due ++ later, s)

/-- What the sender of edits does: it sends one, or lets time pass. -/
inductive Cue
  | send (edit : Edit)
  | sleep (duration : Millis)
deriving DecidableEq

/-- The arrivals that cues from a moment on give rise to, and the moment after the last cue. -/
def arrivals (now : Millis) : List Cue → List Arrival × Millis
  | [] => ([], now)
  | .send edit :: cues =>
    let (rest, closing) := arrivals now cues
    (⟨now, edit⟩ :: rest, closing)
  | .sleep duration :: cues => arrivals (now + duration) cues

end QueryTidy.Editor
