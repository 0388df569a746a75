/-!
The timer behind delayed analysis: each change drops the pending deadline and sets a new one, a
quiet period later.
-/

set_option autoImplicit false
set_option relaxedAutoImplicit false

namespace QueryTidy.Editor

abbrev Millis := Nat

/-- A quiet period and the deadline that is pending, if any. -/
structure Debounce where
  quiet : Millis
  deadline : Option Millis := none
deriving DecidableEq

namespace Debounce

def schedule (d : Debounce) (now : Millis) : Debounce :=
  { d with deadline := some (now + d.quiet) }

def cancel (d : Debounce) : Debounce :=
  { d with deadline := none }

def isDue (d : Debounce) (now : Millis) : Bool :=
  match d.deadline with
  | some due => due ≤ now
  | none => false

/-- Whether the timer fires at a time, and its state afterwards: a deadline fires once. -/
def fire (d : Debounce) (now : Millis) : Bool × Debounce :=
  if d.isDue now then (true, d.cancel) else (false, d)

end Debounce

end QueryTidy.Editor
