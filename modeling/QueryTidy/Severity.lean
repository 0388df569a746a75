import QueryTidy.Text.Basic

/-!
How serious a finding is.
-/

set_option autoImplicit false
set_option relaxedAutoImplicit false

namespace QueryTidy

inductive Severity
  | info
  | warning
  | error
deriving DecidableEq

namespace Severity

/-- The place of a grade in the order from mild to serious, which is also the exit code that a
finding of that grade asks for. -/
def rank : Severity → Nat
  | info => 0
  | warning => 1
  | error => 2

def name : Severity → Text
  | info => "info".toList
  | warning => "warning".toList
  | error => "error".toList

def label : Severity → Text
  | info => "INFO".toList
  | warning => "WARN".toList
  | error => "ERROR".toList

/-- Reads the name of a grade without regard to case. The small form of a character beyond ASCII
is never made of the letters of these names, so ASCII case is all that counts. -/
def ofName? (t : Text) : Option Severity :=
  let small := t.map Char.toLower
  if small = "error".toList then some error
  else if small = "warning".toList ∨ small = "warn".toList then some warning
  else if small = "info".toList then some info
  else none

end Severity

end QueryTidy
