import QueryTidy.Text.Basic

/-!
Sets of characters given by ranges of code points.
-/

set_option autoImplicit false
set_option relaxedAutoImplicit false

namespace QueryTidy.Text

/-- The code points from `first` to `last`, both included. -/
structure CodeRange where
  first : Nat
  last : Nat

def CodeRange.contains (r : CodeRange) (n : Nat) : Bool :=
  r.first ≤ n && n ≤ r.last

def within (ranges : List CodeRange) (c : Char) : Bool :=
  ranges.any (·.contains c.toNat)

end QueryTidy.Text
