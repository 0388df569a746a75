import QueryTidy.Text.Decimal
import QueryTidy.Toml.Scalar

/-!
The range of numbers. A document may hold numbers of any size, and those that are out of range
cannot be read from it.
-/

set_option autoImplicit false
set_option relaxedAutoImplicit false

namespace QueryTidy.Toml

def doubleInRange (t : Text) : Bool :=
  let size := (splitSign t).2.filter (· != '_')
  size == "inf".toList || size == "nan".toList || Text.isDouble size

mutual

/-- Whether every number in a value is within the range of its kind: 128 bits with or without a sign
for whole numbers, and double precision for the others. -/
def Value.inRange : Value → Bool
  | .integer n => -(2 ^ 127) ≤ n && n < 2 ^ 128
  | .float t => doubleInRange t
  | .array items => itemsInRange items
  | .table members => membersInRange members
  | .string _ | .boolean _ | .date _ => true

def itemsInRange : List Value → Bool
  | [] => true
  | v :: rest => v.inRange && itemsInRange rest

def membersInRange : List (Text × Value) → Bool
  | [] => true
  | (_, v) :: rest => v.inRange && membersInRange rest

end

end QueryTidy.Toml
