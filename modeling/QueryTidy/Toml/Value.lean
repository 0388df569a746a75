import QueryTidy.Text.Basic

/-!
Values of the TOML configuration format.
-/

set_option autoImplicit false
set_option relaxedAutoImplicit false

namespace QueryTidy.Toml

/-- A value. The members of a table are in the order of their keys; numbers with a fraction and
dates are kept as text. -/
inductive Value
  | string (t : Text)
  | integer (n : Int)
  | float (t : Text)
  | boolean (b : Bool)
  | date (t : Text)
  | array (items : List Value)
  | table (members : List (Text × Value))

/-- Puts a member into a table at the place of its key, in the place of a member with the same
key. -/
def place {α : Type} (key : Text) (member : α) : List (Text × α) → List (Text × α)
  | [] => [(key, member)]
  | (k, m) :: rest =>
    if key = k then (key, member) :: rest
    else if key < k then (key, member) :: (k, m) :: rest
    else (k, m) :: place key member rest

end QueryTidy.Toml
