import QueryTidy.Text.Decimal

/-!
Which texts read as something other than a string when they stand unquoted in YAML: nulls, booleans
and numbers. A text of digits with a superfluous zero in front is no number, but it looks like one
and is treated alike.
-/

set_option autoImplicit false
set_option relaxedAutoImplicit false

namespace QueryTidy.Yaml

open Text

def after? : Text → Text → Option Text
  | [], t => some t
  | _ :: _, [] => none
  | p :: opening, c :: t => if p = c then after? opening t else none

def unsigned : Text → Text
  | '+' :: t => t
  | '-' :: t => t
  | t => t

def zeroPadded (t : Text) : Bool :=
  match unsigned t with
  | '0' :: c :: rest => (c :: rest).all Char.isDigit
  | _ => false

def markedBases : List (Text × Nat) :=
  [("0x".toList, 16), ("0o".toList, 8), ("0b".toList, 2)]

/-- Whether a text is a number at most `limit` in a marked base, after an opening. -/
def markedInteger (opening : Text) (limit : Nat) (t : Text) : Bool :=
  markedBases.any fun (marker, base) =>
    match (after? (opening ++ marker) t).bind (digits? base) with
    | some n => n ≤ limit
    | none => false

/-- Whether a text is an integer of at most 128 bits. A larger one without a marker may still read
as a number of double precision. -/
def readsInteger (t : Text) : Bool :=
  let unsignedLimit := Nat.pow 2 128 - 1
  let signedLimit := Nat.pow 2 127
  markedInteger [] unsignedLimit t || markedInteger ['+'] unsignedLimit t ||
    markedInteger ['-'] signedLimit t ||
    (!zeroPadded t &&
      match digits? 10 (unsigned t) with
      | some n => n < signedLimit
      | none => false)

def readsFloat (t : Text) : Bool :=
  let infinities := [".inf".toList, ".Inf".toList, ".INF".toList]
  infinities.contains (unsigned t) || [".nan".toList, ".NaN".toList, ".NAN".toList].contains t ||
    isDouble (unsigned t)

def readsNull (t : Text) : Bool :=
  [[], "null".toList, "Null".toList, "NULL".toList, "~".toList].contains t

def readsBool (t : Text) : Bool :=
  ["true".toList, "True".toList, "TRUE".toList, "false".toList, "False".toList,
    "FALSE".toList].contains t

/-- Whether an unquoted text would not read as a string, or nearly so. -/
def misreads (t : Text) : Bool :=
  readsNull t || readsBool t || readsInteger t || zeroPadded t || readsFloat t

end QueryTidy.Yaml
