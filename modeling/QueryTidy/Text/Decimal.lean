import QueryTidy.Text.Digits

/-!
Decimal numbers with a fraction or an exponent, and which of them are within double precision.
-/

set_option autoImplicit false
set_option relaxedAutoImplicit false

namespace QueryTidy.Text

/-- The parts of a decimal number with an optional fraction and exponent: its digits as a whole
number, how many of them are a fraction, and the exponent. -/
def decimalParts? (t : Text) : Option (Nat × Nat × Int) :=
  let whole := t.takeWhile Char.isDigit
  let rest := t.dropWhile Char.isDigit
  let (fraction, rest) :=
    match rest with
    | '.' :: rest => (rest.takeWhile Char.isDigit, rest.dropWhile Char.isDigit)
    | rest => ([], rest)
  (digits? 10 (whole ++ fraction)).bind fun n =>
    match rest with
    | [] => some (n, fraction.length, 0)
    | e :: rest =>
      if e = 'e' ∨ e = 'E' then
        match rest with
        | '-' :: rest => (digits? 10 rest).map fun x => (n, fraction.length, -(x : Int))
        | '+' :: rest => (digits? 10 rest).map fun x => (n, fraction.length, (x : Int))
        | rest => (digits? 10 rest).map fun x => (n, fraction.length, (x : Int))
      else none

/-- Half a unit below the power of two at which numbers of double precision end: from here on a
number rounds to infinity. -/
def doubleLimit : Nat :=
  Nat.pow 2 1024 - Nat.pow 2 970

def isFinite (n : Nat) (exponent : Int) : Bool :=
  let size := (Nat.toDigits 10 n).length
  if n = 0 then true
  else if exponent + size > 310 then false
  else if exponent + size < 300 then true
  else if exponent ≥ 0 then n * Nat.pow 10 exponent.toNat < doubleLimit
  else n < doubleLimit * Nat.pow 10 (-exponent).toNat

def isDouble (t : Text) : Bool :=
  match decimalParts? t with
  | some (n, places, exponent) => isFinite n (exponent - places)
  | none => false

end QueryTidy.Text
