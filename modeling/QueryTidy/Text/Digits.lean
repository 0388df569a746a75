import QueryTidy.Text.Basic

/-!
Numbers written in digits.
-/

set_option autoImplicit false
set_option relaxedAutoImplicit false

namespace QueryTidy.Text

/-- The value of a digit in a base of at most sixteen. -/
def digit? (base : Nat) (c : Char) : Option Nat :=
  let value :=
    if '0' ≤ c ∧ c ≤ '9' then c.toNat - 48
    else if 'a' ≤ c ∧ c ≤ 'f' then c.toNat - 87
    else if 'A' ≤ c ∧ c ≤ 'F' then c.toNat - 55
    else 16
  if value < base then some value else none

def digits? (base : Nat) (t : Text) : Option Nat :=
  if t.isEmpty then none
  else t.foldl (fun n c => n.bind fun n => (digit? base c).map (n * base + ·)) (some 0)

inductive NumberFault
  | empty
  | invalidDigit
  | tooLarge
deriving DecidableEq

def NumberFault.message : NumberFault → Text
  | empty => "cannot parse integer from empty string".toList
  | invalidDigit => "invalid digit found in string".toList
  | tooLarge => "number too large to fit in target type".toList

/-- Reads further decimal digits of a number below 2^64, of which `n` has been read. The first
character that is no digit, or that makes the number too large, decides. -/
def readDigits (n : Nat) : Text → Except NumberFault Nat
  | [] => .ok n
  | c :: t =>
    match digit? 10 c with
    | none => .error .invalidDigit
    | some d => if n * 10 + d < UInt64.size then readDigits (n * 10 + d) t else .error .tooLarge

def readNumber : Text → Except NumberFault Nat
  | [] => .error .empty
  | ['+'] => .error .invalidDigit
  | '+' :: t => readDigits 0 t
  | t => readDigits 0 t

end QueryTidy.Text
