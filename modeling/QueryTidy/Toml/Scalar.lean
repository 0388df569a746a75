import QueryTidy.Text.Digits
import QueryTidy.Toml.Value

/-!
Values without quotes: booleans, numbers, dates and times.
-/

set_option autoImplicit false
set_option relaxedAutoImplicit false

namespace QueryTidy.Toml

open Text

/-- The digits of a number, without the low lines between them; a low line needs a digit on both
sides. `isDigit` tells what a digit is, and `after` whether one stands just before the text. -/
def plainDigits? (isDigit : Char → Bool) (after : Bool) : Text → Option Text
  | [] => if after then some [] else none
  | c :: t =>
    if isDigit c then (plainDigits? isDigit true t).map (c :: ·)
    else if c = '_' ∧ after then
      match t with
      | [] => none
      | _ :: _ => plainDigits? isDigit false t
    else none

def whole? (t : Text) : Option Nat :=
  (plainDigits? Char.isDigit false t).bind fun digits =>
    if digits.length > 1 ∧ digits.head? = some '0' then none else digits? 10 digits

def marked? : Text → Option Nat
  | '0' :: 'x' :: t => based 16 t
  | '0' :: 'o' :: t => based 8 t
  | '0' :: 'b' :: t => based 2 t
  | _ => none
where
  based (base : Nat) (t : Text) : Option Nat :=
    (plainDigits? (fun c => (digit? base c).isSome) false t).bind (digits? base)

def splitSign : Text → Int × Text
  | '-' :: t => (-1, t)
  | '+' :: t => (1, t)
  | t => (1, t)

def integer? (t : Text) : Option Int :=
  match marked? t with
  | some n => some n
  | none =>
    let (sign, digits) := splitSign t
    (whole? digits).map fun n => sign * n

def isExponent (t : Text) : Bool :=
  (plainDigits? Char.isDigit false (splitSign t).2).isSome

/-- A text cut before and after the first character that passes a test. -/
def cutAt? (test : Char → Bool) (t : Text) : Option (Text × Text) :=
  match t.dropWhile (fun c => !test c) with
  | [] => none
  | _ :: rest => some (t.takeWhile (fun c => !test c), rest)

def isFraction (t : Text) : Bool :=
  match cutAt? (· == '.') t with
  | some (before, after) => (whole? before).isSome && (plainDigits? Char.isDigit false after).isSome
  | none => false

def isFloat (t : Text) : Bool :=
  let size := (splitSign t).2
  size == "inf".toList || size == "nan".toList ||
    match cutAt? (fun c => c == 'e' || c == 'E') size with
    | some (before, after) => (isFraction before || (whole? before).isSome) && isExponent after
    | none => isFraction size

def twoDigits? (limit : Nat) : Text → Option (Nat × Text)
  | a :: b :: t =>
    (digits? 10 [a, b]).bind fun n => if n ≤ limit then some (n, t) else none
  | _ => none

def char? (expected : Char) : Text → Option Text
  | c :: t => if c = expected then some t else none
  | [] => none

def daysOf (year month : Nat) : Nat :=
  if month = 2 then if year % 4 = 0 ∧ (year % 100 ≠ 0 ∨ year % 400 = 0) then 29 else 28
  else if month = 4 ∨ month = 6 ∨ month = 9 ∨ month = 11 then 30
  else 31

def padded (width n : Nat) : Text :=
  let digits := Text.ofNat n
  List.replicate (width - digits.length) '0' ++ digits

def day? : Text → Option (Text × Text)
  | a :: b :: c :: d :: t => do
    let year ← digits? 10 [a, b, c, d]
    let t ← char? '-' t
    let (month, t) ← twoDigits? 12 t
    let t ← char? '-' t
    let (day, t) ← twoDigits? (daysOf year month) t
    if month = 0 ∨ day = 0 then none
    else some (padded 4 year ++ '-' :: padded 2 month ++ '-' :: padded 2 day, t)
  | _ => none

/-- The canonical text of a fraction of a second: nine digits at most, without zeros at the end. -/
def fractionText (digits : Text) : Text :=
  let kept := ((digits.take 9).reverse.dropWhile (· == '0')).reverse
  if kept.isEmpty then [] else '.' :: kept

/-- Reads a time of the day, whose seconds may be left out: its canonical text and the rest. -/
def time? (t : Text) : Option (Text × Text) := do
  let (hour, t) ← twoDigits? 23 t
  let t ← char? ':' t
  let (minute, t) ← twoDigits? 59 t
  let clock := padded 2 hour ++ ':' :: padded 2 minute ++ [':']
  match t with
  | ':' :: t =>
    let (second, t) ← twoDigits? 60 t
    match t with
    | '.' :: t =>
      let digits := t.takeWhile Char.isDigit
      if digits.isEmpty then none
      else some (clock ++ padded 2 second ++ fractionText digits, t.dropWhile Char.isDigit)
    | t => some (clock ++ padded 2 second, t)
  | t => some (clock ++ "00".toList, t)

/-- Reads the offset of a time zone: its canonical text, which has a plus sign if the offset is
zero, and the rest. -/
def offset? : Text → Option (Text × Text)
  | 'Z' :: t => some (['Z'], t)
  | 'z' :: t => some (['Z'], t)
  | c :: t =>
    if c = '+' ∨ c = '-' then do
      let (hour, t) ← twoDigits? 23 t
      let t ← char? ':' t
      let (minute, t) ← twoDigits? 59 t
      let sign := if hour = 0 ∧ minute = 0 then '+' else c
      some (sign :: padded 2 hour ++ ':' :: padded 2 minute, t)
    else none
  | [] => none

def date? (t : Text) : Option Text :=
  match day? t with
  | none =>
    match time? t with
    | some (time, []) => some time
    | _ => none
  | some (day, []) => some day
  | some (day, c :: t) =>
    if c = 'T' ∨ c = 't' ∨ c = ' ' then
      match time? t with
      | none => none
      | some (time, []) => some (day ++ 'T' :: time)
      | some (time, t) =>
        match offset? t with
        | some (offset, []) => some (day ++ 'T' :: time ++ offset)
        | _ => none
    else none

def isDelimiter (c : Char) : Bool :=
  " \t\r\n#,=[]\x7b\x7d".toList.contains c

def valueOf? (t : Text) : Option Value :=
  if t = "true".toList then some (.boolean true)
  else if t = "false".toList then some (.boolean false)
  else
    match integer? t with
    | some n => some (.integer n)
    | none =>
      if isFloat t then some (.float t) else (date? t).map .date

/-- Reads a value without quotes; a space may stand between a day and a time. -/
def scalar? (t : Text) : Option (Value × Text) :=
  let first := t.takeWhile fun c => !isDelimiter c
  let rest := t.dropWhile fun c => !isDelimiter c
  match (day? first), rest with
  | some (_, []), ' ' :: c :: more =>
    if c.isDigit then
      let second := (c :: more).takeWhile fun c => !isDelimiter c
      (valueOf? (first ++ ' ' :: second)).map
        fun v => (v, (c :: more).dropWhile fun c => !isDelimiter c)
    else (valueOf? first).map fun v => (v, rest)
  | _, _ => (valueOf? first).map fun v => (v, rest)

end QueryTidy.Toml
