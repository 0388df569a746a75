import QueryTidy.Text.Digits

/-!
The grammar of JSON texts, as a relation between texts and the values that they spell. Space may
stand around every value and every name of a member.
-/

set_option autoImplicit false
set_option relaxedAutoImplicit false

namespace QueryTidy.Json

/-- What a JSON text can stand for. A number is kept as it is written, and the members of an object
are in order. -/
inductive Datum
  | null
  | bool (b : Bool)
  | number (written : Text)
  | string (t : Text)
  | array (items : List Datum)
  | object (members : List (Text × Datum))

namespace Grammar

def spaces : List Char :=
  [' ', '\t', '\n', '\r']

def digits : List Char :=
  ['0', '1', '2', '3', '4', '5', '6', '7', '8', '9']

def IsSpace (t : Text) : Prop :=
  ∀ c ∈ t, c ∈ spaces

def IsDigits (t : Text) : Prop :=
  t ≠ [] ∧ ∀ c ∈ t, c ∈ digits

/-- An integer without leading zeros, perhaps negative, and perhaps with a fraction and an exponent
behind it. -/
def IsNumber (t : Text) : Prop :=
  ∃ sign whole fraction exponent, t = sign ++ whole ++ fraction ++ exponent ∧
    (sign = [] ∨ sign = ['-']) ∧
    (whole = ['0'] ∨ IsDigits whole ∧ whole.head? ≠ some '0') ∧
    (fraction = [] ∨ ∃ ds, IsDigits ds ∧ fraction = '.' :: ds) ∧
    (exponent = [] ∨ ∃ e sign ds, (e = 'e' ∨ e = 'E') ∧
      (sign = [] ∨ sign = ['+'] ∨ sign = ['-']) ∧ IsDigits ds ∧ exponent = e :: sign ++ ds)

def shortEscapes : List (Char × Char) :=
  [('"', '"'), ('\\', '\\'), ('/', '/'), ('b', '\x08'), ('f', '\x0c'), ('n', '\n'), ('r', '\r'),
   ('t', '\t')]

def IsCode (ds : Text) (n : Nat) : Prop :=
  ds.length = 4 ∧ Text.digits? 16 ds = some n

/-- What can stand behind a backslash for a character: a letter, the code of the character, or the
codes of its two surrogates. -/
inductive Escape : Text → Char → Prop
  | short {c e : Char} : (e, c) ∈ shortEscapes → Escape [e] c
  | code {c : Char} {ds : Text} : IsCode ds c.toNat → Escape ('u' :: ds) c
  | pair {c : Char} {high low : Nat} {ds ds' : Text} :
    IsCode ds (0xD800 + high) → IsCode ds' (0xDC00 + low) → high < 0x400 → low < 0x400 →
      c.toNat = 0x10000 + high * 0x400 + low → Escape ('u' :: ds ++ '\\' :: 'u' :: ds') c

inductive Letter : Text → Char → Prop
  | plain {c : Char} : 0x20 ≤ c.toNat → c ≠ '"' → c ≠ '\\' → Letter [c] c
  | escaped {c : Char} {t : Text} : Escape t c → Letter ('\\' :: t) c

inductive Letters : Text → Text → Prop
  | nil : Letters [] []
  | cons {c : Char} {s t u : Text} : Letter t c → Letters u s → Letters (t ++ u) (c :: s)

inductive Quoted : Text → Text → Prop
  | mk {s t : Text} : Letters t s → Quoted ('"' :: t ++ ['"']) s

section Rows

variable {α : Type} (P : Text → α → Prop)

inductive Padded : Text → α → Prop
  | mk {a : α} {s t u : Text} : IsSpace s → P t a → IsSpace u → Padded (s ++ t ++ u) a

inductive Further : Text → List α → Prop
  | nil : Further [] []
  | cons {a : α} {as : List α} {t u : Text} :
    Padded P t a → Further u as → Further (',' :: t ++ u) (a :: as)

inductive Row : Text → List α → Prop
  | none {s : Text} : IsSpace s → Row s []
  | some {a : α} {as : List α} {t u : Text} :
    Padded P t a → Further P u as → Row (t ++ u) (a :: as)

end Rows

mutual

inductive Value : Text → Datum → Prop
  | null : Value "null".toList .null
  | true : Value "true".toList (.bool .true)
  | false : Value "false".toList (.bool .false)
  | number {t : Text} : IsNumber t → Value t (.number t)
  | string {q s : Text} : Quoted q s → Value q (.string s)
  | array {t : Text} {items : List Datum} :
    Row Value t items → Value ('[' :: t ++ [']']) (.array items)
  | object {t : Text} {members : List (Text × Datum)} :
    Row Member t members → Value ('\x7b' :: t ++ ['\x7d']) (.object members)

inductive Member : Text → Text × Datum → Prop
  | mk {q s t u name : Text} {v : Datum} :
    Quoted q name → IsSpace s → IsSpace t → Value u v → Member (q ++ s ++ ':' :: t ++ u) (name, v)

end

def Document (t : Text) (v : Datum) : Prop :=
  Padded Value t v

end Grammar

end QueryTidy.Json
