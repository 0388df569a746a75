import QueryTidy.Text.Basic

/-!
Text that is safe to show on a terminal: control characters and the sequences that an escape
character opens are left out, and what lays text out stays, namely tabs, line ends and form feeds.
-/

set_option autoImplicit false
set_option relaxedAutoImplicit false

namespace QueryTidy.Text

/-- Where a character of a text for a terminal stands. -/
inductive Control
  /-- Outside every sequence. -/
  | outside
  /-- Just behind an escape character. -/
  | escape
  /-- Behind an escape character and characters that do not end its sequence. -/
  | intermediate
  /-- In a control sequence, which a letter ends. -/
  | sequence
  /-- In a command to the terminal's system, which a bell ends. -/
  | command
  /-- In a string that only another escape or a cancelling character ends. -/
  | string
deriving DecidableEq

def isLayout (c : Char) : Bool :=
  c == '\t' || c == '\n' || c == '\x0c' || c == '\r'

def isControl (c : Char) : Bool :=
  c.toNat < 0x20 || c.toNat == 0x7F

namespace Control

/-- Where a printable ASCII character inside a sequence leads. -/
def follow (s : Control) (c : Char) : Control :=
  match s with
  | escape =>
    if c < '0' then intermediate
    else if c = '[' then sequence
    else if c = ']' then command
    else if c = 'P' ∨ c = 'X' ∨ c = '^' ∨ c = '_' then string
    else outside
  | intermediate => if c < '0' then intermediate else outside
  | sequence => if c < '@' then sequence else outside
  | outside | command | string => s

/-- Where a character leads, and whether it is shown. A character that lays text out ends a short
sequence, and so does one beyond ASCII. -/
def step (s : Control) (c : Char) : Control × Bool :=
  if c = '\x1b' then (escape, false)
  else if c = '\x18' ∨ c = '\x1a' then (outside, false)
  else if 0x80 ≤ c.toNat then (outside, true)
  else
    match s with
    | outside => (outside, !isControl c || isLayout c)
    | command => (if c = '\x07' then outside else command, false)
    | string => (string, false)
    | escape | intermediate | sequence =>
      if isLayout c then (outside, true)
      else if isControl c then (s, false)
      else (s.follow c, false)

def shown (s : Control) : Text → Text
  | [] => []
  | c :: t =>
    let (next, isShown) := s.step c
    if isShown then c :: next.shown t else next.shown t

end Control

def withoutControls (t : Text) : Text :=
  Control.outside.shown t

def afterColour? : Text → Option Text
  | '[' :: t =>
    match t.dropWhile fun c => c.isDigit || c == ';' with
    | 'm' :: rest => some rest
    | _ => none
  | _ => none

def withoutColours (t : Text) : Text :=
  t.foldr (fun c rest => if c = '\x1b' then (afterColour? rest).getD (c :: rest) else c :: rest) []

end QueryTidy.Text
