import QueryTidy.Text.Digits
import QueryTidy.Toml.Value

/-!
Quoted strings. Double quotes allow escapes, single quotes take every character literally, and each
kind has a form with three quotes that may run over several lines. A string is read one character
at a time, with what is expected next as the state.
-/

set_option autoImplicit false
set_option relaxedAutoImplicit false

namespace QueryTidy.Toml

/-- Whether a character may stand in a string or a comment: control characters other than the tab
may not. -/
def isPermitted (c : Char) : Bool :=
  c == '\t' || (' ' ≤ c && c != '\x7f')

def atLineEnd : Text → Bool
  | '\n' :: _ => true
  | '\r' :: '\n' :: _ => true
  | _ => false

def dropLineEnd : Text → Text
  | '\n' :: t => t
  | '\r' :: '\n' :: t => t
  | t => t

/-- What the reader of a string in double quotes expects. -/
inductive Expecting
  /-- Any character. -/
  | any
  /-- The rest of an escape. -/
  | escape
  /-- So many more hexadecimal digits of a character code. -/
  | hex (missing code : Nat)
  /-- Blanks up to the end of a line that is continued below. -/
  | lineEnd
  /-- The blanks and line ends before a continued line. -/
  | continued
deriving DecidableEq

def charOfCode? (code : Nat) : Option Char :=
  if code < 0xD800 ∨ (0xDFFF < code ∧ code < 0x110000) then some (Char.ofNat code) else none

def escapes : List (Char × Char) :=
  [('b', '\x08'), ('t', '\t'), ('n', '\n'), ('f', '\x0c'), ('r', '\r'), ('e', '\x1b'), ('"', '"'),
   ('\\', '\\')]

def hexEscapes : List (Char × Nat) :=
  [('x', 2), ('u', 4), ('U', 8)]

/-- What closes a string of several lines: three quotes, before which up to two more belong to the
string. Gives those quotes and the rest of the text. -/
def closing? (quote : Char) (t : Text) : Option (Text × Text) :=
  match t with
  | a :: b :: c :: rest =>
    if a = quote ∧ b = quote ∧ c = quote then
      match rest with
      | d :: e :: rest' =>
        if d = quote ∧ e = quote then some ([quote, quote], rest')
        else if d = quote then some ([quote], e :: rest')
        else some ([], rest)
      | [d] => if d = quote then some ([quote], []) else some ([], rest)
      | [] => some ([], [])
    else none
  | _ => none

def prepend (cs : Text) (found : Option (Text × Text)) : Option (Text × Text) :=
  found.map fun (t, rest) => (cs ++ t, rest)

/-- Reads a string in double quotes from behind the opening quotes: the string and the rest of the
text. -/
def escaped (multiline : Bool) : Expecting → Text → Option (Text × Text)
  | _, [] => none
  | .escape, c :: t =>
    match escapes.lookup c with
    | some meant => prepend [meant] (escaped multiline .any t)
    | none =>
      match hexEscapes.lookup c with
      | some missing => escaped multiline (.hex missing 0) t
      | none =>
        if multiline && atLineEnd (c :: t) then escaped multiline .continued t
        else if multiline && (c == ' ' || c == '\t') then escaped multiline .lineEnd t
        else none
  | .hex missing code, c :: t =>
    match Text.digit? 16 c with
    | none => none
    | some d =>
      if missing ≤ 1 then
        match charOfCode? (code * 16 + d) with
        | some meant => prepend [meant] (escaped multiline .any t)
        | none => none
      else escaped multiline (.hex (missing - 1) (code * 16 + d)) t
  | .lineEnd, c :: t =>
    if atLineEnd (c :: t) then escaped multiline .continued t
    else if c = ' ' ∨ c = '\t' then escaped multiline .lineEnd t
    else none
  | expecting, c :: t =>
    if expecting = .continued ∧ (c = ' ' ∨ c = '\t' ∨ atLineEnd (c :: t)) then
      escaped multiline .continued t
    else if c = '"' then
      if multiline then
        match closing? '"' (c :: t) with
        | some found => some found
        | none => prepend [c] (escaped multiline .any t)
      else some ([], t)
    else if c = '\\' then escaped multiline .escape t
    else if isPermitted c || (multiline && atLineEnd (c :: t)) then
      prepend [c] (escaped multiline .any t)
    else none

def literal (multiline : Bool) : Text → Option (Text × Text)
  | [] => none
  | c :: t =>
    if c = '\'' then
      if multiline then
        match closing? '\'' (c :: t) with
        | some found => some found
        | none => prepend [c] (literal multiline t)
      else some ([], t)
    else if isPermitted c || (multiline && atLineEnd (c :: t)) then
      prepend [c] (literal multiline t)
    else none

def quoted? : Text → Option (Text × Text)
  | '"' :: t => escaped false .any t
  | '\'' :: t => literal false t
  | _ => none

/-- Reads a quoted string of either form; a line end right behind three quotes is not part of the
string. -/
def string? : Text → Option (Text × Text)
  | '"' :: '"' :: '"' :: t => escaped true .any (dropLineEnd t)
  | '\'' :: '\'' :: '\'' :: t => literal true (dropLineEnd t)
  | t => quoted? t

end QueryTidy.Toml
