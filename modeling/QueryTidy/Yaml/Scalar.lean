import QueryTidy.Yaml.Number

/-!
Strings in YAML. A string with a line feed is a literal block; any other is plain if that reads back
as the same string, else in single quotes, and in double quotes if it holds characters that need an
escape.
-/

set_option autoImplicit false
set_option relaxedAutoImplicit false

namespace QueryTidy.Yaml

def isBreak (c : Char) : Bool :=
  c == '\n' || c == '\r' || c == '\u0085' || c == '\u2028' || c == '\u2029'

/-- Whether a character, or the end of the text, separates words. -/
def isGap : Option Char → Bool
  | none => true
  | some c => c == ' ' || c == '\t' || c == '\x00' || isBreak c

def isPrintable (c : Char) : Bool :=
  c == '\n' || (' ' ≤ c && c ≤ '~') ||
    ('\u00a0' ≤ c && c != '\ufeff' && c != '\ufffe' && c != '\uffff')

def anyAdjacent (r : Char → Char → Bool) : Text → Bool
  | c :: d :: t => r c d || anyAdjacent r (d :: t)
  | _ => false

def hasSpaceBreak (t : Text) : Bool :=
  anyAdjacent (fun c d => c == ' ' && isBreak d) t

def hasBreakSpace (t : Text) : Bool :=
  anyAdjacent (fun c d => isBreak c && d == ' ') t

def hasSpecial (t : Text) : Bool :=
  t.any fun c => !isPrintable c

def opensIndicator : Text → Bool
  | [] => false
  | c :: t =>
    "#,[]\x7b\x7d&*!|>'\"%@\x60".toList.contains c ||
      ((c == '?' || c == ':' || c == '-') && isGap t.head?)

/-- Whether a colon before a gap, or a number sign after one, stands after the first character;
`before` is the character in front of the text. -/
def hasInnerIndicator (before : Char) : Text → Bool
  | [] => false
  | c :: t =>
    (c == ':' && isGap t.head?) || (c == '#' && isGap (some before)) || hasInnerIndicator c t

/-- Whether a text holds a character sequence that means something else outside quotes. -/
def hasIndicator (t : Text) : Bool :=
  "---".toList.isPrefixOf t || "...".toList.isPrefixOf t || opensIndicator t ||
    match t with
    | [] => false
    | c :: rest => hasInnerIndicator c rest

def hasOuterSpace (t : Text) : Bool :=
  t.head? == some ' ' || t.getLast? == some ' '

inductive ScalarStyle
  | plain
  | singleQuoted
  | doubleQuoted
  | literal
deriving DecidableEq

def plainAllowed (t : Text) : Bool :=
  !(hasOuterSpace t || hasSpecial t || t.any isBreak || hasIndicator t)

def singleQuotedAllowed (t : Text) : Bool :=
  !(hasBreakSpace t || hasSpaceBreak t || hasSpecial t)

def literalAllowed (t : Text) : Bool :=
  !(t.getLast? == some ' ' || hasSpaceBreak t || hasSpecial t)

def scalarStyle (t : Text) : ScalarStyle :=
  if t.contains '\n' then if literalAllowed t then .literal else .doubleQuoted
  else if !misreads t && plainAllowed t then .plain
  else if singleQuotedAllowed t then .singleQuoted
  else .doubleQuoted

def hex : Nat → Nat → Text
  | 0, _ => []
  | width + 1, n =>
    hex width (n / 16) ++
      [if n % 16 < 10 then Char.ofNat (48 + n % 16) else Char.ofNat (55 + n % 16)]

def namedEscapes : List (Char × Char) :=
  [('\x00', '0'), ('\x07', 'a'), ('\x08', 'b'), ('\t', 't'), ('\n', 'n'), ('\x0b', 'v'),
   ('\x0c', 'f'), ('\r', 'r'), ('\x1b', 'e'), ('"', '"'), ('\\', '\\'), ('\u0085', 'N'),
   ('\u2028', 'L'), ('\u2029', 'P')]

def escape (c : Char) : Text :=
  match namedEscapes.lookup c with
  | some letter => ['\\', letter]
  | none =>
    if isPrintable c then [c]
    else if c.toNat ≤ 0xFF then ['\\', 'x'] ++ hex 2 c.toNat
    else if c.toNat ≤ 0xFFFF then ['\\', 'u'] ++ hex 4 c.toNat
    else ['\\', 'U'] ++ hex 8 c.toNat

/-- Characters with every line after a break indented; `fresh` tells whether a line has just begun,
and `write` writes a character inside a line. -/
def indentLines (indent : Nat) (write : Char → Text) : Bool → Text → Text
  | _, [] => []
  | fresh, c :: t =>
    if isBreak c then c :: indentLines indent write true t
    else
      (if fresh then List.replicate indent ' ' else []) ++ write c ++
        indentLines indent write false t

def endsLine (t : Text) : Bool :=
  t.getLast?.any isBreak

def singleQuoted (indent : Nat) (t : Text) : Text :=
  '\'' :: indentLines indent (fun c => if c = '\'' then ['\'', '\''] else [c]) false t ++
    (if endsLine t then List.replicate indent ' ' else []) ++ ['\'']

/-- The hints of a literal block: its indentation, if the text does not show it, and whether the
line breaks at its end are dropped, kept, or one. -/
def literalHints (t : Text) : Text :=
  (if t.head?.any (fun c => c == ' ' || isBreak c) then ['2'] else []) ++
    match t.reverse with
    | [] => ['-']
    | [c] => if isBreak c then ['+'] else ['-']
    | c :: d :: _ => if isBreak c then (if isBreak d then ['+'] else []) else ['-']

/-- A string as a value, up to the end of its last line; further lines are indented. -/
def scalar (indent : Nat) (t : Text) : Text :=
  match scalarStyle t with
  | .plain => t ++ ['\n']
  | .singleQuoted => singleQuoted indent t ++ ['\n']
  | .doubleQuoted => '"' :: t.flatMap escape ++ ['"', '\n']
  | .literal =>
    '|' :: literalHints t ++ ['\n'] ++ indentLines indent (fun c => [c]) true t ++
      (if endsLine t then [] else ['\n'])

end QueryTidy.Yaml
