import QueryTidy.Layout.Phrase
import QueryTidy.Text.Blank

/-!
From the pieces of a query to its lines. A line begins with every phrase, with every opening
parenthesis and after every closing one. Inside a line two pieces have one space between them or
none: always one after a comma or an opening parenthesis, none before a comma or a closing
parenthesis, and otherwise one where the query has blank space.
-/

set_option autoImplicit false
set_option relaxedAutoImplicit false

namespace QueryTidy.Layout

open Text

structure Item where
  piece : Piece
  gap : Bool
deriving DecidableEq

/-- The items of a sequence of pieces; `gap` tells whether blank space came just before. -/
def items (gap : Bool) : List Piece → List Item
  | [] => []
  | .word run :: ps => ⟨.word run, gap⟩ :: items false ps
  | .other c :: ps => if isBlank c then items true ps else ⟨.other c, gap⟩ :: items false ps

/-- A piece as written, whether it begins a line, and whether a space precedes it if it does not. -/
structure Cell where
  text : Text
  starts : Bool
  spaced : Bool
deriving DecidableEq

def startsLine (role : Role) (before : Option Piece) (p : Piece) : Bool :=
  role == .lead || p == .other '(' || before == some (.other ')')

def spacedAfter (before : Option Piece) (i : Item) : Bool :=
  before == some (.other ',') || before == some (.other '(') ||
    (i.gap && i.piece != .other ',' && i.piece != .other ')')

def cells (before : Option Piece) : List (Item × Role) → List Cell
  | [] => []
  | (i, role) :: rest =>
    ⟨written role i.piece, startsLine role before i.piece, spacedAfter before i⟩ ::
      cells (some i.piece) rest

/-- The cells cut into lines: a line ends before every cell that begins one. -/
def cut : List Cell → List (List Cell)
  | [] => []
  | c :: rest =>
    match cut rest with
    | (d :: line) :: lines =>
      if d.starts then [c] :: (d :: line) :: lines else (c :: d :: line) :: lines
    | lines => [c] :: lines

def lineText : List Cell → Text
  | [] => []
  | c :: rest => c.text ++ rest.flatMap fun d => if d.spaced then ' ' :: d.text else d.text

/-- Whether a line begins with the word `AND` or `OR`, taken up to the first character that is
neither a letter, a numeral nor a low line. -/
def isLogical (line : Text) : Bool :=
  let first := line.takeWhile fun c => isAlphanumeric c || c == '_'
  first == "AND".toList || first == "OR".toList

def indented (line : Text) : Text :=
  if isLogical line then ' ' :: ' ' :: line else line

def render : List Text → Text
  | [] => []
  | first :: rest => first ++ rest.flatMap fun line => '\n' :: indented line

def lines (ps : List Piece) : List Text :=
  let found := items false ps
  (cut (cells none (found.zip (roles 0 (found.map Item.piece))))).map lineText

end QueryTidy.Layout
