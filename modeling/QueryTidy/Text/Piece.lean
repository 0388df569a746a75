import QueryTidy.Text.WordChar

/-!
A text cut into its maximal runs of word characters and the single characters between them. The
cut is made from the right, one character at a time, so what a character does to the pieces after it
is the whole definition.
-/

set_option autoImplicit false
set_option relaxedAutoImplicit false

namespace QueryTidy.Text

/-- A stretch of a text: a maximal run of word characters, or one other character. -/
inductive Piece
  | word (run : Text)
  | other (c : Char)
deriving DecidableEq

def Piece.text : Piece → Text
  | .word run => run
  | .other c => [c]

def Piece.word? : Piece → Option Text
  | .word run => some run
  | .other _ => none

/-- The pieces of a text with one more character in front: a word character joins the run that
follows it. -/
def Piece.cons (c : Char) (pieces : List Piece) : List Piece :=
  if isWordChar c then
    match pieces with
    | .word run :: rest => .word (c :: run) :: rest
    | _ => .word [c] :: pieces
  else .other c :: pieces

def pieces (t : Text) : List Piece :=
  t.foldr Piece.cons []

def words (t : Text) : List Text :=
  (pieces t).filterMap Piece.word?

end QueryTidy.Text
