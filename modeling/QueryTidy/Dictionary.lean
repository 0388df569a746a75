import QueryTidy.Text.Blank
import QueryTidy.Text.Piece
import QueryTidy.Text.Uppercase

/-!
The dictionary of misspelt keywords. Every misspelling is stored once, in capitals, so a token is
looked up without regard to case. A later registration of a misspelling replaces its correction and
keeps its place.
-/

set_option autoImplicit false
set_option relaxedAutoImplicit false

namespace QueryTidy

open Text

abbrev Entry := Text × Text

/-- Misspellings with their corrections, in order of registration. -/
structure Dictionary where
  entries : List Entry
deriving DecidableEq

namespace Dictionary

def builtinEntries : List Entry :=
  [("CREAT", "CREATE"), ("SELCT", "SELECT"), ("SELEC", "SELECT"), ("WHER", "WHERE"),
   ("DELET", "DELETE"), ("UPDAT", "UPDATE"), ("INSRT", "INSERT"), ("FRM", "FROM"),
   ("TABL", "TABLE"), ("DATABAS", "DATABASE"), ("COLUM", "COLUMN"), ("GROOP", "GROUP"),
   ("ORDR", "ORDER"), ("JOINNG", "JOIN"), ("HAVNG", "HAVING"), ("DISTINCTT", "DISTINCT"),
   ("UNOIN", "UNION"), ("VALU", "VALUES")].map fun (wrong, right) => (wrong.toList, right.toList)

/-- Registers an entry among others: at the place of its misspelling if that is known, else last. -/
def register (entries : List Entry) (entry : Entry) : List Entry :=
  match entries with
  | [] => [entry]
  | known :: rest =>
    if known.1 = entry.1 then entry :: rest else known :: register rest entry

/-- The form in which a pair is registered: both sides trimmed and in capitals. -/
def normalize (pair : Entry) : Entry :=
  (upper (trim pair.1), upper (trim pair.2))

/-- Whether a normalized pair can be registered: no side is empty, and the misspelling is made of
letters, numerals and low lines. -/
def acceptable (entry : Entry) : Bool :=
  !entry.1.isEmpty && !entry.2.isEmpty && entry.1.all fun c => isAlphanumeric c || c == '_'

def accepted (extra : List Entry) : List Entry :=
  (extra.map normalize).filter acceptable

def builtin : Dictionary :=
  ⟨builtinEntries.foldl register []⟩

def withExtra (extra : List Entry) : Dictionary :=
  ⟨(builtinEntries ++ accepted extra).foldl register []⟩

def correct? (d : Dictionary) (token : Text) : Option Text :=
  d.entries.lookup (upper token)

def correctPiece (d : Dictionary) : Piece → Text
  | .word run => (d.correct? run).getD run
  | .other c => [c]

def correctText (d : Dictionary) (t : Text) : Text :=
  (pieces t).flatMap d.correctPiece

end Dictionary

end QueryTidy
