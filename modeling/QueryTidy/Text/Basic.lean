/-!
Text as lists of characters, and what the rest of the library asks of a text as a whole.
-/

set_option autoImplicit false
set_option relaxedAutoImplicit false

namespace QueryTidy

/-- A query, a name or a message: a list of characters. -/
abbrev Text := List Char

namespace Text

def joinWith (separator : Text) : List Text → Text
  | [] => []
  | [part] => part
  | part :: parts => part ++ separator ++ joinWith separator parts

/-- The stretches of a text between the occurrences of a separator; there is one more of them than
there are separators. -/
def splitAt (separator : Char) : Text → List Text
  | [] => [[]]
  | c :: t =>
    if c = separator then [] :: splitAt separator t
    else
      match splitAt separator t with
      | [] => [[c]]
      | part :: parts => (c :: part) :: parts

def dropReturn (t : Text) : Text :=
  if t.getLast? = some '\r' then t.dropLast else t

/-- The lines that a text with a line end behind it consists of. -/
def lines (t : Text) : List Text :=
  (splitAt '\n' t).map dropReturn

def byteLength (t : Text) : Nat :=
  t.foldr (fun c size => c.utf8Size + size) 0

def ofNat (n : Nat) : Text :=
  Nat.toDigits 10 n

end Text

end QueryTidy
