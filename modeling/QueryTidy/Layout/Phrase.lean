import QueryTidy.Text.Fold
import QueryTidy.Text.Piece

/-!
The keyword phrases that begin a line. A phrase is a sequence of slots, each filled by one of a few
words up to case. Words of a phrase stand next to each other with nothing but blank space between
them, so phrases are found in the sequence of pieces from left to right.
-/

set_option autoImplicit false
set_option relaxedAutoImplicit false

namespace QueryTidy.Layout

open Text

/-- The words that can fill one place of a phrase, in capitals. -/
abbrev Slot := List Text

def slot (words : List String) : Slot :=
  words.map String.toList

def sides : Slot :=
  slot ["LEFT", "RIGHT", "FULL"]

def kinds : Slot :=
  slot ["INNER", "OUTER", "CROSS"]

def joins : Slot :=
  slot ["JOIN"]

def openers : Slot :=
  slot ["SELECT", "FROM", "WHERE", "HAVING", "VALUES", "AND", "OR", "INSERT", "UPDATE", "DELETE",
    "SET"]

def sorters : Slot :=
  slot ["GROUP", "ORDER"]

/-- All phrases; a join stands with as many qualifiers as precede it, so the longer forms come
first. -/
def phrases : List (List Slot) :=
  [[sides, kinds, joins], [sides, joins], [kinds, joins], [joins], [sorters, slot ["BY"]],
   [openers]]

def Slot.holds (s : Slot) : Piece → Bool
  | .word run => s.any (sameWord · run)
  | .other _ => false

def filled : List Slot → List Piece → Bool
  | [], _ => true
  | _ :: _, [] => false
  | s :: phrase, p :: ps => s.holds p && filled phrase ps

/-- The number of pieces in the phrase that a sequence of pieces begins with, or zero. -/
def phraseLength (ps : List Piece) : Nat :=
  match phrases.find? (filled · ps) with
  | some phrase => phrase.length
  | none => 0

/-- What a piece is to the layout: the first word of a phrase, a further word of one, or neither. -/
inductive Role
  | plain
  | lead
  | inside
deriving DecidableEq

/-- The roles of the pieces, when the first `pending` of them belong to a phrase that has begun. -/
def roles : Nat → List Piece → List Role
  | _, [] => []
  | pending + 1, _ :: ps => .inside :: roles pending ps
  | 0, p :: ps =>
    match phraseLength (p :: ps) with
    | 0 => .plain :: roles 0 ps
    | further + 1 => .lead :: roles further ps

def written (role : Role) (p : Piece) : Text :=
  if role = .plain then p.text else p.text.map foldChar

end QueryTidy.Layout
