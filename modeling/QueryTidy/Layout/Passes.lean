import QueryTidy.Dictionary
import QueryTidy.Layout.Line

/-!
The layout as a sequence of passes over the text. A pass goes through the text from the left and
replaces what its substitution finds; the next one goes through what comes of it. Blanks are brought
down to single spaces, punctuation is spaced, line ends are put around parentheses and before
phrases, and the last pass tidies the lines that have come about.
-/

set_option autoImplicit false
set_option relaxedAutoImplicit false

namespace QueryTidy.Layout

open Text

/-- What is replaced at a place of a text, given whether a word character stands just before it and
the text from there on: a number of characters, one at least, and what comes in their place. -/
abbrev Substitution := Bool → Text → Option (Nat × Text)

/-- Replaces what a substitution finds, from left to right, after a number of characters that an
earlier find has taken. -/
def replaceFrom (sub : Substitution) : Nat → Bool → Text → Text
  | _, _, [] => []
  | taken + 1, _, c :: t => replaceFrom sub taken (isWordChar c) t
  | 0, inWord, c :: t =>
    match sub inWord (c :: t) with
    | some (taken, put) => put ++ replaceFrom sub (taken - 1) (isWordChar c) t
    | none => c :: replaceFrom sub 0 (isWordChar c) t

def replaceAll (sub : Substitution) (t : Text) : Text :=
  replaceFrom sub 0 false t

def blankRun : Substitution := fun _ t =>
  match t.takeWhile isBlank with
  | [] => none
  | c :: run => some ((c :: run).length, [' '])

def isPunctuation (c : Char) : Bool :=
  c == ',' || c == '(' || c == ')'

def punctuation : Substitution := fun _ t =>
  match t.dropWhile isBlank with
  | [] => none
  | c :: rest =>
    if isPunctuation c then
      some ((t.takeWhile isBlank).length + 1 + (rest.takeWhile isBlank).length, [c, ' '])
    else none

/-- What follows a phrase at the start of a text. Blanks stand between its words, and its last word
ends there. -/
def afterSlots? : List Slot → Text → Option Text
  | [], t => if t.head?.any isWordChar then none else some t
  | s :: phrase, t =>
    s.findSome? fun word =>
      (afterPhrase? word t).bind fun rest =>
        if phrase.isEmpty then afterSlots? phrase rest
        else (afterBlanks? rest).bind (afterSlots? phrase)

def visibleRuns (t : Text) : List Text :=
  (splitAt ' ' (t.map fun c => if isBlank c then ' ' else c)).filter (!·.isEmpty)

def normalized (t : Text) : Text :=
  joinWith [' '] ((visibleRuns t).map upper)

/-- Finds where a word begins the first phrase that fits, in the order in which they are given. -/
def phrase (forms : List (List Slot)) (put : Text → Text) : Substitution := fun inWord t =>
  if inWord then none
  else
    (forms.findSome? (afterSlots? · t)).map fun rest =>
      let taken := t.length - rest.length
      (taken, put (t.take taken))

def clauses : List (List Slot) :=
  [[slot ["SELECT"]], [slot ["FROM"]], [slot ["WHERE"]], [slot ["GROUP"], slot ["BY"]],
   [slot ["HAVING"]], [slot ["ORDER"], slot ["BY"]], [slot ["VALUES"]]]

/-- The forms of a join, whose two qualifiers are optional; what has more of them comes first. -/
def joinForms : List (List Slot) :=
  [[sides, kinds, joins], [sides, joins], [kinds, joins], [joins]]

def joinLine (taken : Text) : Text :=
  let qualifier := normalized (taken.take (taken.length - 4))
  if qualifier.isEmpty then "\nJOIN".toList else '\n' :: qualifier ++ " JOIN".toList

def join : Substitution := fun inWord t =>
  let body := t.dropWhile isBlank
  if inWord && body.length == t.length then none
  else
    (joinForms.findSome? (afterSlots? · body)).map fun rest =>
      (t.length - rest.length, joinLine (body.take (body.length - rest.length)))

def collapseBlanks : Text → Text :=
  replaceAll blankRun

def spacePunctuation : Text → Text :=
  replaceAll punctuation

def breakParentheses (t : Text) : Text :=
  (t.flatMap fun c => if c = '(' then "\n(".toList else [c]).flatMap fun c =>
    if c = ')' then ")\n".toList else [c]

def breakClauses : Text → Text :=
  replaceAll (phrase clauses fun taken => '\n' :: normalized taken)

def breakJoins : Text → Text :=
  replaceAll join

def breakLogical : Text → Text :=
  replaceAll (phrase [[slot ["AND", "OR"]]] fun taken => "\n  ".toList ++ upper taken)

def breakChanges : Text → Text :=
  replaceAll (phrase [[slot ["INSERT", "UPDATE", "DELETE"]]] fun taken => '\n' :: upper taken)

def breakSet : Text → Text :=
  replaceAll (phrase [[slot ["SET"]]] fun _ => "\nSET".toList)

/-- Drops the blank lines and the blanks at the ends of lines, and indents the logical lines below
the first one. -/
def tidyLines (t : Text) : Text :=
  trim (joinWith ['\n']
    ((((Text.lines t).map trim).filter (!·.isEmpty)).map indented))

/-- The passes that lay a query out, in order; the first one corrects its spelling. -/
def passes (d : Dictionary) : List (Text → Text) :=
  [d.correctText, collapseBlanks, spacePunctuation, breakParentheses, breakClauses, breakJoins,
   breakLogical, breakChanges, breakSet, tidyLines]

def passedThrough (d : Dictionary) (t : Text) : Text :=
  (passes d).foldl (fun t pass => pass t) t

end QueryTidy.Layout
