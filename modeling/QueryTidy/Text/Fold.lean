import QueryTidy.Text.Basic

/-!
Comparison with ASCII words without regard to case, by simple case folding. Outside ASCII only the
long s and the kelvin sign fold to an ASCII letter, so no other character can stand for a letter of
an ASCII word.
-/

set_option autoImplicit false
set_option relaxedAutoImplicit false

namespace QueryTidy.Text

/-- The ASCII capital that a character stands for, or the character itself. -/
def foldChar (c : Char) : Char :=
  if c = '\u017f' then 'S' else if c = '\u212a' then 'K' else c.toUpper

def sameWord (word t : Text) : Bool :=
  t.map foldChar == word

/-- The rest of a text that begins with a phrase, given in ASCII capitals, up to case. -/
def afterPhrase? : Text → Text → Option Text
  | [], t => some t
  | _ :: _, [] => none
  | p :: phrase, c :: t => if foldChar c = p then afterPhrase? phrase t else none

def anySuffix (test : Text → Bool) : Text → Bool
  | [] => test []
  | c :: t => test (c :: t) || anySuffix test t

/-- What follows the first place in a text where a phrase stands, given in ASCII capitals, up to
case. -/
def afterFirst? (phrase : Text) : Text → Option Text
  | [] => afterPhrase? phrase []
  | c :: t =>
    match afterPhrase? phrase (c :: t) with
    | some rest => some rest
    | none => afterFirst? phrase t

def occursIn (phrase t : Text) : Bool :=
  (afterFirst? phrase t).isSome

end QueryTidy.Text
