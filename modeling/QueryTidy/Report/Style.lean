import QueryTidy.Text.Basic

/-!
Coloured text for terminals. A styled text opens with a code and closes with a reset; a reset inside
the text is followed by the opening code again, so the style reaches to the end.
-/

set_option autoImplicit false
set_option relaxedAutoImplicit false

namespace QueryTidy.Report

inductive Style
  | bold
  | green
  | redBold
  | yellowBold
  | blue
deriving DecidableEq

namespace Style

def opening : Style → Text
  | bold => "\x1b[1m".toList
  | green => "\x1b[32m".toList
  | redBold => "\x1b[1;31m".toList
  | yellowBold => "\x1b[1;33m".toList
  | blue => "\x1b[34m".toList

def reset : Text :=
  "\x1b[0m".toList

/-- A text with a code inserted after every reset in it. -/
def reopen (code : Text) : Text → Text
  | '\x1b' :: '[' :: '0' :: 'm' :: t => reset ++ code ++ reopen code t
  | c :: t => c :: reopen code t
  | [] => []

def paint (style : Style) (t : Text) : Text :=
  style.opening ++ reopen style.opening t ++ reset

end Style

end QueryTidy.Report
