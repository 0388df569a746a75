import QueryTidy.Dictionary
import QueryTidy.Layout.Line

/-!
The formatter: misspelt keywords are corrected and the query is laid out with every clause on a line
of its own. It reads no string literals and no comments, so a keyword inside quotes is moved like
any other.
-/

set_option autoImplicit false
set_option relaxedAutoImplicit false

namespace QueryTidy

/-- A query in keyword-aligned layout, spelt by a dictionary. -/
def format (d : Dictionary) (t : Text) : Text :=
  Layout.render (Layout.lines (Text.pieces (d.correctText t)))

end QueryTidy
