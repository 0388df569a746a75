import QueryTidy.Dictionary
import QueryTidy.Rule
import QueryTidy.Text.Fold

/-!
The checks behind the rules. None of them parses a query: they look up words, count characters or
search for shapes of text, and letters are compared without regard to case.
-/

set_option autoImplicit false
set_option relaxedAutoImplicit false

namespace QueryTidy.Check

open Text

def afterWord? : Text → Option Text
  | [] => none
  | c :: t => if isWordChar c then some (t.dropWhile isWordChar) else none

def startsCreateTable (t : Text) : Bool :=
  ((afterPhrase? "CREATE TABLE".toList t).bind afterBlanks? |>.bind afterWord?).isSome

def startsPlainJoin (t : Text) : Bool :=
  (((afterPhrase? "FROM".toList t).bind afterBlanks?).bind afterWord? |>.bind afterBlanks?
    |>.bind (afterPhrase? "JOIN".toList) |>.bind afterBlanks? |>.bind afterWord?).isSome

def misspelling? (d : Dictionary) (word : Text) : Option Finding :=
  (d.correct? (upper word)).map fun fixed =>
    Rule.misspelledKeyword.finding ("Misspelled keyword: ".toList ++ upper word)
      ("Did you mean: ".toList ++ fixed ++ ['?'])

def lacksSemicolon (t : Text) : Bool :=
  match (trim t).getLast? with
  | none => false
  | some c => c != ';'

def lacksColumns (t : Text) : Bool :=
  !t.contains '(' && anySuffix startsCreateTable t

def unbalanced (t : Text) : Bool :=
  t.count '(' != t.count ')'

/-- Whether a text has `SELECT` and, somewhere after it, `GROUP BY`. What follows the first `SELECT`
contains what follows any other one. -/
def groupsSelection (t : Text) : Bool :=
  ((afterFirst? "SELECT".toList t).bind (afterFirst? "GROUP BY".toList)).isSome

def groupsAlone (t : Text) : Bool :=
  occursIn "GROUP BY".toList t && !groupsSelection t

/-- Whether a text joins, but nowhere one word directly to another. -/
def joinsOddly (t : Text) : Bool :=
  occursIn "JOIN".toList t && !anySuffix startsPlainJoin t

def flag (violated : Bool) (rule : Rule) (message suggestion : String) : List Finding :=
  if violated then [rule.finding message.toList suggestion.toList] else []

/-- The findings of one rule on a text; only spelling consults the dictionary. -/
def run (d : Dictionary) (rule : Rule) (t : Text) : List Finding :=
  match rule with
  | .misspelledKeyword => (words t).filterMap (misspelling? d)
  | .missingSemicolon =>
    flag (lacksSemicolon t) rule "Missing semicolon at the end of the query"
      "Ensure your query ends with a ';'"
  | .incompleteCreateTable =>
    flag (lacksColumns t) rule "Incomplete CREATE TABLE statement"
      "Ensure you define columns within parentheses, e.g., CREATE TABLE users (id INT, name VARCHAR(255));"
  | .unmatchedParentheses =>
    flag (unbalanced t) rule "Unmatched parentheses detected"
      "Ensure all opening parentheses '(' have matching closing parentheses ')'."
  | .groupByWithoutSelect =>
    flag (groupsAlone t) rule "Incorrect GROUP BY usage"
      "Ensure GROUP BY is used correctly after SELECT."
  | .incorrectJoin =>
    flag (joinsOddly t) rule "Incorrect JOIN syntax"
      "Ensure JOIN is used properly, e.g., SELECT * FROM users JOIN orders ON users.id = orders.user_id;"

end QueryTidy.Check
