import QueryTidy.Severity

/-!
The rules that a query is checked against, and what a violation is reported as.
-/

set_option autoImplicit false
set_option relaxedAutoImplicit false

namespace QueryTidy

/-- The rules, in the order in which they are checked. -/
inductive Rule
  | misspelledKeyword
  | missingSemicolon
  | incompleteCreateTable
  | unmatchedParentheses
  | groupByWithoutSelect
  | incorrectJoin
deriving DecidableEq

namespace Rule

def all : List Rule :=
  [misspelledKeyword, missingSemicolon, incompleteCreateTable, unmatchedParentheses,
   groupByWithoutSelect, incorrectJoin]

def id : Rule → Text
  | misspelledKeyword => "SQL001".toList
  | missingSemicolon => "SQL002".toList
  | incompleteCreateTable => "SQL003".toList
  | unmatchedParentheses => "SQL004".toList
  | groupByWithoutSelect => "SQL005".toList
  | incorrectJoin => "SQL006".toList

def name : Rule → Text
  | misspelledKeyword => "Misspelled keyword".toList
  | missingSemicolon => "Missing semicolon".toList
  | incompleteCreateTable => "Incomplete CREATE TABLE".toList
  | unmatchedParentheses => "Unmatched parentheses".toList
  | groupByWithoutSelect => "Invalid GROUP BY usage".toList
  | incorrectJoin => "Incorrect JOIN syntax".toList

def severity (_ : Rule) : Severity :=
  .error

/-- Whether a text names a rule, without regard to ASCII case. -/
def namedBy (rule : Rule) (t : Text) : Bool :=
  t.map Char.toUpper == rule.id

end Rule

structure Finding where
  rule : Rule
  message : Text
  suggestion : Text
  severity : Severity
deriving DecidableEq

def Rule.finding (rule : Rule) (message suggestion : Text) : Finding :=
  ⟨rule, message, suggestion, rule.severity⟩

end QueryTidy
