import QueryTidy.Check

/-!
The analyzer: the enabled rules in order, each with the grade at which its violations are reported.
-/

set_option autoImplicit false
set_option relaxedAutoImplicit false

namespace QueryTidy

/-- Which rules are off, and the grades given to rules by name, in the order in which they are
looked up. -/
structure RuleSettings where
  disabled : List Text := []
  severity : List (Text × Text) := []
deriving DecidableEq

namespace RuleSettings

def enables (s : RuleSettings) (rule : Rule) : Bool :=
  !s.disabled.any rule.namedBy

/-- The grade that is written for a rule: the first entry that names it. -/
def written? (s : RuleSettings) (rule : Rule) : Option Text :=
  (s.severity.find? fun entry => rule.namedBy entry.1).map Prod.snd

/-- The grade at which violations of a rule are reported; an unreadable one counts for nothing. -/
def severityOf (s : RuleSettings) (rule : Rule) : Severity :=
  ((s.written? rule).bind Severity.ofName?).getD rule.severity

def unreadable (s : RuleSettings) : List (Rule × Text) :=
  (Rule.all.filter s.enables).filterMap fun rule =>
    match s.written? rule with
    | some t => if (Severity.ofName? t).isNone then some (rule, t) else none
    | none => none

end RuleSettings

structure Analyzer where
  settings : RuleSettings
  dictionary : Dictionary
deriving DecidableEq

namespace Analyzer

def default : Analyzer :=
  ⟨{}, Dictionary.builtin⟩

def rules (a : Analyzer) : List Rule :=
  Rule.all.filter a.settings.enables

/-- The findings of the enabled rules on a query without the blanks at its ends, rule by rule. -/
def analyze (a : Analyzer) (t : Text) : List Finding :=
  (a.rules.flatMap fun rule => Check.run a.dictionary rule (Text.trim t)).map fun finding =>
    { finding with severity := a.settings.severityOf finding.rule }

end Analyzer

end QueryTidy
