import QueryTidy.Report.Style
import QueryTidy.Rule

/-!
Reports for people: the findings on one query, line by line, and the exit code that a list of
reports asks for.
-/

set_option autoImplicit false
set_option relaxedAutoImplicit false

namespace QueryTidy

structure Report where
  source : Text
  findings : List Finding
deriving DecidableEq

namespace Report

def labelStyle : Severity → Style
  | .error => .redBold
  | .warning => .yellowBold
  | .info => .blue

def paintIf (coloured : Bool) (style : Style) (t : Text) : Text :=
  if coloured then style.paint t else t

def findingLine (coloured : Bool) (f : Finding) : Text :=
  paintIf coloured (labelStyle f.severity) f.severity.label ++ " [".toList ++ f.rule.id ++
    "] ".toList ++ f.message ++ " - ".toList ++ f.suggestion

def plain (coloured : Bool) (r : Report) : Text :=
  if r.findings.isEmpty then
    paintIf coloured .green (r.source ++ ": No issues found!".toList) ++ ['\n']
  else
    paintIf coloured .bold (r.source ++ [':']) ++ ['\n'] ++
      r.findings.flatMap fun f => "  ".toList ++ findingLine coloured f ++ ['\n']

def plainAll (coloured : Bool) (reports : List Report) : Text :=
  Text.joinWith ['\n'] (reports.map (plain coloured))

/-- The exit code of a run: two for errors, one for warnings, zero for less. -/
def exitCode (reports : List Report) : Nat :=
  (reports.flatMap Report.findings).foldl (fun worst f => max worst f.severity.rank) 0

end Report

end QueryTidy
