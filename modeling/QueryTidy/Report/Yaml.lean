import QueryTidy.Report.Basic
import QueryTidy.Yaml.Scalar

/-!
Reports as YAML: a sequence of mappings in block style.
-/

set_option autoImplicit false
set_option relaxedAutoImplicit false

namespace QueryTidy.Report

def yamlMember (indent : Nat) (name : String) (t : Text) : Text :=
  name.toList ++ ": ".toList ++ Yaml.scalar (indent + 2) t

def yamlFinding (f : Finding) : Text :=
  "  - ".toList ++ yamlMember 4 "rule_id" f.rule.id ++
    "    ".toList ++ yamlMember 4 "message" f.message ++
    "    ".toList ++ yamlMember 4 "suggestion" f.suggestion ++
    "    ".toList ++ yamlMember 4 "severity" f.severity.name

def yamlReport (r : Report) : Text :=
  "- ".toList ++ yamlMember 2 "source" r.source ++
    if r.findings.isEmpty then "  findings: []\n".toList
    else "  findings:\n".toList ++ r.findings.flatMap yamlFinding

def yaml (reports : List Report) : Text :=
  if reports.isEmpty then "[]\n".toList else reports.flatMap yamlReport

end QueryTidy.Report
