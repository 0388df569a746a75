import QueryTidy.Json.Value
import QueryTidy.Report.Basic

/-!
Reports as JSON.
-/

set_option autoImplicit false
set_option relaxedAutoImplicit false

namespace QueryTidy.Report

def findingValue (f : Finding) : Json :=
  .object
    [("rule_id".toList, .string f.rule.id), ("message".toList, .string f.message),
     ("suggestion".toList, .string f.suggestion), ("severity".toList, .string f.severity.name)]

def value (r : Report) : Json :=
  .object
    [("source".toList, .string r.source), ("findings".toList, .array (r.findings.map findingValue))]

def json (reports : List Report) : Text :=
  (Json.array (reports.map value)).pretty

end QueryTidy.Report
