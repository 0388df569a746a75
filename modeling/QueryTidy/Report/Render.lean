import QueryTidy.Report.Json
import QueryTidy.Report.Yaml

/-!
Reports in the format that is asked for.
-/

set_option autoImplicit false
set_option relaxedAutoImplicit false

namespace QueryTidy.Report

inductive Format
  | text
  | json
  | yaml
deriving DecidableEq

structure Options where
  format : Format := .text
  coloured : Bool := true
deriving DecidableEq

def Options.ofFlags (format : Format) (noColor : Bool) : Options :=
  ⟨format, !noColor⟩

/-- Reports as text; colours show only on a terminal. -/
def render (terminal : Bool) (options : Options) (reports : List Report) : Text :=
  match options.format with
  | .text => plainAll (options.coloured && terminal) reports
  | .json => json reports
  | .yaml => yaml reports

end QueryTidy.Report
