/-
# Formats of reports

| format | report |
| --- | --- |
| text | blocks, or one line for each component if it is to be quiet |
| JSON | the list of verdicts, indented |

The compact JSON report has the same verdicts without blanks.  A JSON report ends with
a line end.
-/

import DependencyUse.Encoding.Result
import DependencyUse.Json.Writer
import DependencyUse.Report.Text

namespace DependencyUse

/-- The format of a report. -/
inductive OutputFormat where
  | text
  | json
deriving DecidableEq, Repr, Inhabited

namespace OutputFormat

/-- The name of a format. -/
def label : OutputFormat → String
  | .text => "text"
  | .json => "json"

/-- The format of a name. -/
def ofLabel? : String → Option OutputFormat
  | "text" => some .text
  | "json" => some .json
  | _ => none

end OutputFormat

namespace Report

/-- The verdicts as a JSON value. -/
def resultsJson (results : List ComponentResult) : Json.Value :=
  .array (results.map ComponentResult.toJson)

/-- A JSON report, with indented lines or without blanks. -/
def json (indented : Bool) (results : List ComponentResult) : String :=
  (if indented then (resultsJson results).pretty else (resultsJson results).compact) ++ "\n"

/-- A report in a format. -/
def render (format : OutputFormat) (colours details quiet : Bool) (results : List ComponentResult) :
    String :=
  match format with
  | .text => if quiet then compact results else text colours details results
  | .json => json true results

end Report
end DependencyUse
