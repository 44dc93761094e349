/-!
# Forms of reports

A report is written as text with tables, or as an indented document.

## Operations

* `ReportFormat.name`, `ReportFormat.ofName?`.
-/

namespace Pushdown

/-- The forms of a report. -/
inductive ReportFormat where
  | table
  | json
deriving DecidableEq

namespace ReportFormat

/-- The name of a form. -/
def name : ReportFormat → String
  | table => "table"
  | json => "json"

/-- The form of a name. -/
def ofName? (text : String) : Option ReportFormat :=
  [table, json].find? fun form => form.name = text

end ReportFormat

end Pushdown
