import PyStyle.JsonValue.Printed
import PyStyle.Lint

/-!
# Reports

- `Report` — what was found below a path, for other programs;
- `Report.of` — the report of a result;
- `CodeEntry` — a rule as it is listed;
- `Report.printed`, `CodeEntry.printed` — both as JSON.
-/

namespace PyStyle

/-- The name of the program. -/
def programName : String := "strictpy"

/-- The version of the program. -/
def programVersion : String := "0.1.0"

/-- A violation together with its file. -/
structure Finding where
  file : String
  violation : Violation
deriving DecidableEq, Repr

/-- A fault together with its file. -/
structure FaultFinding where
  file : String
  fault : Fault
deriving DecidableEq, Repr

/-- What was found below a path. -/
structure Report where
  path : String
  passed : Bool
  fileCount : Nat
  violations : List Finding
  suppressedCount : Nat
  /-- The silenced violations, if they are asked for. -/
  suppressed : List Finding
  ignoredCount : Nat
  faults : List FaultFinding
deriving DecidableEq, Repr

namespace LintResult

/-- All violations, file by file. -/
def violations (result : LintResult) : List Finding :=
  result.reports.flatMap fun report => report.violations.map (⟨report.path, ·⟩)

/-- All silenced violations, file by file. -/
def suppressed (result : LintResult) : List Finding :=
  result.reports.flatMap fun report => report.suppressed.map (⟨report.path, ·⟩)

/-- All faults, file by file. -/
def faults (result : LintResult) : List FaultFinding :=
  result.reports.flatMap fun report => report.faults.map (⟨report.path, ·⟩)

end LintResult

namespace Report

/-- The report of a result. -/
def of (path : String) (result : LintResult) (showSuppressed : Bool) : Report :=
  { path
    passed := result.passed
    fileCount := result.fileCount
    violations := result.violations
    suppressedCount := result.suppressedCount
    suppressed := if showSuppressed then result.suppressed else []
    ignoredCount := result.ignoredCount
    faults := result.faults }

end Report

/-! ### As JSON -/

/-- The place of a finding. -/
def Position.printed (position : Position) : List (String × Printed) :=
  [("line", .natural position.line), ("column", .natural position.column)]

/-- A violation as JSON. -/
def Finding.printed (finding : Finding) : Printed :=
  let violation := finding.violation
  .record
    ([("code", .text (formatCode violation.code)),
      ("category", .text violation.category.label),
      ("file", .text finding.file)]
      ++ violation.position.printed
      ++ [("message", .text violation.message)])

/-- A fault as JSON. -/
def FaultFinding.printed (finding : FaultFinding) : Printed :=
  .record
    ([("check", .text finding.fault.check), ("file", .text finding.file)]
      ++ finding.fault.position.printed
      ++ [("message", .text finding.fault.message)])

/-- A member that is left out if its list is empty. -/
def optionalList (key : String) (items : List Printed) : List (String × Printed) :=
  if items.isEmpty then [] else [(key, .list items)]

/-- The report as JSON. -/
def Report.printed (report : Report) : Printed :=
  .record
    ([("version", .text programVersion),
      ("path", .text report.path),
      ("passed", .bool report.passed),
      ("files_scanned", .natural report.fileCount),
      ("violations", .list (report.violations.map (·.printed))),
      ("suppressed_count", .natural report.suppressedCount)]
      ++ optionalList "suppressed" (report.suppressed.map (·.printed))
      ++ [("ignored_count", .natural report.ignoredCount)]
      ++ optionalList "faults" (report.faults.map (·.printed)))

/-! ### The rules of a catalog -/

/-- A rule as it is listed. -/
structure CodeEntry where
  code : String
  name : String
  category : Category
  template : String
deriving DecidableEq, Repr

/-- The rules of a catalog, or of one of its categories, in the order of their codes. -/
def Catalog.entries (catalog : Catalog) (category : Option Category) : List CodeEntry :=
  (catalog.rules.filter fun rule => category.all (· == rule.category)).map fun rule =>
    { code := formatCode rule.code
      name := rule.name
      category := rule.category
      template := rule.template }

/-- The entry as JSON. -/
def CodeEntry.printed (entry : CodeEntry) : Printed :=
  .record
    [("code", .text entry.code), ("name", .text entry.name),
     ("category", .text entry.category.label), ("message", .text entry.template)]

end PyStyle
