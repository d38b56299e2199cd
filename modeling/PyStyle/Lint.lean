import PyStyle.Check.Standard
import PyStyle.Collection
import PyStyle.SourceUnit.Load

/-!
# Linting

Linting a unit runs the checks, turns every fault into a violation of its own, and then
applies the directives in comments and the ignored codes, in this order.

- `Linter` — a catalog, checks and ignored codes;
- `Linter.lintUnit`, `Linter.lintFile`, `Linter.lintFiles` — what is found in a unit, a file
  and several files;
- `LintResult` — the reports of several files and their totals.
-/

namespace PyStyle

/-- What linting needs to know. -/
structure Linter where
  catalog : Catalog
  registry : Registry
  /-- Codes whose violations are dropped. -/
  ignored : List Nat

namespace Linter

/-- A linter with given checks. -/
def withRegistry (catalog : Catalog) (registry : Registry) (settings : Settings) : Linter :=
  { catalog, registry, ignored := settings.ignoredCodes catalog }

/-- A linter with the standard checks. -/
def standard (catalog : Catalog) (settings : Settings) : Linter :=
  withRegistry catalog (.standard settings) settings

end Linter

/-- The violation that a fault is reported as. -/
def Fault.violation (fault : Fault) : Violation :=
  .of Rule.internalError fault.position (some (fault.check ++ ": " ++ fault.message))

/-- The report with a violation for every fault, behind the others. -/
def UnitReport.withFaults (report : UnitReport) : UnitReport :=
  { report with violations := report.violations ++ report.faults.map (·.violation) }

/-- The violation that a file which is no unit is reported as. -/
def LoadError.violation (error : LoadError) : Violation :=
  .of Rule.syntaxError (error.position?.getD ⟨1, 0⟩) (some error.message)

namespace Linter

/-- What is found in a unit. -/
def lintUnit (linter : Linter) (unit : SourceUnit) : UnitReport :=
  let report := (analyze linter.catalog linter.registry unit).withFaults
  (report.suppress unit.tokens).dropIgnored linter.ignored

/-- What is found in a file that is no unit. No comment can silence it. -/
def lintFailure (linter : Linter) (path : String) (error : LoadError) : UnitReport :=
  { UnitReport.empty path with violations := [error.violation] }.dropIgnored linter.ignored

/-- What is found in a file. -/
def lintFile (linter : Linter) (file : SourceFile) : UnitReport :=
  match SourceUnit.load file.path file.content with
  | .ok unit => linter.lintUnit unit
  | .error e => linter.lintFailure file.path e

end Linter

/-- The reports of several files. -/
structure LintResult where
  reports : List UnitReport

namespace LintResult

/-- The number of files. -/
def fileCount (result : LintResult) : Nat :=
  result.reports.length

/-- What the reports count, added up. -/
def total (result : LintResult) (count : UnitReport → Nat) : Nat :=
  result.reports.foldr (fun report rest => count report + rest) 0

/-- The number of violations. -/
def violationCount (result : LintResult) : Nat :=
  result.total (·.violations.length)

/-- The number of violations that comments silence. -/
def suppressedCount (result : LintResult) : Nat :=
  result.total (·.suppressed.length)

/-- The number of violations that were dropped. -/
def ignoredCount (result : LintResult) : Nat :=
  result.total (·.ignored)

/-- The number of faults. -/
def faultCount (result : LintResult) : Nat :=
  result.total (·.faults.length)

/-- Is there no violation? -/
def passed (result : LintResult) : Bool :=
  result.violationCount == 0

end LintResult

/-- What is found in several files, ordered by the paths of the reports. Reports of one path
stay in the order of their files. -/
def Linter.lintFiles (linter : Linter) (files : List SourceFile) : LintResult where
  reports := (files.map linter.lintFile).mergeSort fun a b => a.path ≤ b.path

end PyStyle
