import PyStyle.Report

/-!
# Reports for people

- `Style` — how a text stands out;
- `Palette` — are colours on?
- `LintResult.pretty` — what was found, in words;
- `Catalog.pretty` — the rules of a catalog, by category.
-/

namespace PyStyle

/-- How a text stands out. -/
inductive Style where
  | title
  | bold
  | faint
  | red
  | green
  | yellow
  | blue
  | cyan
deriving DecidableEq, Repr

namespace Style

/-- The parameters of the escape sequence that turns the style on. -/
def parameters : Style → String
  | title => "1;36"
  | bold => "1"
  | faint => "2"
  | red => "31"
  | green => "32"
  | yellow => "33"
  | blue => "34"
  | cyan => "36"

/-- The escape sequence that turns the style on. -/
def on (style : Style) : String :=
  "\x1b[" ++ style.parameters ++ "m"

/-- The escape sequence that turns every style off. -/
def off : String := "\x1b[0m"

end Style

/-- Are colours on? -/
structure Palette where
  isColored : Bool

/-- The text in a style. Where the text turns styles off itself, the style is turned on
again. -/
def Palette.paint (palette : Palette) (style : Style) (text : String) : String :=
  if palette.isColored then
    let restored := Text.replaceAll Style.off.toList (Style.off ++ style.on).toList text.toList
    style.on ++ String.ofList restored ++ Style.off
  else text

/-- The text, filled up with blanks to a width. -/
def padRight (width : Nat) (text : String) : String :=
  text ++ String.ofList (List.replicate (width - text.length) ' ')

/-- The text as a line. -/
def line (text : String) : String :=
  text ++ "\n"

/-! ### Results -/

/-- A file and a position in it. -/
def Finding.place (palette : Palette) (finding : Finding) : String :=
  palette.paint .blue finding.file
    ++ palette.paint .faint (":" ++ finding.violation.position.display)

/-- A violation: its code and place, and below them the message. -/
def Finding.prettyViolation (palette : Palette) (finding : Finding) : String :=
  line ("    " ++ palette.paint .red (formatCode finding.violation.code) ++ " "
      ++ finding.place palette)
    ++ line ("          " ++ finding.violation.message)

/-- A silenced violation: its code and place. -/
def Finding.prettySuppressed (palette : Palette) (finding : Finding) : String :=
  line ("    " ++ palette.paint .faint (padRight 8 (formatCode finding.violation.code))
    ++ finding.place palette)

namespace LintResult

/-- The heading. -/
def prettyHead (result : LintResult) (palette : Palette) (path : String) : String :=
  line ""
    ++ line ("  " ++ palette.paint .title programName ++ " v" ++ programVersion)
    ++ line ""
    ++ line ("  " ++ palette.paint .faint "Scanning: " ++ path
      ++ " (" ++ toString result.fileCount ++ " files)")
    ++ line ""

/-- The violations, if there are any. -/
def prettyViolations (result : LintResult) (palette : Palette) : String :=
  if result.violationCount == 0 then ""
  else
    line ("  " ++ palette.paint .bold "Violations" ++ " ("
        ++ toString result.violationCount ++ "):")
      ++ line ""
      ++ String.join (result.violations.map (·.prettyViolation palette))
      ++ line ""

/-- The silenced violations, if there are any: how many, and each one if that is asked
for. -/
def prettySuppressed (result : LintResult) (palette : Palette) (showSuppressed : Bool) :
    String :=
  if result.suppressedCount == 0 then ""
  else
    line ("  " ++ palette.paint .faint "Suppressed" ++ " ("
        ++ toString result.suppressedCount ++ "):")
      ++ (if showSuppressed then
            String.join (result.suppressed.map (Finding.prettySuppressed palette))
          else line ("    " ++ palette.paint .faint "(use --show-suppressed to see details)"))
      ++ line ""

/-- The last line: passed or not, and the totals. -/
def prettyStatus (result : LintResult) (palette : Palette) : String :=
  let count := result.violationCount
  let verdict :=
    if result.passed then palette.paint .green "✓ PASS" else palette.paint .red "✗ FAIL"
  let ignored :=
    if result.ignoredCount == 0 then ""
    else "  " ++ palette.paint .faint
      ("(" ++ toString result.ignoredCount ++ " ignored by config)")
  let faults :=
    if result.faultCount == 0 then ""
    else "  " ++ palette.paint .yellow ("(" ++ toString result.faultCount ++ " check faults)")
  line ("  " ++ verdict ++ "  " ++ toString count ++ " violation"
    ++ (if count == 1 then "" else "s") ++ ignored ++ faults)

/-- What was found below a path. -/
def pretty (result : LintResult) (palette : Palette) (path : String) (showSuppressed : Bool) :
    String :=
  result.prettyHead palette path ++ result.prettyViolations palette
    ++ result.prettySuppressed palette showSuppressed ++ result.prettyStatus palette
    ++ line ""

end LintResult

/-! ### Rules -/

/-- A rule: its code, name and message. -/
def Rule.pretty (palette : Palette) (rule : Rule) : String :=
  line ("    " ++ palette.paint .cyan (formatCode rule.code) ++ " " ++ padRight 32 rule.name
    ++ " " ++ palette.paint .faint (rule.render none))

/-- The rules of one category below its name. -/
def Catalog.prettyCategory (catalog : Catalog) (palette : Palette) (category : Category) :
    String :=
  line ""
    ++ line ("  " ++ palette.paint .bold category.label ++ " (" ++ toString category.base ++ ")")
    ++ String.join ((catalog.rulesOf category).map (Rule.pretty palette))

/-- The rules of a catalog, or of one of its categories. -/
def Catalog.pretty (catalog : Catalog) (palette : Palette) (category : Option Category) :
    String :=
  let shown := catalog.categories.filter fun c => category.all (· == c)
  String.join (shown.map (catalog.prettyCategory palette)) ++ line ""

end PyStyle
