import PyStyle.CommandLine.Invocation
import PyStyle.Report.Pretty
import PyStyle.Settings.Load

/-!
# Running a command

- `Completion` — what a run prints, and its exit code;
- `Environment` — what a run can see: the disk, the working directory, colours;
- `Command.paths` — the paths that a run looks at;
- `Command.run` — a run of a command.
-/

namespace PyStyle

/-- What a run leaves behind. -/
structure Completion where
  exitCode : Nat
  stdout : String
  stderr : String
deriving DecidableEq, Repr

namespace Completion

/-- A run that was successful, or found violations. -/
def report (passed : Bool) (text : String) : Completion :=
  { exitCode := if passed then 0 else 1, stdout := text, stderr := "" }

/-- A run that had nothing to do. -/
def warning (message : String) : Completion :=
  { exitCode := 0, stdout := "", stderr := line ("Warning: " ++ message) }

/-- A run that could not do its work. -/
def failure (message : String) : Completion :=
  { exitCode := 2, stdout := "", stderr := line ("Error: " ++ message) }

end Completion

/-- What a run can see. -/
structure Environment where
  disk : Disk
  /-- The directory in which settings are looked for. -/
  directory : String
  palette : Palette

/-- How messages quote a path: both sorts of quotes are written with a backslash. -/
def quotedPath (path : String) : String :=
  let escape := fun c => if c == '\'' then ['\\', c] else Text.quoteChar '"' c
  String.ofList ('"' :: path.toList.flatMap escape ++ ['"'])

/-- The settings with the limits of the options. -/
def LintOptions.override (options : LintOptions) (settings : Settings) : Settings :=
  { settings with
    maxCognitiveScore := options.maxCognitiveScore.getD settings.maxCognitiveScore
    maxCognitiveAverage := options.maxCognitiveAverage.getD settings.maxCognitiveAverage }

namespace LintOptions

/-- The valid settings of a run, or what is wrong with them. -/
def settings (options : LintOptions) (env : Environment) (catalog : Catalog) :
    Except String Settings :=
  match env.disk.loadSettings options.config env.directory with
  | .error e => .error e.fullMessage
  | .ok loaded =>
    let settings := options.override loaded
    match settings.validate catalog with
    | .error e => .error e.fullMessage
    | .ok () => .ok settings

/-- The text of a result. -/
def write (options : LintOptions) (env : Environment) (result : LintResult) : String :=
  match options.format with
  | .json => line (Report.of options.path result options.showSuppressed).printed.render
  | .pretty => result.pretty env.palette options.path options.showSuppressed

/-- A lint run. The settings are looked at first, then the path. -/
def run (options : LintOptions) (env : Environment) (catalog : Catalog) : Completion :=
  match options.settings env catalog with
  | .error message => .failure ("invalid config: " ++ message)
  | .ok settings =>
    if !env.disk.exists? options.path then
      .failure ("cannot access path " ++ quotedPath options.path)
    else
      match env.disk.collect settings options.path with
      | .error e => .failure e.message
      | .ok [] => .warning "no files to lint"
      | .ok files =>
        let result := (Linter.standard catalog settings).lintFiles files
        .report result.passed (options.write env result)

end LintOptions

namespace CodesOptions

/-- The category of a listing; none stands for all of them. -/
def category? (options : CodesOptions) : Except String (Option Category) :=
  match options.category with
  | none => .ok none
  | some name =>
    match Category.ofLabel? name with
    | some category => .ok (some category)
    | none =>
      .error ("unknown category " ++ Text.quoted name ++ " (expected one of: "
        ++ ", ".intercalate (Category.all.map (·.label)) ++ ")")

/-- A listing of codes. -/
def run (options : CodesOptions) (env : Environment) (catalog : Catalog) : Completion :=
  match options.category? with
  | .error message => .failure message
  | .ok category =>
    .report true <|
      match options.format with
      | .json => line (Printed.list ((catalog.entries category).map (·.printed))).render
      | .pretty => catalog.pretty env.palette category

end CodesOptions

/-- The paths that a run of a command looks at. -/
def Command.paths (command : Command) (directory : String) : List String :=
  match command with
  | .lint options =>
    options.path :: options.config.toList ++ settingsFileNames.map (Path.join directory)
  | .codes _ => []

/-- A run of a command. -/
def Command.run (command : Command) (env : Environment) : Completion :=
  match Catalog.standard with
  | .error e => .failure e.message
  | .ok catalog =>
    match command with
    | .lint options => options.run env catalog
    | .codes options => options.run env catalog

end PyStyle
