import PyStyle.FileTree
import PyStyle.SourceUnit.OfJson
import PyStyle.Text.Quoted

/-!
# Units from files

The extension of a path says how its file is read: source texts are parsed, and JSON files
hold units that have been parsed already.

- `LoadError` — why a file is no unit;
- `SourceUnit.load` — the unit of a file.
-/

namespace PyStyle

/-- Why a file is no unit. -/
inductive LoadError where
  | access (error : AccessError)
  | source (error : SourceError)
  | json (error : JsonError)
  /-- Files with this extension cannot be read. -/
  | unsupported (extension : String)
deriving DecidableEq, Repr

namespace LoadError

/-- The error in words. -/
def message : LoadError → String
  | access e => "io error: " ++ e.message
  | source e => e.message
  | json e => "invalid unit file: " ++ e.message
  | unsupported extension => "no frontend for files with extension " ++ Text.quoted extension

/-- Where in the source text the error is, if it is in one. -/
def position? : LoadError → Option Position
  | source e => some e.position
  | _ => none

end LoadError

namespace SourceUnit

/-- The unit of a JSON text; one that does not name its path has the path of its file. -/
def loadJson (path text : String) : Except LoadError SourceUnit :=
  match ofJson text with
  | .error e => .error (.json e)
  | .ok unit => .ok (if unit.path.isEmpty then { unit with path } else unit)

/-- The unit of a source text. -/
def loadSource (path text : String) : Except LoadError SourceUnit :=
  match ofSource path text with
  | .error e => .error (.source e)
  | .ok unit => .ok unit

/-- The unit of a file, given its path and its content. An extension that cannot be read is
noticed before the content is looked at. -/
def load (path : String) (content : Except AccessError ByteArray) :
    Except LoadError SourceUnit :=
  let extension := Path.extension path
  let reader? := match extension with
    | "json" => some loadJson
    | "py" => some loadSource
    | "pyi" => some loadSource
    | _ => none
  match reader? with
  | none => .error (.unsupported extension)
  | some reader =>
    match content.bind textOf with
    | .error e => .error (.access e)
    | .ok text => reader path text

end SourceUnit

end PyStyle
