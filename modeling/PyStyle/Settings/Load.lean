import PyStyle.FileTree
import PyStyle.Settings.OfYaml

/-!
# Settings from files

- `settingsFileNames` — the files that settings are looked for in;
- `Disk.settingsFile?` — the first of them in a directory;
- `Disk.loadSettings` — the settings of a named file, or of the one that is found.
-/

namespace PyStyle

/-- The files that settings are looked for in, the most wanted first. -/
def settingsFileNames : List String :=
  ["strictpy.yaml", ".strictpy.yaml", "setup.strictpy.yaml"]

/-- Why a file holds no settings. -/
inductive SettingsFileError where
  | unreadable (path : String) (cause : AccessError)
  | invalid (path : String) (cause : SettingsTextError)
deriving DecidableEq, Repr

namespace SettingsFileError

/-- The error in words. -/
def message : SettingsFileError → String
  | unreadable path _ => "failed to read config " ++ path
  | invalid path _ => "invalid config " ++ path

/-- The error in words, with its cause. -/
def fullMessage (error : SettingsFileError) : String :=
  error.message ++ ": " ++
    match error with
    | unreadable _ cause => cause.message
    | invalid _ cause => cause.message

end SettingsFileError

namespace Disk

/-- The settings in a file. -/
def readSettings (disk : Disk) (path : String) : Except SettingsFileError Settings :=
  match (disk.read path).bind textOf with
  | .error e => .error (.unreadable path e)
  | .ok text =>
    match Settings.ofYaml text with
    | .error e => .error (.invalid path e)
    | .ok settings => .ok settings

/-- The settings file of a directory. -/
def settingsFile? (disk : Disk) (directory : String) : Option String :=
  (settingsFileNames.map (Path.join directory)).find? disk.isFile

/-- The settings of the named file, or of the one in the directory, or the defaults. -/
def loadSettings (disk : Disk) (named : Option String) (directory : String) :
    Except SettingsFileError Settings :=
  match named, disk.settingsFile? directory with
  | some path, _ => disk.readSettings path
  | none, some path => disk.readSettings path
  | none, none => .ok {}

end Disk

end PyStyle
