import PyStyle.FileTree
import PyStyle.Settings

/-!
# Collecting files

A file that is named is always taken. Below a directory the source files are taken, except
those in hidden and generated directories, those that a pattern excludes, and perhaps tests.

- `SourceFile` — a file to look at;
- `FileTree.sourceFiles` — the source files below a directory;
- `Disk.collect` — the files that a path stands for, in order.
-/

namespace PyStyle

/-- A file to look at, with its content or the reason why there is none. -/
structure SourceFile where
  path : String
  content : Except AccessError ByteArray

/-- Why files cannot be collected. -/
inductive CollectionError where
  | settings (error : SettingsError)
  /-- There is nothing at the path. -/
  | access (path : String) (error : AccessError)
deriving DecidableEq, Repr

namespace CollectionError

/-- The error in words. -/
def message : CollectionError → String
  | settings e => e.message
  | access path e => "IO error for operation on " ++ path ++ ": " ++ e.message

end CollectionError

/-- The extensions of source files. -/
def sourceExtensions : List String :=
  ["py", "pyi"]

/-- Directories that are never entered. -/
def skippedDirectories : List String :=
  ["__pycache__", "node_modules", "venv", "site-packages", "build", "dist"]

/-- Is a directory of this name entered? -/
def entersDirectory (name : String) : Bool :=
  !name.startsWith "." && !skippedDirectories.contains name

/-- Which files below a directory are taken, by their path relative to it. -/
structure Selection where
  exclusions : Exclusions
  includesTests : Bool

/-- Is the file at a relative path taken? -/
def Selection.takes (selection : Selection) (relative : String) : Bool :=
  sourceExtensions.contains (Path.extension relative)
    && !selection.exclusions.covers relative
    && (selection.includesTests || !Path.isTest relative)

mutual

/-- The source files of an entry, given the path of its directory, the relative path of its
directory and its name. -/
def FileTree.sourceFilesAt (selection : Selection) (directory relative name : String) :
    FileTree → List SourceFile
  | .file content =>
    if selection.takes (Path.join relative name) then
      [{ path := Path.join directory name, content := .ok content }]
    else []
  | .directory entries =>
    if entersDirectory name then
      FileTree.sourceFiles selection (Path.join directory name) (Path.join relative name) entries
    else []

/-- The source files of the entries of a directory. -/
def FileTree.sourceFiles (selection : Selection) (directory relative : String) :
    List (String × FileTree) → List SourceFile
  | [] => []
  | (name, tree) :: rest =>
    FileTree.sourceFilesAt selection directory relative name tree
      ++ FileTree.sourceFiles selection directory relative rest

end

/-- The files that a path stands for, ordered by their paths. The patterns of the settings
are only looked at if the path is no file. -/
def Disk.collect (disk : Disk) (settings : Settings) (root : String) :
    Except CollectionError (List SourceFile) :=
  match disk.find root with
  | .ok (.file content) => .ok [{ path := root, content := .ok content }]
  | found =>
    match settings.exclusions with
    | .error e => .error (.settings e)
    | .ok exclusions =>
      let selection : Selection := { exclusions, includesTests := settings.includesTests }
      match found with
      | .error e => .error (.access root e)
      | .ok (.file _) => .ok []
      | .ok (.directory entries) =>
        .ok ((FileTree.sourceFiles selection root "" entries).mergeSort
          fun a b => Path.le a.path b.path)

/-- Files that are named one by one. -/
def Disk.named (disk : Disk) (paths : List String) : List SourceFile :=
  paths.map fun path => { path, content := disk.read path }

end PyStyle
