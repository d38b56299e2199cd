import PyStyle.CommandLine.Run

/-!
# The command line program

Reads what the command looks at from the disk, runs the command and prints what it leaves
behind.
-/

namespace PyStyle.Main

/-- What a failed access means. -/
def accessError : IO.Error → AccessError
  | .inappropriateType .. => .notADirectory
  | .invalidArgument .. => .invalidName
  | _ => .notFound

/-- Everything below an entry. Directories that are never entered are left empty, and so are
files that are no source files, unless the entry was asked for. -/
partial def snapshot (isAsked : Bool) (entry : IO.FS.DirEntry) : IO FileTree := do
  let metadata ← entry.path.metadata
  if metadata.type == .dir then
    if isAsked || entersDirectory entry.fileName then
      let entries ← entry.path.readDir
      return .directory
        (← entries.toList.mapM fun below => do return (below.fileName, ← snapshot false below))
    else return .empty
  else if isAsked || sourceExtensions.contains (Path.extension entry.fileName) then
    return .file (← IO.FS.readBinFile entry.path)
  else return .file .empty

/-- What is found at a path. -/
def find (path : String) : IO (Except AccessError FileTree) := do
  try
    let entry : IO.FS.DirEntry :=
      if path.startsWith "/" then ⟨"/", (path.dropWhile (· == '/')).toString⟩ else ⟨".", path⟩
    return .ok (← snapshot true entry)
  catch e => return .error (accessError e)

/-- The disk as far as a command looks at it. -/
def disk (command : Command) (directory : String) : IO Disk := do
  let found ← (command.paths directory).mapM fun path => do return (path, ← find path)
  return .ofFound found

/-- Print what a run leaves behind. -/
def finish (completion : Completion) : IO UInt32 := do
  IO.print completion.stdout
  IO.eprint completion.stderr
  return completion.exitCode.toUInt32

/-- How the program is used. -/
def usage : String :=
  line ("Usage: " ++ programName ++ " [-v] lint <PATH> [-c <CONFIG>] [-f <FORMAT>] "
      ++ "[--show-suppressed]")
    ++ line ("           [--max-cognitive-score <N>] [--max-cognitive-average <N>]")
    ++ line ("       " ++ programName ++ " [-v] codes [--category <CATEGORY>] [-f <FORMAT>]")

/-- What is printed when the words are no invocation. -/
def refuse (error : UsageError) : Completion :=
  match error with
  | .help => { exitCode := error.exitCode, stdout := usage, stderr := "" }
  | .version =>
    { exitCode := error.exitCode
      stdout := line (programName ++ " " ++ programVersion)
      stderr := "" }
  | _ => { exitCode := error.exitCode, stdout := "", stderr := usage }

/-- Run the program. -/
def run (words : List String) : IO UInt32 := do
  match Invocation.ofWords words with
  | .error e => finish (refuse e)
  | .ok invocation =>
    let directory := (← IO.currentDir).toString
    let disk ← disk invocation.command directory
    let palette : Palette := ⟨← (← IO.getStdout).isTty⟩
    finish (invocation.command.run { disk, directory, palette })

end PyStyle.Main

/-- Run the program. -/
def main (words : List String) : IO UInt32 :=
  PyStyle.Main.run words
