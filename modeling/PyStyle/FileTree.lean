import PyStyle.Path

/-!
# Files and directories

- `FileTree` — a file, or a directory with its entries;
- `FileTree.put` — a tree with one more file;
- `AccessError` — why nothing can be read at a path;
- `Disk` — what is found at a path;
- `FileTree.disk` — the disk on which a tree is the working directory.
-/

namespace PyStyle

/-- A file or a directory. -/
inductive FileTree where
  | file (content : ByteArray)
  | directory (entries : List (String × FileTree))

/-- Why nothing can be read at a path. -/
inductive AccessError where
  | notFound
  | notADirectory
  | isADirectory
  | nameTooLong
  /-- The path holds a character that no name may hold. -/
  | invalidName
  /-- The content is no text. -/
  | notText
deriving DecidableEq, Repr

namespace AccessError

/-- The error in words. -/
def message : AccessError → String
  | notFound => "No such file or directory (os error 2)"
  | notADirectory => "Not a directory (os error 20)"
  | isADirectory => "Is a directory (os error 21)"
  | nameTooLong => "File name too long (os error 36)"
  | invalidName => "file name contained an unexpected NUL byte"
  | notText => "stream did not contain valid UTF-8"

end AccessError

namespace FileTree

/-- A directory without entries. -/
def empty : FileTree :=
  .directory []

/-- The entries of a directory with one of them replaced, or added at the end. -/
def setEntry (name : String) (tree : FileTree) : List (String × FileTree) → List (String × FileTree)
  | [] => [(name, tree)]
  | (other, old) :: rest =>
    if other == name then (name, tree) :: rest else (other, old) :: setEntry name tree rest

/-- The entries of a directory; a file has none. -/
def entries : FileTree → List (String × FileTree)
  | .file _ => []
  | .directory entries => entries

/-- The tree with something put below it; the directories on the way are made. -/
def put (tree : FileTree) (names : List String) (leaf : FileTree) : FileTree :=
  match names with
  | [] => leaf
  | name :: rest =>
    let below := (tree.entries.lookup name).getD empty
    .directory (setEntry name (below.put rest leaf) tree.entries)

/-! ### Finding -/

/-- The longest name an entry may have, in bytes. -/
def maxNameBytes : Nat := 255

/-- Follow the pieces of a path. `above` are the directories above the one reached, the
nearest first. An empty piece and a dot stay in a directory. -/
def follow (above : List FileTree) (tree : FileTree) : List String → Except AccessError FileTree
  | [] => .ok tree
  | piece :: rest =>
    match tree with
    | .file _ => .error .notADirectory
    | .directory entries =>
      if piece == "" || piece == "." then follow above tree rest
      else if piece == ".." then
        match above with
        | [] => .error .notFound
        | parent :: higher => follow higher parent rest
      else if maxNameBytes < piece.utf8ByteSize then .error .nameTooLong
      else
        match entries.lookup piece with
        | none => .error .notFound
        | some below => follow (tree :: above) below rest

end FileTree

/-- What is found at a path. -/
structure Disk where
  find : String → Except AccessError FileTree

/-- The disk on which a tree is the working directory and nothing else is known. -/
def FileTree.disk (tree : FileTree) : Disk where
  find path :=
    if path.contains '\x00' then .error .invalidName
    else
      match Path.pieces path with
      | "" :: _ => .error .notFound
      | pieces => follow [] tree pieces

namespace Disk

/-- The disk on which only the given paths are known. -/
def ofFound (found : List (String × Except AccessError FileTree)) : Disk where
  find path := (found.lookup path).getD (.error .notFound)

/-- Is there a file at the path? -/
def isFile (disk : Disk) (path : String) : Bool :=
  match disk.find path with
  | .ok (.file _) => true
  | _ => false

/-- Is there anything at the path? -/
def exists? (disk : Disk) (path : String) : Bool :=
  (disk.find path).toBool

/-- The content of the file at the path. -/
def read (disk : Disk) (path : String) : Except AccessError ByteArray :=
  match disk.find path with
  | .ok (.file content) => .ok content
  | .ok (.directory _) => .error .isADirectory
  | .error e => .error e

end Disk

/-- The text that a content encodes. -/
def textOf (content : ByteArray) : Except AccessError String :=
  match String.fromUTF8? content with
  | some text => .ok text
  | none => .error .notText

end PyStyle
