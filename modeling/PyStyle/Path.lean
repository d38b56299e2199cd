/-!
# Paths

Paths are texts whose parts are divided by slashes. A path is read part by part:
repeated slashes count once, and a dot part counts only at the very front.

- `Path.parts` — the parts of a path;
- `Path.fileName?`, `Path.extension` — its last part, and what follows the last dot there;
- `Path.join` — a name below a directory;
- `Path.le` — the order in which collected files are listed.
-/

namespace PyStyle

/-- One part of a path. -/
inductive PathPart where
  /-- The slash at the front of an absolute path. -/
  | root
  /-- A dot at the front of a path. -/
  | here
  /-- Two dots. -/
  | up
  | name (text : String)
deriving DecidableEq, Repr, Inhabited

namespace Path

/-- The texts between the separators. -/
def split (separator : Char) (text : String) : List String :=
  (text.toList.splitOn separator).map String.ofList

/-- The texts between the slashes. -/
def pieces (path : String) : List String :=
  split '/' path

/-- The part that a piece behind the first one stands for, if it stands for one. -/
def part? : String → Option PathPart
  | "" => none
  | "." => none
  | ".." => some .up
  | text => some (.name text)

/-- The parts of a path. -/
def parts (path : String) : List PathPart :=
  match pieces path with
  | [] => []
  | [""] => []
  | "" :: rest => .root :: rest.filterMap part?
  | "." :: rest => .here :: rest.filterMap part?
  | all => all.filterMap part?

/-- The name at the end of the path, unless the path ends in something else. -/
def fileName? (path : String) : Option String :=
  match (parts path).getLast? with
  | some (.name text) => some text
  | _ => none

/-- What follows the last dot of a file name, if a dot stands behind its first character. -/
def extensionOf? (fileName : String) : Option String :=
  match (split '.' fileName).reverse with
  | [] => none
  | [_] => none
  | [_, ""] => none
  | last :: _ => some last

/-- The extension of the file name, or nothing. -/
def extension (path : String) : String :=
  ((fileName? path).bind extensionOf?).getD ""

/-- A name below a directory. -/
def join (directory name : String) : String :=
  if directory.isEmpty || directory.endsWith "/" then directory ++ name
  else directory ++ "/" ++ name

/-! ### Order -/

/-- Does the first part come before the second one? -/
def partLt : PathPart → PathPart → Bool
  | .name a, .name b => a < b
  | _, .name _ => true
  | .name _, _ => false
  | a, b => rank a < rank b
where
  /-- The place of a part that is no name. -/
  rank : PathPart → Nat
    | .root => 0
    | .here => 1
    | _ => 2

/-- Is the first list of parts the smaller one, or are they equal? -/
def partsLe : List PathPart → List PathPart → Bool
  | [], _ => true
  | _ :: _, [] => false
  | a :: as, b :: bs => partLt a b || (a == b && partsLe as bs)

/-- The order of paths, part by part. -/
def le (a b : String) : Bool :=
  partsLe (parts a) (parts b)

/-! ### Test files -/

/-- Is the path the path of a test: by its file name, or because a directory above is for
tests? -/
def isTest (path : String) : Bool :=
  let fileName := (fileName? path).getD ""
  let stem := if fileName.endsWith ".py" then (fileName.dropEnd 3).toString else fileName
  stem.startsWith "test_" || stem.endsWith "_test" || stem == "conftest"
    || (parts path).any fun part => part == .name "tests" || part == .name "test"

end Path

end PyStyle
