import PyStyle.Text.Quoted

/-!
# Path patterns

A pattern speaks about the bytes of a path. A star stands for any bytes, a question mark
for one byte, a class in brackets for one byte of a set, and braces hold alternatives. Two
stars between slashes stand for whole directories.

- `Glob` — a pattern, as a list of parts;
- `GlobError` — why a text is no pattern;
- `Glob.parse` — the pattern of a text;
- `Glob.covers` — does a pattern describe a path?
- `Exclusions` — several patterns, of which one has to describe the path.
-/

namespace PyStyle

/-- One part of a pattern. -/
inductive GlobPart where
  /-- Exactly this character. -/
  | char (c : Char)
  /-- Any one byte. -/
  | anyByte
  /-- Any bytes. -/
  | anyBytes
  /-- At the front: nothing, or any directories. -/
  | directoriesBefore
  /-- At the end: everything below a directory. -/
  | directoriesBehind
  /-- In between: a slash, with any directories behind it. -/
  | directoriesBetween
  /-- A byte of the ranges, or one outside of them. -/
  | oneOf (negated : Bool) (ranges : List (Char × Char))
  /-- One of several patterns. -/
  | either (branches : List (List GlobPart))
deriving Repr, Inhabited

/-- A pattern. -/
abbrev Glob := List GlobPart

/-- Why a text is no pattern. -/
inductive GlobError where
  | unclosedClass
  | invalidRange (low high : Char)
  | unopenedBraces
  | unclosedBraces
  | danglingEscape
deriving DecidableEq, Repr

namespace GlobError

/-- The error in words. -/
def message : GlobError → String
  | unclosedClass => "unclosed character class; missing ']'"
  | invalidRange low high => "invalid range; " ++ low.toString ++ " > " ++ high.toString
  | unopenedBraces =>
    "unopened alternate group; missing '\x7b' (maybe escape '\x7d' with '[\x7d]'?)"
  | unclosedBraces =>
    "unclosed alternate group; missing '\x7d' (maybe escape '\x7b' with '[\x7b]'?)"
  | danglingEscape => "dangling '\\'"

end GlobError

namespace Glob

/-! ### Classes -/

/-- What has been read of a class: its ranges, the last one first, and whether a dash
has just announced the upper end of the last one. -/
structure ClassState where
  ranges : List (Char × Char)
  inRange : Bool

/-- One more character of a class. -/
def ClassState.add (state : ClassState) (c : Char) : Except GlobError ClassState :=
  match state.inRange, state.ranges with
  | true, (low, _) :: rest =>
    if c < low then .error (.invalidRange low c) else .ok ⟨(low, c) :: rest, false⟩
  | _, ranges => .ok ⟨(c, c) :: ranges, false⟩

/-- The rest of a class up to its closing bracket, and what follows it. A bracket or a dash
at the front is a character like any other, and so is a dash at the end. -/
def classFrom (negated : Bool) (state : ClassState) :
    List Char → Except GlobError (GlobPart × List Char)
  | [] => .error .unclosedClass
  | c :: cs => do
    if state.ranges.isEmpty then
      classFrom negated (← state.add c) cs
    else if c == ']' then
      let ranges := if state.inRange then ('-', '-') :: state.ranges else state.ranges
      .ok (.oneOf negated ranges.reverse, cs)
    else if c == '-' && !state.inRange then
      classFrom negated { state with inRange := true } cs
    else classFrom negated (← state.add c) cs

/-- A class, behind its opening bracket. -/
def parseClass (cs : List Char) : Except GlobError (GlobPart × List Char) :=
  match cs with
  | '!' :: rest => classFrom true ⟨[], false⟩ rest
  | '^' :: rest => classFrom true ⟨[], false⟩ rest
  | _ => classFrom false ⟨[], false⟩ cs

theorem length_lt_of_classFrom {negated : Bool} {cs rest : List Char} {part : GlobPart} :
    ∀ {state : ClassState}, classFrom negated state cs = .ok (part, rest) →
      rest.length < cs.length := by
  induction cs with
  | nil => intro state h; simp [classFrom] at h
  | cons c cs ih =>
    intro state h
    rw [classFrom] at h
    have added : ∀ {e : Except GlobError ClassState},
        (e >>= fun s => classFrom negated s cs) = .ok (part, rest) →
          rest.length < (c :: cs).length := by
      intro e he
      cases e with
      | error => cases he
      | ok s => exact Nat.lt_succ_of_lt (ih he)
    split at h
    · exact added h
    · split at h
      · cases h
        simp
      · split at h
        · exact Nat.lt_succ_of_lt (ih h)
        · exact added h

theorem length_lt_of_parseClass {cs rest : List Char} {part : GlobPart}
    (h : parseClass cs = .ok (part, rest)) : rest.length < cs.length := by
  unfold parseClass at h
  split at h
  · exact Nat.lt_succ_of_lt (length_lt_of_classFrom h)
  · exact Nat.lt_succ_of_lt (length_lt_of_classFrom h)
  · exact length_lt_of_classFrom h

/-! ### Patterns -/

/-- A pattern under construction: the branch being read, its last part first, and the
finished branches of the same group, the last one first. -/
structure Branches where
  current : List GlobPart
  finished : List (List GlobPart)

/-- The groups that are open, the innermost first, and the pattern around them. -/
structure Builder where
  inner : Branches
  outer : List Branches

namespace Builder

/-- Nothing has been read. -/
def empty : Builder :=
  { inner := ⟨[], []⟩, outer := [] }

/-- Is a group open? -/
def inGroup (b : Builder) : Bool :=
  !b.outer.isEmpty

/-- One more part. -/
def push (b : Builder) (part : GlobPart) : Builder :=
  { b with inner := { b.inner with current := part :: b.inner.current } }

/-- A group begins. -/
def openGroup (b : Builder) : Builder :=
  { inner := ⟨[], []⟩, outer := b.inner :: b.outer }

/-- The next branch of the innermost group begins. -/
def nextBranch (b : Builder) : Builder :=
  { b with inner := ⟨[], b.inner.current.reverse :: b.inner.finished⟩ }

/-- The innermost group ends. -/
def closeGroup (b : Builder) : Except GlobError Builder :=
  match b.outer with
  | [] => .error .unopenedBraces
  | around :: outer =>
    let branches := (b.inner.current.reverse :: b.inner.finished).reverse
    .ok { inner := { around with current := .either branches :: around.current }, outer }

/-- Two stars that are no directory wildcard. -/
def pushTwoStars (b : Builder) : Builder :=
  (b.push .anyBytes).push .anyBytes

/-- A directory wildcard takes the place of the slash before it. A directory wildcard that
already stands there and does not ask for a slash stays. -/
def replaceSlash (b : Builder) (part : GlobPart) : Builder :=
  match b.inner.current with
  | .directoriesBefore :: _ => b
  | .directoriesBehind :: _ => b
  | _ :: rest => { b with inner := { b.inner with current := part :: rest } }
  | [] => b.push part

/-- Two stars, with the character before them and what follows them. Also gives the last
character that belongs to them, because a directory wildcard takes a slash behind it
along, and what follows that character. -/
def twoStars (b : Builder) (previous : Option Char) (cs : List Char) :
    Builder × Char × List Char :=
  if b.inner.current.isEmpty then
    match cs with
    | [] => (b.push .directoriesBefore, '*', [])
    | '/' :: rest => (b.push .directoriesBefore, '/', rest)
    | _ => (b.pushTwoStars, '*', cs)
  else if previous != some '/'
      && !(b.inGroup && (previous == some ',' || previous == some '{')) then
    (b.pushTwoStars, '*', cs)
  else
    match cs with
    | [] => (b.replaceSlash .directoriesBehind, '*', [])
    | '/' :: rest => (b.replaceSlash .directoriesBetween, '/', rest)
    | c :: _ =>
      if b.inGroup && (c == ',' || c == '}') then (b.replaceSlash .directoriesBehind, '*', cs)
      else (b.pushTwoStars, '*', cs)

theorem length_twoStars_le (b : Builder) (previous : Option Char) (cs : List Char) :
    (b.twoStars previous cs).2.2.length ≤ cs.length := by
  unfold twoStars
  repeat' split
  all_goals simp

end Builder

/-- The pattern of the remaining text, when `previous` is the character before it. -/
def parseFrom (b : Builder) (previous : Option Char) (cs : List Char) : Except GlobError Glob :=
  match cs with
  | [] => if b.inGroup then .error .unclosedBraces else .ok b.inner.current.reverse
  | '?' :: rest => parseFrom (b.push .anyByte) (some '?') rest
  | '*' :: '*' :: rest =>
    have := b.length_twoStars_le previous rest
    let after := b.twoStars previous rest
    parseFrom after.1 (some after.2.1) after.2.2
  | '*' :: rest => parseFrom (b.push .anyBytes) (some '*') rest
  | '[' :: rest =>
    match h : parseClass rest with
    | .error e => .error e
    | .ok (part, behind) =>
      have := length_lt_of_parseClass h
      parseFrom (b.push part) (some ']') behind
  | '{' :: rest => parseFrom b.openGroup (some '{') rest
  | '}' :: rest =>
    match b.closeGroup with
    | .error e => .error e
    | .ok closed => parseFrom closed (some '}') rest
  | ',' :: rest =>
    parseFrom (if b.inGroup then b.nextBranch else b.push (.char ',')) (some ',') rest
  | ['\\'] => .error .danglingEscape
  | '\\' :: c :: rest => parseFrom (b.push (.char c)) (some c) rest
  | c :: rest => parseFrom (b.push (.char c)) (some c) rest
termination_by cs.length
decreasing_by
  all_goals
    simp only [List.length_cons]
    omega

/-- The pattern of a text. -/
def parse (text : String) : Except GlobError Glob :=
  parseFrom .empty none text.toList

/-! ### Matching -/

/-- The bytes that encode a character. -/
def charBytes (c : Char) : List UInt8 :=
  (String.singleton c).toUTF8.toList

/-- The byte ranges of a character range. A character beyond ASCII counts as its bytes,
each on its own, and the range runs from the last byte of its lower end to the first byte of
its upper end. -/
def byteRanges (low high : Char) : List (UInt8 × UInt8) :=
  let lows := charBytes low
  let highs := charBytes high
  let single := fun b : UInt8 => (b, b)
  if low == high then lows.map single
  else
    match lows.getLast?, highs.head? with
    | some l, some h => lows.dropLast.map single ++ (l, h) :: highs.tail.map single
    | _, _ => []

/-- Is the byte one that a class stands for? -/
def isOneOf (negated : Bool) (ranges : List (Char × Char)) (b : UInt8) : Bool :=
  let inside := ranges.any fun (low, high) =>
    (byteRanges low high).any fun (l, h) => l ≤ b && b ≤ h
  inside != negated

/-- What remains of a path behind a given beginning. -/
def afterBytes? : List UInt8 → List UInt8 → Option (List UInt8)
  | [], path => some path
  | _ :: _, [] => none
  | b :: beginning, p :: path => if b == p then afterBytes? beginning path else none

/-- A text and everything that remains of it when bytes are taken off its front. -/
def tails : List UInt8 → List (List UInt8)
  | [] => [[]]
  | b :: path => (b :: path) :: tails path

/-- What can remain behind a slash, wherever the slash stands. -/
def behindSlashes (path : List UInt8) : List (List UInt8) :=
  (tails path).filterMap (afterBytes? (charBytes '/'))

mutual

/-- Does the part say nothing, because it is a group without a branch that says anything? -/
def isSilent : GlobPart → Bool
  | .either branches => allBranchesSilent branches
  | _ => false

/-- Do all branches say nothing? -/
def allBranchesSilent : List Glob → Bool
  | [] => true
  | branch :: rest => allSilent branch && allBranchesSilent rest

/-- Do all parts say nothing? -/
def allSilent : Glob → Bool
  | [] => true
  | part :: rest => isSilent part && allSilent rest

end

mutual

/-- What can remain of a path behind one part of a pattern. -/
def remaindersOfPart (path : List UInt8) : GlobPart → List (List UInt8)
  | .char c => (afterBytes? (charBytes c) path).toList
  | .anyByte => if path.isEmpty then [] else [path.tail]
  | .anyBytes => tails path
  | .directoriesBefore => path :: behindSlashes path
  | .directoriesBehind => (afterBytes? (charBytes '/') path).toList.flatMap tails
  | .directoriesBetween =>
    (afterBytes? (charBytes '/') path).toList.flatMap fun rest => rest :: behindSlashes rest
  | .oneOf negated ranges =>
    match path with
    | [] => []
    | b :: rest => if isOneOf negated ranges b then [rest] else []
  | .either branches =>
    if allBranchesSilent branches then [path] else remaindersOfBranches path branches

/-- What can remain of a path behind one of several branches. A branch that says nothing
does not count. -/
def remaindersOfBranches (path : List UInt8) : List Glob → List (List UInt8)
  | [] => []
  | branch :: rest =>
    (if allSilent branch then [] else remaindersOfParts [path] branch)
      ++ remaindersOfBranches path rest

/-- What can remain of one of several paths behind a pattern. -/
def remaindersOfParts (paths : List (List UInt8)) : Glob → List (List UInt8)
  | [] => paths
  | part :: rest =>
    remaindersOfParts (paths.flatMap fun path => remaindersOfPart path part).eraseDups rest

end

/-- Does the pattern describe the whole path? A directory wildcard alone describes every
path. -/
def covers (glob : Glob) (path : String) : Bool :=
  match glob with
  | [.directoriesBefore] => true
  | _ => (remaindersOfParts [path.toUTF8.toList] glob).contains []

end Glob

/-! ### Several patterns -/

/-- Patterns of which one has to describe a path. -/
structure Exclusions where
  globs : List Glob

namespace Exclusions

/-- Does some pattern describe the path? -/
def covers (set : Exclusions) (path : String) : Bool :=
  set.globs.any (·.covers path)

/-- Are there no patterns? -/
def isEmpty (set : Exclusions) : Bool :=
  set.globs.isEmpty

/-- The patterns of several texts, or the first text that is no pattern. -/
def parse : List String → Except (String × GlobError) Exclusions
  | [] => .ok ⟨[]⟩
  | text :: rest =>
    match Glob.parse text with
    | .error e => .error (text, e)
    | .ok glob => do
      let set ← parse rest
      .ok ⟨glob :: set.globs⟩

end Exclusions

end PyStyle
