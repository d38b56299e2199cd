import PyStyle.JsonValue
import PyStyle.SourceUnit

/-!
# Units as JSON

A unit that another program has parsed comes as a JSON value. Each record may be an object
with named members, of which unknown ones are passed over and known ones occur once, or an
array with the members in a fixed order.

- `JsonValue.members?` — the known members of a record;
- `SourceUnit.ofJson` — the unit of a value;
- `jsonLevels` — how deep records and lists may be nested.
-/

namespace PyStyle

namespace JsonValue

/-- One more known member; a second one of the same name is refused. -/
def insertMember? (names : List String) (known : List (String × JsonValue))
    (member : Option String × JsonValue) : Option (List (String × JsonValue)) :=
  match member.1 with
  | none => none
  | some key =>
    if !names.contains key then some known
    else if (known.lookup key).isSome then none
    else some ((key, member.2) :: known)

/-- The known members of a record, if the value is one. -/
def members? (names : List String) : JsonValue → Option (List (String × JsonValue))
  | .object members => members.foldlM (insertMember? names) []
  | .array items => if items.length ≤ names.length then some (names.zip items) else none
  | _ => none

/-- The text of a string. -/
def text? : JsonValue → Option String
  | .string text => text
  | _ => none

/-- A natural number that fits into 64 bits. -/
def size? : JsonValue → Option Nat
  | .number (some n) => if n < UInt64.size then some n else none
  | _ => none

/-- One of several labels: a string, or an object whose only member has that name and no
value. The object counts as a level of nesting. -/
def label? (levels : Nat) : JsonValue → Option String
  | .string text => text
  | .object [(key, .null)] => if levels = 0 then none else key
  | _ => none

end JsonValue

/-- The position of a value. -/
def Position.ofJson (levels : Nat) (value : JsonValue) : Option Position :=
  if levels = 0 then none
  else do
    let members ← value.members? ["line", "column"]
    return { line := ← (← members.lookup "line").size?
             column := ← (← members.lookup "column").size? }

/-- The name of a node, which may be left out. -/
def Node.nameOfJson : Option JsonValue → Option (Option String)
  | none => some none
  | some .null => some none
  | some value => value.text?.map some

/-- The children of a node, which may be left out. -/
def Node.childrenOfJson (child : JsonValue → Option Node) : Option JsonValue → Option (List Node)
  | none => some []
  | some (.array items) => items.mapM child
  | some _ => none

/-- The node of a value. Its position and its list of children lie one level deeper, and the
children themselves two. -/
def Node.ofJson : Nat → JsonValue → Option Node
  | levels + 2, value => do
    let members ← value.members? ["kind", "name", "position", "children"]
    let kind ← NodeKind.ofLabel? (← (← members.lookup "kind").label? (levels + 1))
    let name ← nameOfJson (members.lookup "name")
    let position ← Position.ofJson (levels + 1) (← members.lookup "position")
    let children ← childrenOfJson (Node.ofJson levels) (members.lookup "children")
    return { kind, name, position, children }
  | _, _ => none

/-- The token of a value. -/
def Token.ofJson (levels : Nat) (value : JsonValue) : Option Token :=
  match levels with
  | 0 => none
  | levels + 1 => do
    let members ← value.members? ["kind", "text", "position"]
    return { kind := ← TokenKind.ofLabel? (← (← members.lookup "kind").label? levels)
             text := ← (← members.lookup "text").text?
             position := ← Position.ofJson levels (← members.lookup "position") }

/-- How many levels of records and lists may lie within each other. -/
def jsonLevels : Nat := 127

namespace SourceUnit

/-- The unit of a value. -/
def ofJsonValue (value : JsonValue) : Option SourceUnit := do
  let members ← value.members? ["path", "tree", "tokens"]
  let path ← (← members.lookup "path").text?
  let tree ← Node.ofJson (jsonLevels - 1) (← members.lookup "tree")
  match members.lookup "tokens" with
  | some (.array items) =>
    let tokens ← items.mapM (Token.ofJson (jsonLevels - 2))
    return { path, tree, tokens }
  | _ => none

/-- The unit of a JSON text. -/
def ofJson (text : String) : Except JsonError SourceUnit :=
  match JsonValue.parse text with
  | .error e => .error e
  | .ok value =>
    match ofJsonValue value with
    | some unit => .ok unit
    | none => .error .mismatch

end SourceUnit

end PyStyle
