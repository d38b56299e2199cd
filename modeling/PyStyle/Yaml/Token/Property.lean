import PyStyle.Rule
import PyStyle.Yaml.Token.Scalar

/-!
# YAML properties and directives

- `anchorName` — the name behind `&` or `*`;
- `tag` — a tag, as a handle and a suffix;
- `directive` — a line that starts with a percent sign.
-/

namespace PyStyle.Yaml

/-! ### Anchors -/

/-- The name of an anchor or alias, behind its sign. -/
def anchorName (c : Cursor) : Except Problem (String × Cursor) :=
  let start := c.skip 1
  let name := start.rest.takeWhile isNameChar
  let next := start.skip name.length
  let endsHere := next.atSpace
    || next.head?.any fun d => ['?', ':', ',', ']', '}', '%', '@', '\x60'].contains d
  if name.isEmpty || !endsHere then
    .error ⟨"did not find expected alphabetic or numeric character", next.position⟩
  else .ok (String.ofList name, next)

/-! ### Tags -/

/-- May the character stand in the suffix of a tag? -/
def isTagChar (c : Char) : Bool :=
  isNameChar c || [';', '/', '?', ':', '@', '&', '=', '+', '$', '.', '%', '!', '~', '*', '\'',
    '(', ')'].contains c

/-- May the character stand in a tag that is written in full? -/
def isFullTagChar (c : Char) : Bool :=
  isTagChar c || c == ',' || c == '[' || c == ']'

/-- Is every percent sign followed by two hexadecimal digits? -/
def isEscapedWell : List Char → Bool
  | [] => true
  | '%' :: a :: b :: rest =>
    (JsonValue.hexValue? a).isSome && (JsonValue.hexValue? b).isSome && isEscapedWell rest
  | '%' :: _ => false
  | _ :: rest => isEscapedWell rest

/-- The characters of a tag. -/
def tagText (allowed : Char → Bool) (c : Cursor) : Except Problem (List Char × Cursor) :=
  let text := c.rest.takeWhile allowed
  if isEscapedWell text then .ok (text, c.skip text.length)
  else .error ⟨"did not find URI escaped octet", c.position⟩

/-- The handle at the front of a tag: an exclamation mark, and perhaps a name with one more
behind it. -/
def handle (c : Cursor) : List Char × Cursor :=
  let name := (c.rest.drop 1).takeWhile isNameChar
  let next := c.skip (name.length + 1)
  if next.starts '!' then ('!' :: name ++ ['!'], next.skip 1) else ('!' :: name, next)

/-- The tag between angle brackets. -/
def verbatimTag (c : Cursor) : Except Problem (TokenContent × Cursor) := do
  let (text, next) ← tagText isFullTagChar (c.skip 2)
  if text.isEmpty then .error ⟨"did not find expected tag URI", next.position⟩
  else if next.starts '>' then .ok (.tag "" (String.ofList text), next.skip 1)
  else .error ⟨"did not find the expected '>'", next.position⟩

/-- The tag with a handle. -/
def shortTag (c : Cursor) : Except Problem (TokenContent × Cursor) := do
  let (mark, next) := handle c
  let isNamed := 1 < mark.length && mark.getLast? == some '!'
  let (text, next) ← tagText isTagChar next
  if isNamed then
    if text.isEmpty then .error ⟨"did not find expected tag URI", next.position⟩
    else .ok (.tag (String.ofList mark) (String.ofList text), next)
  else
    let suffix := mark.tail ++ text
    if suffix.isEmpty then .ok (.tag "" "!", next)
    else .ok (.tag "!" (String.ofList suffix), next)

/-- A tag. -/
def tag (inFlow : Bool) (c : Cursor) : Except Problem (TokenContent × Cursor) := do
  let (content, next) ← if c.second? == some '<' then verbatimTag c else shortTag c
  if next.atSpace || (inFlow && next.starts ',') then .ok (content, next)
  else .error ⟨"did not find expected whitespace or line break", next.position⟩

/-! ### Directives -/

/-- A number with at most nine digits. -/
def versionNumber (c : Cursor) : Except Problem (Nat × Cursor) :=
  let digits := c.rest.takeWhile Text.isAsciiDigit
  if digits.isEmpty || 9 < digits.length then
    .error ⟨"did not find expected version number", c.position⟩
  else .ok (decimalValue digits, c.skip digits.length)

/-- The version behind the name of its directive. -/
def versionDirective (c : Cursor) : Except Problem (TokenContent × Cursor) := do
  let (major, next) ← versionNumber (c.skipWhile isGap)
  if next.starts '.' then
    let (minor, next) ← versionNumber (next.skip 1)
    .ok (.version major minor, next)
  else .error ⟨"did not find expected digit or '.' character", next.position⟩

/-- The handle and its expansion behind the name of their directive. -/
def handleDirective (c : Cursor) : Except Problem (TokenContent × Cursor) := do
  let start := c.skipWhile isGap
  let (mark, next) := handle start
  if !start.starts '!' || mark.getLast? != some '!' || !next.head?.any isGap then
    .error ⟨"did not find expected '!'", next.position⟩
  else
    let (text, next) ← tagText isFullTagChar (next.skipWhile isGap)
    if text.isEmpty || !next.atSpace then
      .error ⟨"did not find expected tag URI", next.position⟩
    else .ok (.tagHandle (String.ofList mark) (String.ofList text), next)

/-- A directive with the rest of its line. -/
def directive (c : Cursor) : Except Problem (TokenContent × Cursor) := do
  let start := c.skip 1
  let name := start.rest.takeWhile isNameChar
  let next := start.skip name.length
  let (content, next) ←
    if !next.atSpace then
      .error ⟨"found unexpected non-alphabetical character", next.position⟩
    else if name == "YAML".toList then versionDirective next
    else if name == "TAG".toList then handleDirective next
    else .error ⟨"found unknown directive name", next.position⟩
  .ok (content, ← endOfLine next)

end PyStyle.Yaml
