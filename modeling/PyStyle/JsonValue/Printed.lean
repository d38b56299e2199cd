import PyStyle.Rule
import PyStyle.Text.Quoted

/-!
# Printed JSON

The JSON that is written, with members in a fixed order. A value is laid out over lines, two
blanks for each level.

- `Printed` — a value to be written;
- `Printed.render` — its text.
-/

namespace PyStyle

/-- A value to be written. -/
inductive Printed where
  | natural (value : Nat)
  | bool (value : Bool)
  | text (value : String)
  | list (items : List Printed)
  | record (members : List (String × Printed))
deriving Repr, Inhabited

namespace Printed

/-- How a character is written between quotes. -/
def escape (c : Char) : List Char :=
  if c == '"' then ['\\', '"']
  else if c == '\\' then ['\\', '\\']
  else if c == '\x08' then ['\\', 'b']
  else if c == '\t' then ['\\', 't']
  else if c == '\n' then ['\\', 'n']
  else if c == '\x0c' then ['\\', 'f']
  else if c == '\r' then ['\\', 'r']
  else if c.toNat < 0x20 then
    ['\\', 'u', '0', '0', Text.hexDigit (c.toNat / 16), Text.hexDigit (c.toNat % 16)]
  else [c]

/-- A text between quotes. -/
def quote (text : String) : String :=
  String.ofList ('"' :: text.toList.flatMap escape ++ ['"'])

/-- A line break and the blanks of a level. -/
def lineBreak (level : Nat) : String :=
  String.ofList ('\n' :: List.replicate (2 * level) ' ')

/-- Items between brackets, each on a line of its own. -/
def bracket (opening closing : String) (level : Nat) (items : List String) : String :=
  if items.isEmpty then opening ++ closing
  else
    opening ++ lineBreak (level + 1) ++ ("," ++ lineBreak (level + 1)).intercalate items
      ++ lineBreak level ++ closing

mutual

/-- The text of a value that stands on a level. -/
def renderAt (level : Nat) : Printed → String
  | .natural value => String.ofList (decimalDigits value)
  | .bool value => if value then "true" else "false"
  | .text value => quote value
  | .list items => bracket "[" "]" level (renderItems (level + 1) items)
  | .record members => bracket "\x7b" "\x7d" level (renderMembers (level + 1) members)

/-- The texts of items. -/
def renderItems (level : Nat) : List Printed → List String
  | [] => []
  | item :: rest => renderAt level item :: renderItems level rest

/-- The texts of members. -/
def renderMembers (level : Nat) : List (String × Printed) → List String
  | [] => []
  | (key, value) :: rest =>
    (quote key ++ ": " ++ renderAt level value) :: renderMembers level rest

end

/-- The text of a value. -/
def render (value : Printed) : String :=
  renderAt 0 value

end Printed

end PyStyle
