import PyStyle.Settings
import PyStyle.Yaml.Node

/-!
# Settings as YAML

Every setting is optional, a text without content gives the defaults, and a setting that
is not known or is given twice is refused.

- `SettingsTextError` — why a text holds no settings;
- `Yaml.Node.natural?`, `truth?`, `text?` — the values of scalars;
- `Settings.ofYaml` — the settings in a text.
-/

namespace PyStyle

/-! ### Scalars -/

namespace Yaml

/-- Is the text one of the spellings of the missing value? -/
def isNullWord (text : String) : Bool :=
  ["null", "Null", "NULL", "~"].contains text

/-- The truth value that a text spells. -/
def truthOf? (text : String) : Option Bool :=
  if ["true", "True", "TRUE"].contains text then some true
  else if ["false", "False", "FALSE"].contains text then some false
  else none

/-- The value of a digit in a base of at most sixteen. -/
def digitValue? (base : Nat) (c : Char) : Option Nat :=
  (JsonValue.hexValue? c).filter (· < base)

/-- The number of at most 64 bits that digits spell in a base. -/
def digitsValue? (base : Nat) (digits : List Char) : Option Nat :=
  if digits.isEmpty then none
  else
    (digits.foldlM (fun n d => (digitValue? base d).map (n * base + ·)) 0).filter (· < UInt64.size)

/-- Is the text longer than one digit and starts with a zero? Then it is no number. -/
def isZeroLed : List Char → Bool
  | '0' :: c :: rest => (c :: rest).all Text.isAsciiDigit
  | _ => false

/-- The natural number that a text spells: decimal, or in another base behind a mark, and
perhaps with a plus sign. -/
def naturalOf? (text : String) : Option Nat :=
  let unsigned := match text.toList with
    | '+' :: rest => rest
    | cs => cs
  match unsigned with
  | '0' :: 'x' :: digits => digitsValue? 16 digits
  | '0' :: 'o' :: digits => digitsValue? 8 digits
  | '0' :: 'b' :: digits => digitsValue? 2 digits
  | digits => if isZeroLed digits then none else digitsValue? 10 digits

/-- The tag of a standard type. -/
def standardTag (name : String) : String :=
  "tag:yaml.org,2002:" ++ name

/-- Does the way a scalar is written let it be more than a text? It does without quotes, and
for a literal block with the tag of the type. -/
def allowsValue (style : ScalarStyle) (tag : Option String) (type : String) : Bool :=
  style == .plain || (style == .literal && tag == some (standardTag type))

namespace Node

/-- The place of a node. -/
def position : Node → Position
  | .scalar _ _ _ position => position
  | .sequence _ position => position
  | .mapping _ position => position

/-- The text of a scalar. -/
def text? : Node → Option String
  | .scalar text _ _ _ => some text
  | _ => none

/-- The natural number that a scalar spells. -/
def natural? : Node → Option Nat
  | .scalar text style tag _ => if allowsValue style tag "int" then naturalOf? text else none
  | _ => none

/-- The truth value that a scalar spells. -/
def truth? : Node → Option Bool
  | .scalar text style tag _ => if allowsValue style tag "bool" then truthOf? text else none
  | _ => none

/-- Is nothing written? -/
def isBlank : Node → Bool
  | .scalar text style _ _ => text.isEmpty && style == .plain
  | _ => false

/-- Is the value missing? A tag counts as a value, except that of the missing value. -/
def isMissing : Node → Bool
  | .scalar text .plain none _ => text.isEmpty || isNullWord text
  | .scalar text .plain (some tag) _ => tag == standardTag "null" && isNullWord text
  | _ => false

/-- What a node is, in words. -/
def describe : Node → String
  | .sequence _ _ => "sequence"
  | .mapping _ _ => "map"
  | .scalar text style _ _ =>
    let quoted := "string " ++ Text.quoted text
    if style != .plain then quoted
    else if text.isEmpty || isNullWord text then "unit value"
    else
      match truthOf? text, naturalOf? text with
      | some value, _ => "boolean `" ++ (if value then "true" else "false") ++ "`"
      | none, some n => "integer `" ++ toString n ++ "`"
      | none, none => quoted

end Node

end Yaml

/-! ### Settings -/

/-- Why a text holds no settings. -/
inductive SettingsTextError where
  /-- The text breaks the rules of the format. -/
  | malformed (problem : Yaml.Problem)
  | unknownField (name : String) (position : Position)
  | duplicateField (name : String) (position : Position)
  /-- A value, at a path below the settings, is not what it should be. -/
  | wrongType (path found expected : String) (position : Position)
deriving DecidableEq, Repr

namespace SettingsTextError

/-- The names of all settings. -/
def fields : List String :=
  ["max_cognitive_score", "max_cognitive_average", "ignore", "excluded_paths",
   "include_test_files"]

/-- A place in the text, unless it is the very front. -/
def place (position : Position) : String :=
  if position == ⟨1, 0⟩ then ""
  else " at line " ++ toString position.line ++ " column " ++ toString (position.column + 1)

/-- The error in words. -/
def message : SettingsTextError → String
  | malformed problem => problem.message ++ place problem.position
  | unknownField name position =>
    "unknown field `" ++ name ++ "`, expected one of "
      ++ ", ".intercalate (fields.map fun field => "`" ++ field ++ "`") ++ place position
  | duplicateField name position => "duplicate field `" ++ name ++ "`" ++ place position
  | wrongType path found expected position =>
    (if path.isEmpty then "" else path ++ ": ") ++ "invalid type: " ++ found ++ ", expected "
      ++ expected ++ place position

end SettingsTextError

namespace Settings

/-- A value of the expected type, or the error that it is not. -/
def expect {α : Type} (path expected : String) (node : Yaml.Node) (value : Option α) :
    Except SettingsTextError α :=
  match value with
  | some value => .ok value
  | none => .error (.wrongType path node.describe expected node.position)

/-- A limit. -/
def limitOf (path : String) (node : Yaml.Node) : Except SettingsTextError Nat :=
  expect path "u32" node (node.natural?.filter (· < UInt32.size))

/-- Texts from the item with the given number on. -/
def textsFrom (path : String) (index : Nat) :
    List Yaml.Node → Except SettingsTextError (List String)
  | [] => .ok []
  | item :: rest => do
    let text ← expect (path ++ "[" ++ toString index ++ "]") "a string" item item.text?
    let texts ← textsFrom path (index + 1) rest
    .ok (text :: texts)

/-- A list of texts; there are none if nothing is written. -/
def textsOf (path : String) (node : Yaml.Node) : Except SettingsTextError (List String) :=
  match node with
  | .sequence items _ => textsFrom path 0 items
  | _ => expect path "a sequence" node (if node.isBlank then some [] else none)

/-- A truth value that may be missing. -/
def truthOf (path : String) (node : Yaml.Node) : Except SettingsTextError (Option Bool) :=
  if node.isMissing then .ok none
  else do
    let value ← expect path "a boolean" node node.truth?
    .ok (some value)

/-- The settings with one more value. -/
def set (settings : Settings) (name : String) (key value : Yaml.Node) :
    Except SettingsTextError Settings :=
  match name with
  | "max_cognitive_score" => do
    let limit ← limitOf name value
    .ok { settings with maxCognitiveScore := limit }
  | "max_cognitive_average" => do
    let limit ← limitOf name value
    .ok { settings with maxCognitiveAverage := limit }
  | "ignore" => do
    let entries ← textsOf name value
    .ok { settings with ignore := entries }
  | "excluded_paths" => do
    let patterns ← textsOf name value
    .ok { settings with excludedPaths := patterns }
  | "include_test_files" => do
    let value ← truthOf name value
    .ok { settings with includeTestFiles := value }
  | _ => .error (.unknownField name key.position)

/-- The settings with the values of further entries; `given` are the names that occurred, and
`start` is the place of the mapping. -/
def setAll (start : Position) (settings : Settings) (given : List String) :
    List (Yaml.Node × Yaml.Node) → Except SettingsTextError Settings
  | [] => .ok settings
  | (key, value) :: rest => do
    let name ← expect "" "field identifier" key key.text?
    if given.contains name then .error (.duplicateField name start)
    else
      let settings ← settings.set name key value
      settings.setAll start (name :: given) rest

/-- The settings in a document. -/
def ofNode (node : Yaml.Node) : Except SettingsTextError Settings :=
  match node with
  | .mapping entries start => setAll start {} [] entries
  | _ => expect "" "struct Config" node (if node.isBlank then some {} else none)

/-- The settings in a text. -/
def ofYaml (text : String) : Except SettingsTextError Settings :=
  if (Text.trim text.toList).isEmpty then .ok {}
  else
    match Yaml.document? text with
    | .error problem => .error (.malformed problem)
    | .ok none => .ok {}
    | .ok (some node) => ofNode node

end Settings

end PyStyle
