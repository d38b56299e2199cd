import PyStyle.Position
import PyStyle.Rule
import PyStyle.Text.Decimal

/-!
# JSON values

Reading the JSON format, strictly: no comments, no trailing commas, nothing behind the
value.

- `JsonValue` — a value;
- `JsonError` — why a text is no value;
- `JsonValue.parse` — the value of a text.
-/

namespace PyStyle

/-- A JSON value. -/
inductive JsonValue where
  | null
  | bool (value : Bool)
  /-- A number; `natural` is its value if it is written as a natural number. -/
  | number (natural : Option Nat)
  /-- A string; there is no text if an escape stands for half a surrogate pair. -/
  | string (text : Option String)
  | array (items : List JsonValue)
  /-- The members in the order of the text, repeated keys included. -/
  | object (members : List (Option String × JsonValue))
deriving Repr, Inhabited

/-- Why a text is not what was expected. -/
inductive JsonError where
  /-- The text ends while something is being read. -/
  | ended (reading : String) (position : Position)
  /-- The text breaks the rules of the format. -/
  | malformed
  /-- The value is not of the expected form. -/
  | mismatch
deriving DecidableEq, Repr

namespace JsonError

/-- The error in words. -/
def message : JsonError → String
  | ended reading position =>
    "EOF while parsing " ++ reading ++ " at line " ++ toString position.line
      ++ " column " ++ toString position.column
  | malformed => "expected value"
  | mismatch => "invalid value"

end JsonError

namespace JsonValue

/-- How reading can fail: at the end of the text, or before. -/
inductive Trouble where
  | ended (reading : String)
  | malformed
deriving DecidableEq, Repr

/-- Is the character a blank between the parts of a value? -/
def isSpace (c : Char) : Bool :=
  c == ' ' || c == '\n' || c == '\t' || c == '\r'

/-- The text without the blanks at the front. -/
def skipSpace (cs : List Char) : List Char :=
  cs.dropWhile isSpace

/-! ### Strings -/

/-- The value of a hexadecimal digit. -/
def hexValue? (c : Char) : Option Nat :=
  if '0' ≤ c && c ≤ '9' then some (c.toNat - '0'.toNat)
  else if 'a' ≤ c && c ≤ 'f' then some (c.toNat - 'a'.toNat + 10)
  else if 'A' ≤ c && c ≤ 'F' then some (c.toNat - 'A'.toNat + 10)
  else none

/-- The number that four hexadecimal digits spell. -/
def hexUnit? (a b c d : Char) : Option Nat := do
  return (((← hexValue? a) * 16 + (← hexValue? b)) * 16 + (← hexValue? c)) * 16 + (← hexValue? d)

/-- Is the number the first half of a surrogate pair? -/
def isLeading (unit : Nat) : Bool :=
  0xd800 ≤ unit && unit < 0xdc00

/-- Is the number the second half of a surrogate pair? -/
def isTrailing (unit : Nat) : Bool :=
  0xdc00 ≤ unit && unit < 0xe000

/-- The character that a surrogate pair stands for. -/
def ofPair (leading trailing : Nat) : Char :=
  Char.ofNat (0x10000 + (leading - 0xd800) * 0x400 + (trailing - 0xdc00))

/-- The character behind a backslash, unless it announces a number. -/
def simpleEscape? : Char → Option Char
  | '"' => some '"'
  | '\\' => some '\\'
  | '/' => some '/'
  | 'b' => some '\x08'
  | 'f' => some '\x0c'
  | 'n' => some '\n'
  | 'r' => some '\r'
  | 't' => some '\t'
  | _ => none

/-- The text so far, the last character first, and whether half a pair occurred in it. -/
structure Scanned where
  chars : List Char := []
  isBroken : Bool := false

namespace Scanned

/-- One more character. -/
def push (s : Scanned) (c : Char) : Scanned :=
  { s with chars := c :: s.chars }

/-- One more code unit, which may be half a pair. -/
def pushUnit (s : Scanned) (unit : Nat) : Scanned :=
  if isLeading unit || isTrailing unit then { s with isBroken := true }
  else s.push (Char.ofNat unit)

/-- The text, if it is one. -/
def text? (s : Scanned) : Option String :=
  if s.isBroken then none else some (String.ofList s.chars.reverse)

end Scanned

/-- The rest of a string up to its closing quote. -/
def stringFrom (s : Scanned) : List Char → Except Trouble (Option String × List Char)
  | [] => .error (.ended "a string")
  | '"' :: rest => .ok (s.text?, rest)
  | '\\' :: 'u' :: a :: b :: c :: d :: '\\' :: 'u' :: e :: f :: g :: h :: rest =>
    match hexUnit? a b c d, hexUnit? e f g h with
    | some first, some second =>
      if isLeading first && isTrailing second then stringFrom (s.push (ofPair first second)) rest
      else if isLeading second then
        stringFrom (s.pushUnit first) ('\\' :: 'u' :: e :: f :: g :: h :: rest)
      else stringFrom ((s.pushUnit first).pushUnit second) rest
    | _, _ => .error .malformed
  | '\\' :: 'u' :: a :: b :: c :: d :: rest =>
    match hexUnit? a b c d with
    | some unit => stringFrom (s.pushUnit unit) rest
    | none => .error .malformed
  | '\\' :: 'u' :: _ => .error (.ended "a string")
  | '\\' :: c :: rest =>
    match simpleEscape? c with
    | some escaped => stringFrom (s.push escaped) rest
    | none => .error .malformed
  | c :: rest =>
    if c == '\\' then .error (.ended "a string")
    else if c.toNat < 0x20 then .error .malformed
    else stringFrom (s.push c) rest
termination_by cs => cs.length

/-! ### Numbers and words -/

/-- The text behind the digits at its front. -/
def skipDigits (cs : List Char) : List Char :=
  cs.dropWhile Text.isAsciiDigit

/-- The text behind at least one digit. -/
def requireDigits : List Char → Except Trouble (List Char)
  | [] => .error (.ended "a value")
  | c :: rest => if Text.isAsciiDigit c then .ok (skipDigits rest) else .error .malformed

/-- The text behind a fraction, if there is one. -/
def skipFraction : List Char → Except Trouble (List Char)
  | '.' :: rest => requireDigits rest
  | cs => .ok cs

/-- The text behind an exponent, if there is one. -/
def skipExponent : List Char → Except Trouble (List Char)
  | c :: rest =>
    if c == 'e' || c == 'E' then
      match rest with
      | '+' :: digits => requireDigits digits
      | '-' :: digits => requireDigits digits
      | digits => requireDigits digits
    else .ok (c :: rest)
  | [] => .ok []

/-- The text behind the whole part of a number. Only a lone zero starts with a zero. -/
def skipWhole : List Char → Except Trouble (List Char)
  | '0' :: c :: rest => if Text.isAsciiDigit c then .error .malformed else .ok (c :: rest)
  | cs => requireDigits cs

/-- A number without a sign. -/
def unsignedNumber (cs : List Char) : Except Trouble (JsonValue × List Char) := do
  let afterWhole ← skipWhole cs
  let rest ← skipExponent (← skipFraction afterWhole)
  let isNatural := !(afterWhole.head?.any fun c => c == '.' || c == 'e' || c == 'E')
  let digits := cs.takeWhile Text.isAsciiDigit
  .ok (.number (if isNatural then some (decimalValue digits) else none), rest)

/-- A word that must stand at the front. -/
def word (word : List Char) (value : JsonValue) (cs : List Char) :
    Except Trouble (JsonValue × List Char) :=
  if word.isPrefixOf cs then .ok (value, cs.drop word.length)
  else if cs.isPrefixOf word then .error (.ended "a value")
  else .error .malformed

/-! ### Values -/

mutual

/-- The value at the front of a text. The text must not be longer than `fuel`. -/
def valueFrom (fuel : Nat) (cs : List Char) : Except Trouble (JsonValue × List Char) :=
  match fuel, skipSpace cs with
  | 0, _ => .error (.ended "a value")
  | _, [] => .error (.ended "a value")
  | fuel + 1, c :: rest =>
    match c with
    | 'n' => word ['n', 'u', 'l', 'l'] .null (c :: rest)
    | 't' => word ['t', 'r', 'u', 'e'] (.bool true) (c :: rest)
    | 'f' => word ['f', 'a', 'l', 's', 'e'] (.bool false) (c :: rest)
    | '"' => do
      let (text, behind) ← stringFrom {} rest
      .ok (.string text, behind)
    | '[' =>
      match skipSpace rest with
      | ']' :: behind => .ok (.array [], behind)
      | [] => .error (.ended "a list")
      | inner => itemsFrom fuel [] inner
    | '{' =>
      match skipSpace rest with
      | '}' :: behind => .ok (.object [], behind)
      | inner => membersFrom fuel [] inner
    | '-' => do
      let (_, behind) ← unsignedNumber rest
      .ok (.number none, behind)
    | _ => if Text.isAsciiDigit c then unsignedNumber (c :: rest) else .error .malformed

/-- The items of an array from the next one on; `before` are those read, the last first. -/
def itemsFrom (fuel : Nat) (before : List JsonValue) (cs : List Char) :
    Except Trouble (JsonValue × List Char) :=
  match fuel with
  | 0 => .error (.ended "a list")
  | fuel + 1 => do
    let (item, behind) ← valueFrom fuel cs
    match skipSpace behind with
    | [] => .error (.ended "a list")
    | ',' :: rest => itemsFrom fuel (item :: before) rest
    | ']' :: rest => .ok (.array (item :: before).reverse, rest)
    | _ => .error .malformed

/-- The members of an object from the next one on; `before` are those read, the last
first. -/
def membersFrom (fuel : Nat) (before : List (Option String × JsonValue)) (cs : List Char) :
    Except Trouble (JsonValue × List Char) :=
  match fuel, skipSpace cs with
  | 0, _ => .error (.ended "an object")
  | _, [] => .error (.ended "an object")
  | fuel + 1, '"' :: rest => do
    let (key, behind) ← stringFrom {} rest
    match skipSpace behind with
    | [] => .error (.ended "an object")
    | ':' :: rest =>
      let (value, behind) ← valueFrom fuel rest
      match skipSpace behind with
      | [] => .error (.ended "an object")
      | ',' :: rest => membersFrom fuel ((key, value) :: before) rest
      | '}' :: rest => .ok (.object ((key, value) :: before).reverse, rest)
      | _ => .error .malformed
    | _ => .error .malformed
  | _, _ => .error .malformed

end

/-- The place behind the last character of a text; columns count bytes. -/
def endOf (cs : List Char) : Position :=
  let lastLine := (cs.reverse.takeWhile (· != '\n')).reverse
  { line := 1 + cs.count '\n'
    column := (String.ofList lastLine).utf8ByteSize }

/-- The value of a text. -/
def parse (text : String) : Except JsonError JsonValue :=
  let cs := text.toList
  match valueFrom (2 * cs.length + 2) cs with
  | .error (.ended reading) => .error (.ended reading (endOf cs))
  | .error .malformed => .error .malformed
  | .ok (value, rest) => if (skipSpace rest).isEmpty then .ok value else .error .malformed

end JsonValue

end PyStyle
