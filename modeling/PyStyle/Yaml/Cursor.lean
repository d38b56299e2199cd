import PyStyle.Position
import PyStyle.Text.Decimal
import PyStyle.Text.Word

/-!
# Reading a YAML text

- `isPrintable` — the characters that a YAML text may hold;
- `isGap`, `isLineBreak` — what divides words and lines;
- `Cursor` — what is left of a text, and where it begins.
-/

namespace PyStyle.Yaml

/-- May the character stand in a text? -/
def isPrintable (c : Char) : Bool :=
  let n := c.toNat
  c == '\t' || c == '\n' || c == '\r' || (0x20 ≤ n && n ≤ 0x7e) || n == 0x85
    || (0xa0 ≤ n && n ≤ 0xfffd && n != 0xfeff) || 0x10000 ≤ n

/-- Is the character a blank or a tab? -/
def isGap (c : Char) : Bool :=
  c == ' ' || c == '\t'

/-- Does the character end a line? -/
def isLineBreak (c : Char) : Bool :=
  c == '\n' || c == '\r' || c == '\u0085' || c == '\u2028' || c == '\u2029'

/-- Does the character end a word? -/
def isSpace (c : Char) : Bool :=
  isGap c || isLineBreak c

/-- May the character stand in the name of an anchor, a handle or a directive? -/
def isNameChar (c : Char) : Bool :=
  Text.isAsciiWord c || c == '-'

/-- What is left of a text, and the place where it begins. -/
structure Cursor where
  rest : List Char
  /-- How many characters stand before it. -/
  index : Nat
  position : Position

namespace Cursor

/-- The whole text. A byte order mark at its front does not count. -/
def ofText (text : List Char) : Cursor :=
  let rest := match text with
    | '\ufeff' :: behind => behind
    | _ => text
  { rest, index := 0, position := ⟨1, 0⟩ }

/-- The next character. -/
def head? (c : Cursor) : Option Char :=
  c.rest.head?

/-- The character behind the next one. -/
def second? (c : Cursor) : Option Char :=
  c.rest.tail.head?

/-- Is the next character this one? -/
def starts (c : Cursor) (char : Char) : Bool :=
  c.head? == some char

/-- Is nothing left? -/
def atEnd (c : Cursor) : Bool :=
  c.rest.isEmpty

/-- Does a word end here? -/
def atSpace (c : Cursor) : Bool :=
  c.head?.all isSpace

/-- Does a line end here? -/
def atLineEnd (c : Cursor) : Bool :=
  c.head?.all isLineBreak

/-- Does a word end behind the next character? -/
def spaceFollows (c : Cursor) : Bool :=
  c.second?.all isSpace

/-- Pass over characters of one line. -/
def skip (c : Cursor) (count : Nat) : Cursor :=
  { rest := c.rest.drop count
    index := c.index + count
    position := { c.position with column := c.position.column + count } }

/-- Pass over the characters at the front that belong to one line and have a property. -/
def skipWhile (c : Cursor) (p : Char → Bool) : Cursor :=
  c.skip (c.rest.takeWhile p).length

/-- The character that a line break counts as, and what is left behind it. -/
def lineBreak (c : Cursor) : Char × Cursor :=
  let taken := if c.rest.take 2 == ['\r', '\n'] then 2 else 1
  let char := match c.rest with
    | '\u2028' :: _ => '\u2028'
    | '\u2029' :: _ => '\u2029'
    | _ => '\n'
  (char,
   { rest := c.rest.drop taken
     index := c.index + taken
     position := ⟨c.position.line + 1, 0⟩ })

/-- Does the mark of a document begin here: three times the character, as a word at the
front of a line? -/
def atMark (c : Cursor) (char : Char) : Bool :=
  c.position.column == 0 && c.rest.take 3 == [char, char, char]
    && (c.rest.drop 3).head?.all isSpace

/-- Does a document begin or end here? -/
def atDocumentEdge (c : Cursor) : Bool :=
  c.atMark '-' || c.atMark '.'

end Cursor

/-- What is wrong with a text, and where. -/
structure Problem where
  message : String
  position : Position
deriving DecidableEq, Repr

end PyStyle.Yaml
