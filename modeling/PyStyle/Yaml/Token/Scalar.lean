import PyStyle.JsonValue
import PyStyle.Yaml.Token

/-!
# YAML scalars

The text of a scalar in each of its styles. Line breaks are folded: one becomes a blank, and
of several the first is dropped.

- `Spacing` — blanks and line breaks between two words;
- `quotedScalar` — between single or double quotes;
- `plainScalar` — without quotes;
- `blockScalar` — on lines of its own.
-/

namespace PyStyle.Yaml

/-! ### Folding -/

/-- Blanks and line breaks between two words. -/
structure Spacing where
  /-- The blanks before the first line break, the last one first. -/
  blanks : List Char := []
  /-- Is there a line break, perhaps an escaped one that counts as no character? -/
  isBroken : Bool := false
  /-- The first line break. -/
  first : Option Char := none
  /-- The further line breaks, the last one first. -/
  further : List Char := []

namespace Spacing

/-- The characters that the spacing counts as, the last one first. -/
def folded (s : Spacing) : List Char :=
  if !s.isBroken then s.blanks
  else if s.first == some '\n' then if s.further.isEmpty then [' '] else s.further
  else s.further ++ s.first.toList

/-- One more line break. -/
def addBreak (s : Spacing) (c : Char) : Spacing :=
  if s.isBroken then { s with further := c :: s.further }
  else { blanks := [], isBroken := true, first := some c, further := [] }

/-- One more blank. Those at the front of a line do not count. -/
def addBlank (s : Spacing) (c : Char) : Spacing :=
  if s.isBroken then s else { s with blanks := c :: s.blanks }

/-- The spacing at the cursor. A tab must not stand left of the column `indent` on a new
line. -/
def read (indent : Nat) : Nat → Spacing → Cursor → Except Problem (Spacing × Cursor)
  | 0, s, c => .ok (s, c)
  | fuel + 1, s, c =>
    match c.head? with
    | none => .ok (s, c)
    | some char =>
      if isGap char then
        if s.isBroken && char == '\t' && c.position.column < indent then
          .error ⟨"found a tab character that violates indentation", c.position⟩
        else read indent fuel (s.addBlank char) (c.skip 1)
      else if isLineBreak char then
        let (char, next) := c.lineBreak
        read indent fuel (s.addBreak char) next
      else .ok (s, c)

end Spacing

/-! ### Between quotes -/

/-- How a run of words between quotes ends. -/
inductive RunEnd where
  /-- At the closing quote. -/
  | quote
  /-- At a line break that a backslash hides. -/
  | hiddenBreak
  /-- At spacing, or at the end of the text. -/
  | spacing
deriving DecidableEq, Repr

/-- The character of an escape that is one letter long. -/
def letterEscape? : Char → Option Char
  | '0' => some '\x00'
  | 'a' => some '\x07'
  | 'b' => some '\x08'
  | 't' => some '\t'
  | '\t' => some '\t'
  | 'n' => some '\n'
  | 'v' => some '\x0b'
  | 'f' => some '\x0c'
  | 'r' => some '\r'
  | 'e' => some '\x1b'
  | ' ' => some ' '
  | '"' => some '"'
  | '/' => some '/'
  | '\\' => some '\\'
  | 'N' => some '\u0085'
  | '_' => some '\u00a0'
  | 'L' => some '\u2028'
  | 'P' => some '\u2029'
  | _ => none

/-- How many hexadecimal digits an escape has. -/
def hexEscapeLength? : Char → Option Nat
  | 'x' => some 2
  | 'u' => some 4
  | 'U' => some 8
  | _ => none

/-- The number that hexadecimal digits spell. -/
def hexNumber? (digits : List Char) : Option Nat :=
  digits.foldlM (fun n d => (JsonValue.hexValue? d).map (n * 16 + ·)) 0

/-- The character of an escape, which starts behind the backslash, and how long it is. -/
def escape? : List Char → Option (Char × Nat)
  | [] => none
  | letter :: rest =>
    match letterEscape? letter, hexEscapeLength? letter with
    | some c, _ => some (c, 1)
    | none, some length => do
      let digits := rest.take length
      let n ← hexNumber? digits
      if digits.length = length ∧ n.isValidChar then some (Char.ofNat n, length + 1) else none
    | none, none => none

/-- Words between quotes up to the next spacing; `text` is what stands before them, the
last character first. -/
def quotedRun (isSingle : Bool) :
    Nat → List Char → Cursor → Except Problem (List Char × Cursor × RunEnd)
  | 0, text, c => .ok (text, c, .spacing)
  | fuel + 1, text, c =>
    match c.rest with
    | [] => .ok (text, c, .spacing)
    | char :: rest =>
      if isSpace char then .ok (text, c, .spacing)
      else if isSingle && char == '\'' && rest.head? == some '\'' then
        quotedRun isSingle fuel ('\'' :: text) (c.skip 2)
      else if char == (if isSingle then '\'' else '"') then .ok (text, c, .quote)
      else if !isSingle && char == '\\' then
        if rest.head?.any isLineBreak then .ok (text, (c.skip 1).lineBreak.2, .hiddenBreak)
        else
          match escape? rest with
          | none => .error ⟨"found unknown escape character", c.position⟩
          | some (escaped, length) =>
            quotedRun isSingle fuel (escaped :: text) (c.skip (length + 1))
      else quotedRun isSingle fuel (char :: text) (c.skip 1)

/-- The rest of a scalar behind its opening quote. -/
def quotedScalarFrom (isSingle : Bool) :
    Nat → List Char → Cursor → Except Problem (String × Cursor)
  | 0, _, c => .error ⟨"found unexpected end of stream", c.position⟩
  | fuel + 1, text, c =>
    if c.atDocumentEdge then .error ⟨"found unexpected document indicator", c.position⟩
    else if c.atEnd then .error ⟨"found unexpected end of stream", c.position⟩
    else do
      let (text, next, runEnd) ← quotedRun isSingle c.rest.length text c
      if runEnd == .quote then .ok (String.ofList text.reverse, next.skip 1)
      else
        let before : Spacing := { isBroken := runEnd == .hiddenBreak }
        let (spacing, next) ← Spacing.read 0 (next.rest.length + 1) before next
        quotedScalarFrom isSingle fuel (spacing.folded ++ text) next

/-- A scalar between quotes. -/
def quotedScalar (isSingle : Bool) (c : Cursor) : Except Problem (String × Cursor) :=
  quotedScalarFrom isSingle (c.rest.length + 1) [] (c.skip 1)

/-! ### Without quotes -/

/-- Is the character a bracket or comma of a collection in brackets? -/
def isFlowIndicator (c : Char) : Bool :=
  c == ',' || c == '[' || c == ']' || c == '{' || c == '}'

/-- Words without quotes up to the next spacing or indicator. -/
def plainRun (inFlow : Bool) : Nat → List Char → Cursor → Except Problem (List Char × Cursor)
  | 0, text, c => .ok (text, c)
  | fuel + 1, text, c =>
    match c.rest with
    | [] => .ok (text, c)
    | char :: rest =>
      if isSpace char then .ok (text, c)
      else if inFlow && char == ':' && rest.head?.any fun d => isFlowIndicator d || d == '?' then
        .error ⟨"found unexpected ':'", c.position⟩
      else if (char == ':' && c.spaceFollows) || (inFlow && isFlowIndicator char) then
        .ok (text, c)
      else plainRun inFlow fuel (char :: text) (c.skip 1)

/-- The rest of a scalar without quotes behind some spacing. Also says whether the last
spacing held a line break. -/
def plainScalarFrom (inFlow : Bool) (indent : Nat) :
    Nat → List Char → Spacing → Cursor → Except Problem (List Char × Bool × Cursor)
  | 0, text, spacing, c => .ok (text, spacing.isBroken, c)
  | fuel + 1, text, spacing, c =>
    if c.atDocumentEdge || c.starts '#' then .ok (text, spacing.isBroken, c)
    else do
      let (run, next) ← plainRun inFlow (c.rest.length + 1) [] c
      let isEmpty := run.isEmpty
      let text := if isEmpty then text else run ++ spacing.folded ++ text
      let spacing := if isEmpty then spacing else {}
      if next.atEnd || !next.atSpace then .ok (text, spacing.isBroken, next)
      else
        let (spacing, next) ← Spacing.read indent (next.rest.length + 1) spacing next
        if !inFlow && next.position.column < indent then .ok (text, spacing.isBroken, next)
        else plainScalarFrom inFlow indent fuel text spacing next

/-- A scalar without quotes. On further lines it must stand at the column `indent` or to the
right of it. Also says whether a line break follows it. -/
def plainScalar (inFlow : Bool) (indent : Nat) (c : Cursor) :
    Except Problem (String × Bool × Cursor) := do
  let (text, isBroken, next) ← plainScalarFrom inFlow indent (c.rest.length + 1) [] {} c
  .ok (String.ofList text.reverse, isBroken, next)

/-! ### On lines of its own -/

/-- What becomes of the line breaks at the end of a block scalar. -/
inductive Chomping where
  | strip
  | clip
  | keep
deriving DecidableEq, Repr

/-- The sign of a chomping. -/
def chomping? (c : Cursor) : Option Chomping :=
  if c.starts '+' then some .keep else if c.starts '-' then some .strip else none

/-- The digit of an indentation. -/
def indentDigit? (c : Cursor) : Option Nat :=
  (c.head?.filter Text.isAsciiDigit).map fun d => d.toNat - '0'.toNat

/-- The head of a block scalar behind its indicator: a sign and a digit in any order. -/
def blockHead (c : Cursor) : Except Problem (Chomping × Option Nat × Cursor) :=
  let result := fun (sign : Option Chomping) (digit : Option Nat) (next : Cursor) =>
    if digit == some 0 then
      Except.error ⟨"found an indentation indicator equal to 0", next.position⟩
    else .ok (sign.getD .clip, digit, next)
  match chomping? c, indentDigit? c with
  | some sign, _ =>
    let next := c.skip 1
    let digit := indentDigit? next
    result (some sign) digit (if digit.isSome then next.skip 1 else next)
  | none, some digit =>
    let next := c.skip 1
    let sign := chomping? next
    result sign (some digit) (if sign.isSome then next.skip 1 else next)
  | none, none => result none none c

/-- Pass over a comment and the end of its line. -/
def endOfLine (c : Cursor) : Except Problem Cursor :=
  let next := c.skipWhile isGap
  let next := if next.starts '#' then next.skipWhile (!isLineBreak ·) else next
  if next.atEnd then .ok next
  else if next.atLineEnd then .ok next.lineBreak.2
  else .error ⟨"did not find expected comment or line break", next.position⟩

/-- The empty lines at the cursor, as line breaks with the last one first, and the widest
indentation among them. A known indentation is not passed. -/
def blockBreaks (indent : Option Nat) :
    Nat → Nat → List Char → Cursor → Except Problem (Nat × List Char × Cursor)
  | 0, widest, breaks, c => .ok (widest, breaks, c)
  | fuel + 1, widest, breaks, c =>
    let blanks := (c.rest.takeWhile (· == ' ')).length
    let room := indent.map (· - c.position.column)
    let next := c.skip (min blanks (room.getD blanks))
    let widest := max widest next.position.column
    if indent.all (next.position.column < ·) && next.starts '\t' then
      .error ⟨"found a tab character where an indentation space is expected", next.position⟩
    else if next.head?.any isLineBreak then
      let (char, behind) := next.lineBreak
      blockBreaks indent fuel widest (char :: breaks) behind
    else .ok (widest, breaks, next)

/-- The lines of a block scalar. `pending` is the line break before the next line,
`breaks` are the empty lines behind it, and `afterBlank` says whether the line before starts
with a blank. -/
def blockLines (isLiteral : Bool) (indent : Nat) :
    Nat → List Char → Option Char → List Char → Bool → Cursor →
      Except Problem (List Char × Option Char × List Char × Cursor)
  | 0, text, pending, breaks, _, c => .ok (text, pending, breaks, c)
  | fuel + 1, text, pending, breaks, afterBlank, c =>
    if c.position.column != indent || c.atEnd then .ok (text, pending, breaks, c)
    else do
      let startsBlank := c.head?.any isGap
      let isFolded := !isLiteral && pending == some '\n' && !afterBlank && !startsBlank
      let joint :=
        if isFolded then if breaks.isEmpty then [' '] else []
        else pending.toList
      let content := c.rest.takeWhile (!isLineBreak ·)
      let text := content.reverse ++ breaks ++ joint ++ text
      let next := c.skip content.length
      if next.atEnd then .ok (text, none, [], next)
      else
        let (char, behind) := next.lineBreak
        let (_, breaks, behind) ← blockBreaks (some indent) (behind.rest.length + 1) 0 [] behind
        blockLines isLiteral indent fuel text (some char) breaks startsBlank behind

/-- A block scalar. `parent` is the column of the collection around it, if there is one. -/
def blockScalar (isLiteral : Bool) (parent : Option Nat) (c : Cursor) :
    Except Problem (String × Cursor) := do
  let (chomping, digit, next) ← blockHead (c.skip 1)
  let next ← endOfLine next
  let fixed := digit.map fun d => parent.getD 0 + d
  let (widest, breaks, next) ← blockBreaks fixed (next.rest.length + 1) 0 [] next
  let least := max 1 (parent.elim 0 (· + 1))
  let indent := fixed.getD (max widest least)
  let (text, pending, breaks, next) ←
    blockLines isLiteral indent (next.rest.length + 1) [] none breaks false next
  let ending := match chomping with
    | .strip => []
    | .clip => pending.toList
    | .keep => breaks ++ pending.toList
  .ok (String.ofList (ending ++ text).reverse, next)

end PyStyle.Yaml
