import PyStyle.Position
import PyStyle.Text.Blank
import PyStyle.Text.Identifier

/-!
# Terminals of the grammar

The source text as the grammar reads it: words, numbers, operators and the pieces
of string literals, each with the layout of the gap before it. Columns count bytes
here.

Whether a line break ends a statement depends on where the grammar stands, so
terminals carry the facts about the gap (is there a line break, how far is the next
line indented) and the grammar draws the conclusions.

- `Gap`, `Terminal` — the data;
- `Delimiter`, `Delimiter.content` — string literals up to their next event;
- `terminals` — the terminals of a text, ending with `endOfText`.
-/

namespace PyStyle.Concrete

open PyStyle.Text

/-- The layout between two terminals. -/
structure Gap where
  /-- Is there a line break that is neither escaped nor inside a comment? -/
  lineBreak : Bool
  /-- The width of the indentation behind the last such line break. -/
  indent : Nat
  /-- Where the layout begins to matter: behind the terminal before the gap, or
  behind a comment on the same line. -/
  anchor : Position
  /-- The line continuations in the gap. -/
  continuations : List Position
deriving Repr, Inhabited

/-- The class of a terminal. -/
inductive Terminal.Kind where
  | word
  | integer
  | float
  | op
  | stringStart
  /-- Plain text inside a string. -/
  | stringText
  | escape
  | escapedBrace
  | stringEnd
  /-- The conversion mark of an interpolation, such as `!r`. -/
  | conversion
  | endOfText
  /-- Here no terminal starts. -/
  | unknown
deriving DecidableEq, Repr, Inhabited

/-- A terminal with the gap before it. -/
structure Terminal where
  kind : Terminal.Kind
  text : String
  start : Position
  stop : Position
  gap : Gap
deriving Repr, Inhabited

/-- The terminal with its gap settled: no line break is seen in it any more. -/
def Terminal.settled (t : Terminal) : Terminal :=
  { t with gap := { t.gap with lineBreak := false } }

/-- The place one character further, in bytes. -/
def pastChar (p : Position) (c : Char) : Position :=
  if c == '\n' then ⟨p.line + 1, 0⟩ else ⟨p.line, p.column + c.utf8Size⟩

/-- The place behind a text, in bytes. -/
def past (p : Position) (text : List Char) : Position :=
  text.foldl pastChar p

/-! ### Gaps -/

/-- Blanks the grammar skips: white space, the byte-order mark and two more
characters without width. -/
def isSkipped (c : Char) : Bool :=
  isBlank c || c == '\uFEFF' || c == '\u2060' || c == '\u200B'

/-- The length of a line continuation, zero if there is none: a backslash before a
line break or at the end of the text. -/
def continuationLength : List Char → Nat
  | '\\' :: '\n' :: _ => 2
  | '\\' :: '\r' :: '\n' :: _ => 3
  | ['\\'] => 1
  | _ => 0

/-- The width of an indentation after one more blank. A tab counts eight; a form
feed and a carriage return start again. -/
def widenIndent (indent : Nat) (c : Char) : Nat :=
  if c == ' ' then indent + 1
  else if c == '\t' then indent + 8
  else if c == '\n' || c == '\r' || c == '\x0c' then 0
  else indent

/-- A gap while it is being read. -/
structure OpenGap where
  lineBreak : Bool
  indent : Nat
  anchor : Position
  /-- Continuations up to the last comment, the newest first. -/
  settled : List Position
  /-- Continuations behind the last comment, the newest first. -/
  loose : List Position

/-- Read a gap to its end: what it holds, where it ends and the text behind it. -/
def readGap : Nat → OpenGap → Position → List Char → OpenGap × Position × List Char
  | 0, gap, p, cs => (gap, p, cs)
  | _ + 1, gap, p, [] => ({ gap with lineBreak := true, indent := 0 }, p, [])
  | fuel + 1, gap, p, c :: rest =>
    if isSkipped c then
      readGap fuel
        { gap with lineBreak := gap.lineBreak || c == '\n', indent := widenIndent gap.indent c }
        (pastChar p c) rest
    else if c == '#' then
      let comment := (c :: rest).takeWhile (· != '\n')
      let p := past p comment
      let gap := { gap with indent := 0, settled := gap.loose ++ gap.settled, loose := [] }
      readGap fuel (if gap.lineBreak then gap else { gap with anchor := p }) p
        ((c :: rest).dropWhile (· != '\n'))
    else
      match continuationLength (c :: rest) with
      | 0 => (gap, p, c :: rest)
      | n + 1 =>
        readGap fuel { gap with loose := p :: gap.loose } (past p ((c :: rest).take (n + 1)))
          ((c :: rest).drop (n + 1))

/-- The gap at the front of a text. A string literal swallows the continuations right
before it. -/
def OpenGap.close (gap : OpenGap) (beforeString : Bool) : Gap :=
  { lineBreak := gap.lineBreak
    indent := gap.indent
    anchor := gap.anchor
    continuations :=
      if beforeString then gap.settled.reverse else (gap.loose ++ gap.settled).reverse }

/-- No gap at all. -/
def Gap.none (p : Position) : Gap :=
  { lineBreak := false, indent := 0, anchor := p, continuations := [] }

/-! ### Numbers -/

/-- The length of the longest run of digits with single underscores behind digits. -/
def digitRun : List Char → Nat
  | d :: '_' :: rest => if isAsciiDigit d then digitRun rest + 2 else 0
  | d :: rest => if isAsciiDigit d then digitRun rest + 1 else 0
  | [] => 0

/-- The length of a run of radix digits, each perhaps with one underscore before it. -/
def radixRun (isDigit : Char → Bool) : List Char → Nat
  | '_' :: d :: rest => if isDigit d then radixRun isDigit rest + 2 else 0
  | d :: rest => if isDigit d then radixRun isDigit rest + 1 else 0
  | [] => 0

/-- Is `c` a hexadecimal digit? -/
def isHexDigit (c : Char) : Bool :=
  isAsciiDigit c || ('a' ≤ c && c ≤ 'f') || ('A' ≤ c && c ≤ 'F')

/-- Which digits follow a radix mark. -/
def radixDigits? (mark : Char) : Option (Char → Bool) :=
  if mark == 'x' || mark == 'X' then some isHexDigit
  else if mark == 'o' || mark == 'O' then some fun c => '0' ≤ c && c ≤ '7'
  else if mark == 'b' || mark == 'B' then some fun c => c == '0' || c == '1'
  else none

/-- One when the next character is one of `marks`, else zero. -/
def optional (marks : List Char) : List Char → Nat
  | c :: _ => if marks.contains c then 1 else 0
  | [] => 0

/-- The length of an integer with a radix mark, zero if there is none. -/
def radixInteger : List Char → Nat
  | '0' :: mark :: rest =>
    match radixDigits? mark with
    | some isDigit =>
      let digits := radixRun isDigit rest
      if digits = 0 then 0 else digits + 2 + optional ['l', 'L'] (rest.drop digits)
    | Option.none => 0
  | _ => 0

/-- The length of a decimal integer, zero if there is none. -/
def decimalInteger (cs : List Char) : Nat :=
  let digits := digitRun cs
  if digits = 0 then 0 else digits + optional ['l', 'L', 'j', 'J'] (cs.drop digits)

/-- The length of the integer at the front. -/
def integerLength (cs : List Char) : Nat :=
  max (radixInteger cs) (decimalInteger cs)

/-- The length of an exponent, zero if there is none. -/
def exponentLength : List Char → Nat
  | e :: rest =>
    if e == 'e' || e == 'E' then
      let sign := optional ['+', '-'] rest
      let digits := digitRun (rest.drop sign)
      if digits = 0 then 0 else digits + sign + 1
    else 0
  | [] => 0

/-- The length of the float at the front, zero if there is none: it has a point or
an exponent. -/
def floatLength (cs : List Char) : Nat :=
  let whole := digitRun cs
  let behind := cs.drop whole
  let scaled :=
    match behind with
    | '.' :: rest =>
      let fraction := digitRun rest
      if whole = 0 && fraction = 0 then 0
      else whole + 1 + fraction + exponentLength (rest.drop fraction)
    | _ =>
      if whole = 0 || exponentLength behind = 0 then 0 else whole + exponentLength behind
  if scaled = 0 then 0 else scaled + optional ['j', 'J'] (cs.drop scaled)

/-! ### Strings -/

/-- How a string literal is delimited and what its prefix asks for. -/
structure Delimiter where
  quote : Char
  triple : Bool
  raw : Bool
  bytes : Bool
  format : Bool
deriving DecidableEq, Repr, Inhabited

/-- The letters a string prefix is made of. -/
def isFlag (c : Char) : Bool :=
  ['f', 'F', 'r', 'R', 'b', 'B', 'u', 'U'].contains c

/-- The delimiter that opens at the front and the length of the opening. -/
def delimiter? (cs : List Char) : Option (Delimiter × Nat) :=
  let flags := cs.takeWhile isFlag
  match cs.dropWhile isFlag with
  | q :: rest =>
    if q == '\'' || q == '"' || q == '`' then
      let triple := q != '`' && [q, q].isPrefixOf rest
      some ({ quote := q
              triple
              raw := flags.any fun c => c == 'r' || c == 'R'
              bytes := flags.any fun c => c == 'b' || c == 'B'
              format := flags.any fun c => c == 'f' || c == 'F' },
        flags.length + if triple then 3 else 1)
    else Option.none
  | [] => Option.none

/-- What comes next inside a string. -/
inductive Content where
  /-- So many characters of plain text. -/
  | text (length : Nat)
  /-- The closing quotes, which reach so many characters further. -/
  | close (length : Nat)
  /-- Neither: an escape, a brace, or a string that is not closed. -/
  | other
deriving DecidableEq, Repr

/-- How many characters behind a backslash a raw string takes along: a quote or a
second backslash, then a line break. -/
def rawEscape (d : Delimiter) (cs : List Char) : Nat :=
  let quoted := match cs with
    | c :: _ => if c == d.quote || c == '\\' then 1 else 0
    | [] => 0
  let lineBreak := match cs.drop quoted with
    | '\r' :: '\n' :: _ => 2
    | '\r' :: _ => 1
    | '\n' :: _ => 1
    | _ => 0
  quoted + lineBreak

/-- The text seen so far, if there is any. -/
def Content.ofSeen (seen : Bool) (n : Nat) : Content :=
  if seen then .text n else .other

/-- What comes next inside a string, when `n` characters were passed and `seen` tells
whether any of them counts as text. -/
def Delimiter.content (d : Delimiter) (seen : Bool) (n : Nat) (cs : List Char) : Content :=
  match cs with
  | [] => .other
  | c :: rest =>
    if d.format && (c == '{' || c == '}') then .ofSeen seen n
    else if c == '\\' then
      if d.raw then
        d.content seen (n + 1 + rawEscape d rest) (rest.drop (rawEscape d rest))
      else if d.bytes then
        match rest with
        | mark :: _ :: tail =>
          if mark == 'N' || mark == 'u' || mark == 'U' then d.content true (n + 3) tail
          else .ofSeen seen n
        | _ => .ofSeen seen n
      else .ofSeen seen n
    else if c == d.quote then
      if d.triple then
        if [c, c].isPrefixOf rest then
          if seen then .text n else .close (n + 3)
        else if [c].isPrefixOf rest then .text (n + 2)
        else .text (n + 1)
      else if seen then .text n
      else .close (n + 1)
    else if c == '\n' && seen && !d.triple then .other
    else d.content true (n + 1) rest
termination_by cs.length
decreasing_by
  · simp only [List.length_drop, List.length_cons]; omega
  · simp only [List.length_cons]; omega
  · simp only [List.length_cons]; omega

/-- Does the list hold at least `n` hexadecimal digits at the front? -/
def hexDigitsAt (n : Nat) (cs : List Char) : Bool :=
  (cs.take n).length == n && (cs.take n).all isHexDigit

/-- The length of the escape sequence at the front, zero if there is none. -/
def escapeLength : List Char → Nat
  | '\\' :: mark :: rest =>
    if mark == 'u' then if hexDigitsAt 4 rest then 6 else 0
    else if mark == 'U' then if hexDigitsAt 8 rest then 10 else 0
    else if mark == 'x' then if hexDigitsAt 2 rest then 4 else 0
    else if isDecimal mark then ((mark :: rest).take 3 |>.takeWhile isDecimal).length + 1
    else if mark == '\n' then 2
    else if mark == '\r' then if ['\n'].isPrefixOf rest then 3 else 0
    else if mark == 'N' then
      match rest with
      | '{' :: name =>
        let length := (name.takeWhile (· != '}')).length
        if 0 < length && length < name.length then length + 4 else 0
      | _ => 0
    else if ['\'', '"', 'a', 'b', 'f', 'r', 'n', 't', 'v', '\\'].contains mark then 2
    else 0
  | _ => 0

/-! ### Operators -/

/-- The operators of more than one character, longer ones first. -/
def longOperators : List (List Char) :=
  ["**=", "//=", ">>=", "<<=", "...", "->", ":=", "**", "//", "<<", ">>", "<=", ">=", "==", "!=",
   "<>", "+=", "-=", "*=", "/=", "%=", "@=", "&=", "|=", "^="].map String.toList

/-- The operators of one character. -/
def shortOperators : List Char :=
  "+-*/%@&|^~<>()[]\x7b\x7d,:.;=".toList

/-- The length of the operator at the front, zero if there is none. -/
def operatorLength (cs : List Char) : Nat :=
  match longOperators.find? (·.isPrefixOf cs) with
  | some op => op.length
  | Option.none =>
    match cs with
    | c :: _ => if shortOperators.contains c then 1 else 0
    | [] => 0

/-! ### The reader -/

/-- What the reader stands in, besides plain code. -/
inductive Mode where
  /-- The text of a string literal. -/
  | text (delimiter : Delimiter)
  /-- The code of an interpolation, with the brackets and the lambdas open in it. -/
  | code (brackets lambdas : Nat)
  /-- The format specifier of an interpolation. -/
  | spec
deriving Repr

/-- The reader between two terminals. -/
structure Reader where
  rest : List Char
  position : Position
  modes : List Mode

namespace Reader

/-- Take `n` characters as a terminal behind `gap`. -/
def take (r : Reader) (kind : Terminal.Kind) (n : Nat) (gap : Gap) : Terminal × Reader :=
  let text := r.rest.take n
  let stop := past r.position text
  (⟨kind, String.ofList text, r.position, stop, gap⟩,
    { r with rest := r.rest.drop n, position := stop })

/-- The modes behind the closing brace of an interpolation. -/
def leaveInterpolation : List Mode → List Mode
  | .spec :: .code _ _ :: modes => modes
  | .code _ _ :: modes => modes
  | modes => modes

/-- The modes behind an operator in code. -/
def afterOperator (op : List Char) : List Mode → List Mode
  | .code brackets lambdas :: modes =>
    if op == ['('] || op == ['['] || op == ['{'] then .code (brackets + 1) lambdas :: modes
    else if op == [')'] || op == [']'] then .code (brackets - 1) lambdas :: modes
    else if op == ['}'] then
      if brackets = 0 then modes else .code (brackets - 1) lambdas :: modes
    else if op == [':'] && brackets = 0 then
      if lambdas = 0 then .spec :: .code brackets lambdas :: modes
      else .code brackets (lambdas - 1) :: modes
    else .code brackets lambdas :: modes
  | modes => modes

/-- The modes behind a word in code. -/
def afterWord (word : List Char) : List Mode → List Mode
  | .code 0 lambdas :: modes =>
    if word == "lambda".toList then .code 0 (lambdas + 1) :: modes else .code 0 lambdas :: modes
  | modes => modes

/-- Does a conversion mark stand at the front of an interpolation's code? -/
def atConversion (modes : List Mode) (cs : List Char) : Bool :=
  match modes, cs with
  | .code 0 _ :: _, '!' :: c :: _ => 'a' ≤ c && c ≤ 'z'
  | _, _ => false

/-- The next terminal of code. -/
def code (r : Reader) (gap : OpenGap) : Terminal × Reader :=
  match delimiter? r.rest with
  | some (d, n) =>
    let (t, r) := r.take .stringStart n (gap.close true)
    (t, { r with modes := .text d :: r.modes })
  | Option.none =>
    let gap := gap.close false
    match r.rest with
    | [] => r.take .endOfText 0 gap
    | c :: rest =>
      if isIdentifierStart c then
        let word := c :: rest.takeWhile isIdentifierPart
        if word == "except".toList && ['*'].isPrefixOf (r.rest.drop word.length) then
          r.take .op (word.length + 1) gap
        else
          let (t, r) := r.take .word word.length gap
          (t, { r with modes := afterWord word r.modes })
      else if integerLength r.rest < floatLength r.rest then
        r.take .float (floatLength r.rest) gap
      else if 0 < integerLength r.rest then
        r.take .integer (integerLength r.rest) gap
      else if atConversion r.modes r.rest then r.take .conversion 2 gap
      else if 0 < operatorLength r.rest then
        let op := r.rest.take (operatorLength r.rest)
        let (t, r) := r.take .op (operatorLength r.rest) gap
        (t, { r with modes := afterOperator op r.modes })
      else r.take .unknown 1 gap

/-- The next terminal of a string's text. -/
def text (r : Reader) (d : Delimiter) (outer : List Mode) : Terminal × Reader :=
  let gap := Gap.none r.position
  if d.format && (['{', '{'].isPrefixOf r.rest || ['}', '}'].isPrefixOf r.rest) then
    r.take .escapedBrace 2 gap
  else if d.format && ['{'].isPrefixOf r.rest then
    let (t, r) := r.take .op 1 gap
    (t, { r with modes := .code 0 0 :: r.modes })
  else
    match d.content false 0 r.rest with
    | .text n => r.take .stringText n gap
    | .close n =>
      let (t, r) := r.take .stringEnd n gap
      (t, { r with modes := outer })
    | .other =>
      if 0 < escapeLength r.rest then r.take .escape (escapeLength r.rest) gap
      else if ['\\'].isPrefixOf r.rest then r.take .stringText 1 gap
      else r.take .unknown 1 gap

/-- The next terminal of a format specifier: its text is skipped up to a brace. -/
def spec (r : Reader) (outer : List Mode) : Terminal × Reader :=
  let skipped := r.rest.takeWhile fun c => c != '{' && c != '}'
  let r := { r with
    rest := r.rest.drop skipped.length
    position := past r.position skipped }
  let gap := Gap.none r.position
  match r.rest with
  | '{' :: _ =>
    let (t, r) := r.take .op 1 gap
    (t, { r with modes := .code 0 0 :: .spec :: outer })
  | '}' :: _ =>
    let (t, r) := r.take .op 1 gap
    (t, { r with modes := leaveInterpolation (.spec :: outer) })
  | _ => r.take .unknown 1 gap

/-- The next terminal. -/
def next (r : Reader) : Terminal × Reader :=
  match r.modes with
  | .text d :: outer => r.text d outer
  | .spec :: outer => r.spec outer
  | _ =>
    let start : OpenGap :=
      { lineBreak := false, indent := 0, anchor := r.position, settled := [], loose := [] }
    let (gap, position, rest) := readGap (r.rest.length + 1) start r.position r.rest
    ({ r with position, rest }).code gap

/-- All terminals, the newest first in `seen`, up to the end of the text or to the
first character that starts none. -/
def all : Nat → Reader → List Terminal → List Terminal
  | 0, _, seen => seen.reverse
  | fuel + 1, r, seen =>
    let (t, r) := r.next
    if t.kind == .endOfText || t.kind == .unknown then (t :: seen).reverse
    else all fuel r (t :: seen)

end Reader

/-- The terminals of a source text. -/
def terminals (source : List Char) : List Terminal :=
  Reader.all (source.length + 1) { rest := source, position := ⟨1, 0⟩, modes := [] } []

end PyStyle.Concrete
