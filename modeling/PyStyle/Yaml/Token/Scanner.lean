import PyStyle.Yaml.Token.Property

/-!
# Splitting a YAML text into tokens

Indentation opens and closes blocks. Whether a word is a key shows only at the colon behind
it, so the place of every possible key is kept until the line ends.

- `PossibleKey` — a place where a key may have begun;
- `Scanner` — the state between two tokens;
- `Scanner.step` — the next tokens;
- `tokens` — all tokens of a text.
-/

namespace PyStyle.Yaml

/-- A place where a key may have begun. -/
structure PossibleKey where
  /-- Must it be a key, because the block around it holds nothing else? -/
  isRequired : Bool
  /-- How many tokens stand before it. -/
  tokenCount : Nat
  index : Nat
  position : Position

/-- The state between two tokens. -/
structure Scanner where
  cursor : Cursor
  /-- The tokens so far, the last one first. -/
  tokens : List Token
  /-- The column of the block around the cursor, if there is one. -/
  indent : Option Nat
  /-- The columns of the blocks further out, the nearest first. -/
  indents : List (Option Nat)
  /-- May a key begin here? -/
  keyAllowed : Bool
  /-- The possible key on this level of brackets. -/
  key : Option PossibleKey
  /-- The possible keys on the levels further out, the nearest first. -/
  keys : List (Option PossibleKey)

namespace Scanner

/-- The state before the first token. -/
def start (text : List Char) : Scanner :=
  { cursor := .ofText text
    tokens := []
    indent := none
    indents := []
    keyAllowed := true
    key := none
    keys := [] }

/-- Is the cursor between brackets? -/
def inFlow (s : Scanner) : Bool :=
  !s.keys.isEmpty

/-- One more token, which begins at a position. -/
def emit (s : Scanner) (content : TokenContent) (position : Position) : Scanner :=
  { s with tokens := ⟨content, position⟩ :: s.tokens }

/-- One more token behind the first `count` tokens. -/
def insert (s : Scanner) (count : Nat) (content : TokenContent) (position : Position) : Scanner :=
  let later := s.tokens.length - count
  { s with tokens := s.tokens.take later ++ ⟨content, position⟩ :: s.tokens.drop later }

/-- A problem at the cursor. -/
def refuse (s : Scanner) (message : String) : Except Problem Scanner :=
  .error ⟨message, s.cursor.position⟩

/-! ### Blocks -/

/-- Is the block around the cursor left of the column? -/
def isLeftOf (indent : Option Nat) (column : Nat) : Bool :=
  indent.all (· < column)

/-- Open a block at a column if it is right of the block around it. The token goes behind
the first `count` tokens, or to the end. -/
def openBlock (s : Scanner) (column : Nat) (count : Option Nat) (content : TokenContent)
    (position : Position) : Scanner :=
  if s.inFlow || !isLeftOf s.indent column then s
  else
    let opened := { s with indents := s.indent :: s.indents, indent := some column }
    match count with
    | some n => opened.insert n content position
    | none => opened.emit content position

/-- Close the blocks that are right of a column, given those further out; without a column
all of them. -/
def closeBlocksFrom (s : Scanner) (column : Option Nat) : List (Option Nat) → Scanner
  | [] => s
  | outer :: further =>
    if s.indent.any fun i => column.all (· < i) then
      let closed := s.emit .blockEnd s.cursor.position
      { closed with indent := outer, indents := further }.closeBlocksFrom column further
    else s

/-- Close the blocks that are right of a column. Between brackets there are no blocks. -/
def closeBlocks (s : Scanner) (column : Option Nat) : Scanner :=
  if s.inFlow then s else s.closeBlocksFrom column s.indents

/-! ### Keys -/

/-- The message when a key has no colon. -/
def missingColon : String := "could not find expected ':'"

/-- Give up a possible key; one that had to be a key is a problem. -/
def forgetKey (s : Scanner) : Except Problem Scanner :=
  match s.key with
  | none => .ok s
  | some key =>
    if key.isRequired then .error ⟨missingColon, key.position⟩ else .ok { s with key := none }

/-- A key may begin here, if keys are allowed. -/
def rememberKey (s : Scanner) : Except Problem Scanner :=
  if !s.keyAllowed then .ok s
  else do
    let s ← s.forgetKey
    let position := s.cursor.position
    .ok { s with
          key := some
            { isRequired := !s.inFlow && s.indent == some position.column
              tokenCount := s.tokens.length
              index := s.cursor.index
              position } }

/-- How far a colon may be from the front of its key. -/
def maxKeyLength : Nat := 1024

/-- Is the colon of a possible key still to come? It must be on the same line and near. -/
def isFresh (cursor : Cursor) (key : PossibleKey) : Bool :=
  key.position.line == cursor.position.line && cursor.index ≤ key.index + maxKeyLength

/-- A possible key, unless its colon can no longer come. -/
def freshKey (cursor : Cursor) : Option PossibleKey → Except Problem (Option PossibleKey)
  | none => .ok none
  | some key =>
    if isFresh cursor key then .ok (some key)
    else if key.isRequired then .error ⟨missingColon, key.position⟩
    else .ok none

/-- Drop the possible keys whose colons can no longer come. -/
def dropStaleKeys (s : Scanner) : Except Problem Scanner := do
  let keys ← s.keys.mapM (freshKey s.cursor)
  let key ← freshKey s.cursor s.key
  .ok { s with key, keys }

/-! ### Tokens -/

/-- Pass over blanks, comments and line breaks. A new line allows keys outside of
brackets. -/
def skipToToken : Nat → Scanner → Scanner
  | 0, s => s
  | fuel + 1, s =>
    let tabs := s.inFlow || !s.keyAllowed
    let next := s.cursor.skipWhile fun c => c == ' ' || (tabs && c == '\t')
    let next := if next.starts '#' then next.skipWhile (!isLineBreak ·) else next
    if next.head?.any isLineBreak then
      skipToToken fuel
        { s with cursor := next.lineBreak.2, keyAllowed := s.keyAllowed || !s.inFlow }
    else { s with cursor := next }

/-- A token of the given length. -/
def take (s : Scanner) (length : Nat) (content : TokenContent) : Scanner :=
  { s.emit content s.cursor.position with cursor := s.cursor.skip length }

/-- The mark of a document. -/
def documentMark (s : Scanner) (content : TokenContent) : Except Problem Scanner := do
  let s ← (s.closeBlocks none).forgetKey
  .ok ({ s with keyAllowed := false }.take 3 content)

/-- A directive. -/
def directiveLine (s : Scanner) : Except Problem Scanner := do
  let s ← (s.closeBlocks none).forgetKey
  let (content, cursor) ← directive s.cursor
  .ok { s.emit content s.cursor.position with cursor, keyAllowed := false }

/-- An opening bracket. -/
def openBracket (s : Scanner) (content : TokenContent) : Except Problem Scanner := do
  let s ← s.rememberKey
  .ok ({ s with key := none, keys := s.key :: s.keys, keyAllowed := true }.take 1 content)

/-- A closing bracket. -/
def closeBracket (s : Scanner) (content : TokenContent) : Except Problem Scanner := do
  let s ← s.forgetKey
  let (key, keys) := match s.keys with
    | [] => (s.key, [])
    | key :: keys => (key, keys)
  .ok ({ s with key, keys, keyAllowed := false }.take 1 content)

/-- A comma between brackets. -/
def comma (s : Scanner) : Except Problem Scanner := do
  let s ← s.forgetKey
  .ok ({ s with keyAllowed := true }.take 1 .flowEntry)

/-- A dash in front of an item. -/
def dash (s : Scanner) : Except Problem Scanner := do
  if !s.inFlow && !s.keyAllowed then
    s.refuse "block sequence entries are not allowed in this context"
  else
    let position := s.cursor.position
    let s ← (s.openBlock position.column none .blockSequenceStart position).forgetKey
    .ok ({ s with keyAllowed := true }.take 1 .blockEntry)

/-- A question mark in front of a key. -/
def question (s : Scanner) : Except Problem Scanner := do
  if !s.inFlow && !s.keyAllowed then
    s.refuse "mapping keys are not allowed in this context"
  else
    let position := s.cursor.position
    let s ← (s.openBlock position.column none .blockMappingStart position).forgetKey
    .ok ({ s with keyAllowed := !s.inFlow }.take 1 .key)

/-- A colon behind a key. -/
def colon (s : Scanner) : Except Problem Scanner :=
  match s.key with
  | some key =>
    let s := s.insert key.tokenCount .key key.position
    let s := s.openBlock key.position.column (some key.tokenCount) .blockMappingStart
      key.position
    .ok ({ s with key := none, keyAllowed := false }.take 1 .value)
  | none =>
    if !s.inFlow && !s.keyAllowed then
      s.refuse "mapping values are not allowed in this context"
    else
      let position := s.cursor.position
      let s := s.openBlock position.column none .blockMappingStart position
      .ok ({ s with keyAllowed := !s.inFlow }.take 1 .value)

/-- A token that may begin a key and is read by a function. -/
def keyToken (s : Scanner) (read : Cursor → Except Problem (TokenContent × Cursor)) :
    Except Problem Scanner := do
  let s ← s.rememberKey
  let (content, cursor) ← read s.cursor
  .ok { s.emit content s.cursor.position with cursor, keyAllowed := false }

/-- An anchor or alias. -/
def named (content : String → TokenContent) (c : Cursor) :
    Except Problem (TokenContent × Cursor) := do
  let (name, next) ← anchorName c
  .ok (content name, next)

/-- A scalar between quotes. -/
def quoted (isSingle : Bool) (c : Cursor) : Except Problem (TokenContent × Cursor) := do
  let (text, next) ← quotedScalar isSingle c
  .ok (.scalar text .quoted, next)

/-- A scalar without quotes. A line break behind it allows keys. -/
def plain (s : Scanner) : Except Problem Scanner := do
  let s ← s.rememberKey
  let (text, isBroken, cursor) ← plainScalar s.inFlow (s.indent.elim 0 (· + 1)) s.cursor
  .ok { s.emit (.scalar text .plain) s.cursor.position with cursor, keyAllowed := isBroken }

/-- A scalar on lines of its own. -/
def block (s : Scanner) (isLiteral : Bool) : Except Problem Scanner := do
  let s ← s.forgetKey
  let (text, cursor) ← blockScalar isLiteral s.indent s.cursor
  let style := if isLiteral then ScalarStyle.literal else .folded
  .ok { s.emit (.scalar text style) s.cursor.position with cursor, keyAllowed := true }

/-- Characters that no scalar without quotes starts with. -/
def indicators : List Char :=
  ['-', '?', ':', ',', '[', ']', '{', '}', '#', '&', '*', '!', '|', '>', '\'', '"', '%', '@',
   '\x60']

/-- Does a scalar without quotes begin at the cursor? -/
def startsPlain (s : Scanner) : Bool :=
  let c := s.cursor
  (!c.atSpace && !c.head?.any indicators.contains)
    || (c.starts '-' && !c.second?.any isGap)
    || (!s.inFlow && (c.starts '?' || c.starts ':') && !c.spaceFollows)

/-- The end of the text. -/
def finish (s : Scanner) : Except Problem Scanner := do
  let s ← (s.closeBlocks none).forgetKey
  .ok (s.emit .streamEnd s.cursor.position)

/-- The token at the cursor. -/
def token (s : Scanner) : Except Problem Scanner :=
  let c := s.cursor
  if c.position.column == 0 && c.starts '%' then s.directiveLine
  else if c.atMark '-' then s.documentMark .documentStart
  else if c.atMark '.' then s.documentMark .documentEnd
  else if c.starts '[' then s.openBracket .flowSequenceStart
  else if c.starts '{' then s.openBracket .flowMappingStart
  else if c.starts ']' then s.closeBracket .flowSequenceEnd
  else if c.starts '}' then s.closeBracket .flowMappingEnd
  else if c.starts ',' then s.comma
  else if c.starts '-' && c.spaceFollows then s.dash
  else if c.starts '?' && (s.inFlow || c.spaceFollows) then s.question
  else if c.starts ':' && (s.inFlow || c.spaceFollows) then s.colon
  else if c.starts '*' then s.keyToken (named .reference)
  else if c.starts '&' then s.keyToken (named .anchor)
  else if c.starts '!' then s.keyToken (tag s.inFlow)
  else if c.starts '|' && !s.inFlow then s.block true
  else if c.starts '>' && !s.inFlow then s.block false
  else if c.starts '\'' then s.keyToken (quoted true)
  else if c.starts '"' then s.keyToken (quoted false)
  else if s.startsPlain then s.plain
  else s.refuse "found character that cannot start any token"

/-- The tokens from the cursor on. -/
def run : Nat → Scanner → Except Problem (List Token)
  | 0, s => .error ⟨"found unexpected end of stream", s.cursor.position⟩
  | fuel + 1, s => do
    let s ← (s.skipToToken (s.cursor.rest.length + 1)).dropStaleKeys
    let s := s.closeBlocks (some s.cursor.position.column)
    if s.cursor.atEnd then
      let s ← s.finish
      .ok s.tokens.reverse
    else
      let s ← s.token
      run fuel s

end Scanner

/-- All tokens of a text. Every token but the last one takes at least one character. -/
def tokens (text : String) : Except Problem (List Token) :=
  let scanner := Scanner.start text.toList
  if scanner.cursor.rest.all isPrintable then
    scanner.run (scanner.cursor.rest.length + 1)
  else .error ⟨"control characters are not allowed", ⟨1, 0⟩⟩

end PyStyle.Yaml
