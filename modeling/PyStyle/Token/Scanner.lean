import PyStyle.Text.Quoted
import PyStyle.Token
import PyStyle.Token.Lexeme

/-!
# Splitting a source text into tokens

A small-step machine over the characters of the text. A step reads the
indentation of a logical line, skips a blank, joins two lines at a backslash, or
takes one lexeme; the loop runs the machine until the text is used up and then
closes the open line and the open blocks.

- `Scanner` — the rest of the text, where it starts, the bracket depth and the
  widths of the open blocks;
- `Scanner.step` — one step of the machine;
- `Scanner.measure_lt_of_step` — a step uses up text, or else settles the
  indentation of the line, so the loop ends;
- `tokenize` — the tokens of a text, or the first thing in it that is no token.
-/

namespace PyStyle

/-- Why a text has no tokens. -/
inductive LexError where
  /-- A line goes back to a width at which no open block starts. -/
  | inconsistentDedent (position : Position)
  /-- A string literal is still open at the end of its line or of the text. -/
  | unterminatedString (position : Position)
  /-- No token starts with this character. -/
  | unexpectedCharacter (position : Position) (found : Char)
deriving DecidableEq, Repr

namespace LexError

/-- Where the error is. -/
def position : LexError → Position
  | inconsistentDedent p => p
  | unterminatedString p => p
  | unexpectedCharacter p _ => p

/-- The error in words, after its position. -/
def message : LexError → String
  | inconsistentDedent p => p.display ++ ": unindent does not match any outer indentation level"
  | unterminatedString p => p.display ++ ": unterminated string literal"
  | unexpectedCharacter p c => p.display ++ ": unexpected character " ++ Text.quotedChar c

end LexError

/-- The place one character further: a line feed starts the next line. -/
def Position.pastChar (p : Position) (c : Char) : Position :=
  if c == '\n' then ⟨p.line + 1, 0⟩ else ⟨p.line, p.column + 1⟩

/-- The place behind a text that starts here. -/
def Position.past (p : Position) (text : List Char) : Position :=
  text.foldl Position.pastChar p

/-- The start of the next line. -/
def Position.nextLine (p : Position) : Position :=
  ⟨p.line + 1, 0⟩

/-- The state of the machine between two steps. -/
structure Scanner where
  /-- The text still to be split. -/
  rest : List Char
  /-- Where `rest` starts. -/
  position : Position
  /-- How many brackets are open. -/
  depth : Nat
  /-- The widths at which the open blocks start, innermost first. -/
  indents : List Nat
  /-- Is the indentation of a logical line still to be read? -/
  fresh : Bool
deriving DecidableEq, Repr

namespace Scanner

/-- The machine before the first step. -/
def start (source : List Char) : Scanner :=
  { rest := source, position := ⟨1, 0⟩, depth := 0, indents := [], fresh := true }

/-- What a step does: it emits tokens and goes on, or the text is used up. -/
inductive Step where
  | emit (tokens : List Token) (next : Scanner)
  | stop (last : Scanner)

/-- The width of the innermost open block, zero outside all blocks. -/
def width (s : Scanner) : Nat :=
  s.indents.headD 0

/-- Take the first `n` characters as one token. -/
def take (s : Scanner) (kind : TokenKind) (n : Nat) : Token × Scanner :=
  let text := s.rest.take n
  (⟨kind, String.ofList text, s.position⟩,
    { s with rest := s.rest.drop n, position := s.position.past text })

/-- Take the line break at the front, if there is one, as one token. The next
logical line starts behind it unless a bracket is open. -/
def takeBreak (s : Scanner) (kind : TokenKind) : Token × Scanner :=
  let n := Lexeme.lineBreak s.rest
  (⟨kind, String.ofList (s.rest.take n), s.position⟩,
    { s with
      rest := s.rest.drop n
      position := if n = 0 then s.position else s.position.nextLine
      fresh := s.depth == 0 })

/-! ### The start of a logical line -/

/-- May `c` stand in the indentation of a line? -/
def isIndentChar (c : Char) : Bool :=
  c == ' ' || c == '\t' || c == '\x0c'

/-- The width after one more indentation character: a tab goes on to the next
multiple of eight, a form feed starts again at zero. -/
def widen (width : Nat) (c : Char) : Nat :=
  if c == ' ' then width + 1
  else if c == '\t' then (width / 8 + 1) * 8
  else 0

/-- The width of an indentation. -/
def indentWidth (blanks : List Char) : Nat :=
  blanks.foldl widen 0

/-- The blocks that stay open at `width`: those that start further right close. -/
def keptBlocks (width : Nat) (indents : List Nat) : List Nat :=
  indents.dropWhile (width < ·)

/-- How many blocks close at `width`. -/
def closedBlocks (width : Nat) (indents : List Nat) : Nat :=
  (indents.takeWhile (width < ·)).length

/-- A block ends here. -/
def dedent (position : Position) : Token :=
  ⟨.dedent, "", position⟩

/-- Open a block, close blocks, or stay, as the indentation `blanks` of a line with
code says. The machine `s` stands behind the indentation. -/
def openLine (blanks : List Char) (s : Scanner) : Except LexError Step :=
  let width := indentWidth blanks
  let line := { s with fresh := false }
  if s.width < width then
    .ok (.emit [⟨.indent, String.ofList blanks, ⟨s.position.line, 0⟩⟩]
      { line with indents := width :: s.indents })
  else if (keptBlocks width s.indents).headD 0 = width then
    .ok (.emit (List.replicate (closedBlocks width s.indents) (dedent s.position))
      { line with indents := keptBlocks width s.indents })
  else .error (.inconsistentDedent s.position)

/-- A line without code: perhaps a comment, then the line break. -/
def blankLine (s : Scanner) : Step :=
  match s.rest with
  | '#' :: _ =>
    let (comment, s) := s.take .comment (Lexeme.comment s.rest)
    let (lineEnd, s) := s.takeBreak .blankLine
    .emit [comment, lineEnd] { s with fresh := true }
  | _ =>
    let (lineEnd, s) := s.takeBreak .blankLine
    .emit [lineEnd] { s with fresh := true }

/-- Read the indentation of a logical line. -/
def lineStart (s : Scanner) : Except LexError Step :=
  let blanks := s.rest.takeWhile isIndentChar
  let inner := { s with
    rest := s.rest.dropWhile isIndentChar
    position := s.position.past blanks }
  match inner.rest with
  | [] => .ok (.stop inner)
  | c :: _ =>
    if c == '#' || Lexeme.isLineBreak c then .ok (blankLine inner)
    else openLine blanks inner

/-! ### Inside a line -/

/-- The bracket depth behind an operator. -/
def depthAfter (depth : Nat) (op : List Char) : Nat :=
  if op == ['('] || op == ['['] || op == ['{'] then depth + 1
  else if op == [')'] || op == [']'] || op == ['}'] then depth - 1
  else depth

/-- The kind of an operator: the colon has one of its own. -/
def operatorKind (op : List Char) : TokenKind :=
  if op == [':'] then .colon else .op

/-- Take one lexeme: a string, a number, a name or an operator, whichever of these
comes first in this order. -/
def lexeme (s : Scanner) (c : Char) : Except LexError Step :=
  match Lexeme.opener? s.rest with
  | some opener =>
    match Lexeme.stringLiteral opener s.rest with
    | some n =>
      let (token, s) := s.take .string n
      .ok (.emit [token] s)
    | none => .error (.unterminatedString s.position)
  | none =>
    if 0 < Lexeme.number s.rest then
      let (token, s) := s.take .number (Lexeme.number s.rest)
      .ok (.emit [token] s)
    else if 0 < Lexeme.name s.rest then
      let (token, s) := s.take .name (Lexeme.name s.rest)
      .ok (.emit [token] s)
    else if 0 < Lexeme.operator s.rest then
      let op := s.rest.take (Lexeme.operator s.rest)
      let (token, s) := s.take (operatorKind op) (Lexeme.operator s.rest)
      .ok (.emit [token] { s with depth := depthAfter s.depth op })
    else .error (.unexpectedCharacter s.position c)

/-- The length of a backslash with a line feed, or a carriage return and a line
feed, behind it; zero if the text starts otherwise. -/
def continuation : List Char → Nat
  | '\\' :: '\n' :: _ => 2
  | '\\' :: '\r' :: '\n' :: _ => 3
  | _ => 0

/-- One step inside a line. -/
def inLine (s : Scanner) : Except LexError Step :=
  match s.rest with
  | [] => .ok (.stop s)
  | c :: rest =>
    if isIndentChar c then
      .ok (.emit [] { s with rest, position := s.position.pastChar c })
    else if 0 < continuation s.rest then
      .ok (.emit [] { s with
        rest := s.rest.drop (continuation s.rest)
        position := s.position.nextLine })
    else if Lexeme.isLineBreak c then
      let (token, s) := s.takeBreak (if s.depth = 0 then .newline else .blankLine)
      .ok (.emit [token] s)
    else if c == '#' then
      let (token, s) := s.take .comment (Lexeme.comment s.rest)
      .ok (.emit [token] s)
    else s.lexeme c

/-- One step of the machine. -/
def step (s : Scanner) : Except LexError Step :=
  if s.fresh then s.lineStart else s.inLine

/-! ### The loop -/

/-- What a step makes smaller: the text, and the work of reading an indentation. -/
def measure (s : Scanner) : Nat :=
  2 * s.rest.length + (if s.fresh then 1 else 0)

/-- Text with a character at the front is longer than what is left behind the first
`n` characters, for a positive `n`. -/
theorem length_drop_lt {cs : List Char} {n : Nat} (hn : 0 < n) (hc : cs ≠ []) :
    (cs.drop n).length < cs.length := by
  have : 0 < cs.length := List.length_pos_iff.mpr hc
  rw [List.length_drop]; omega

/-- A state with less text is smaller. -/
theorem measure_lt_of_length {s t : Scanner} (h : t.rest.length < s.rest.length) :
    t.measure < s.measure := by
  unfold measure
  split <;> split <;> omega

theorem dropWhile_length_le (p : Char → Bool) (cs : List Char) :
    (cs.dropWhile p).length ≤ cs.length :=
  (List.dropWhile_sublist p).length_le

theorem lineBreak_pos {c : Char} (rest : List Char) (h : Lexeme.isLineBreak c = true) :
    0 < Lexeme.lineBreak (c :: rest) := by
  simp only [Lexeme.isLineBreak, Bool.or_eq_true, beq_iff_eq] at h
  rcases h with rfl | rfl
  · cases rest with
    | nil => simp [Lexeme.lineBreak]
    | cons d ds =>
      simp only [Lexeme.lineBreak]
      split <;> simp_all
  · simp [Lexeme.lineBreak]

theorem comment_pos (rest : List Char) : 0 < Lexeme.comment ('#' :: rest) := by
  simp [Lexeme.comment, Lexeme.run, Lexeme.isLineBreak]

theorem stringLiteral_pos {o : Lexeme.Opener} {cs : List Char} {n : Nat}
    (h : Lexeme.stringLiteral o cs = some n) : 0 < n := by
  obtain ⟨m, _, rfl⟩ := Option.map_eq_some_iff.mp h
  have : 0 < o.length := by
    unfold Lexeme.Opener.length Lexeme.Opener.quotes
    split <;> omega
  omega

theorem continuation_ne_nil {cs : List Char} (h : 0 < continuation cs) : cs ≠ [] := by
  rintro rfl; simp [continuation] at h

theorem lexeme_shortens {s t : Scanner} {c : Char} {tokens : List Token} (hc : s.rest ≠ [])
    (h : s.lexeme c = .ok (.emit tokens t)) : t.rest.length < s.rest.length := by
  unfold lexeme at h
  split at h
  · split at h
    · next hs =>
      cases h
      exact length_drop_lt (stringLiteral_pos hs) hc
    · cases h
  · split at h
    · next hn => cases h; exact length_drop_lt hn hc
    · split at h
      · next hn => cases h; exact length_drop_lt hn hc
      · split at h
        · next hn => cases h; exact length_drop_lt hn hc
        · cases h

theorem inLine_shortens {s t : Scanner} {tokens : List Token}
    (h : s.inLine = .ok (.emit tokens t)) : t.rest.length < s.rest.length := by
  unfold inLine at h
  split at h
  · cases h
  · next c rest hr =>
    have hne : s.rest ≠ [] := by simp [hr]
    split at h
    · cases h; simp [hr]
    · split at h
      · next hn => cases h; exact length_drop_lt hn hne
      · split at h
        · next hb =>
          cases h
          exact length_drop_lt (by rw [hr]; exact lineBreak_pos rest hb) hne
        · split at h
          · next hh =>
            cases h
            exact length_drop_lt (by rw [hr, beq_iff_eq.mp hh]; exact comment_pos rest) hne
          · exact lexeme_shortens hne h

theorem blankLine_shortens {s t : Scanner} {tokens : List Token} {c : Char} {rest : List Char}
    (hr : s.rest = c :: rest) (hc : (c == '#' || Lexeme.isLineBreak c) = true)
    (h : s.blankLine = .emit tokens t) : t.rest.length < s.rest.length := by
  have hne : s.rest ≠ [] := by simp [hr]
  unfold blankLine at h
  split at h
  · next tail hs =>
    cases h
    have h1 : 0 < Lexeme.comment s.rest := by rw [hs]; exact comment_pos tail
    have h2 := length_drop_lt h1 hne
    simp only [List.length_drop] at h2 ⊢
    omega
  · next hs =>
    cases h
    have hb : Lexeme.isLineBreak c = true := by
      rcases Bool.or_eq_true_iff.mp hc with h' | h'
      · rw [beq_iff_eq] at h'
        exact absurd (h' ▸ hr) (hs rest)
      · exact h'
    exact length_drop_lt (by rw [hr]; exact lineBreak_pos rest hb) hne

theorem openLine_next {blanks : List Char} {s t : Scanner} {tokens : List Token}
    (h : openLine blanks s = .ok (.emit tokens t)) : t.rest = s.rest ∧ t.fresh = false := by
  unfold openLine at h
  dsimp only at h
  split at h
  · cases h; exact ⟨rfl, rfl⟩
  · split at h
    · cases h; exact ⟨rfl, rfl⟩
    · cases h

/-- Every step that goes on makes the state smaller. -/
theorem measure_lt_of_step {s t : Scanner} {tokens : List Token}
    (h : s.step = .ok (.emit tokens t)) : t.measure < s.measure := by
  unfold step at h
  split at h
  · next hf =>
    unfold lineStart at h
    have hle := dropWhile_length_le isIndentChar s.rest
    dsimp only at h
    split at h
    · cases h
    · next c rest hr =>
      split at h
      · next hc =>
        injection h with h
        have := blankLine_shortens hr hc h
        exact measure_lt_of_length (by dsimp only at this; omega)
      · obtain ⟨h1, h2⟩ := openLine_next h
        dsimp only at h1
        unfold measure
        rw [h1, h2, hf]
        simp only [if_true, Bool.false_eq_true, if_false]
        omega
  · exact measure_lt_of_length (inLine_shortens h)

/-- What follows the last character: the end of a line that is still open, the ends
of the open blocks, and the end marker. `emitted` holds the tokens so far, the
newest first. -/
def finish (s : Scanner) (emitted : List Token) : List Token :=
  let lineEnd : List Token :=
    match emitted with
    | [] => []
    | token :: _ =>
      if token.kind == .newline || token.kind == .blankLine then []
      else [⟨.newline, "", s.position⟩]
  let last := if s.position.column = 0 then s.position else s.position.nextLine
  lineEnd ++ List.replicate s.indents.length (dedent last) ++ [⟨.endMarker, "", last⟩]

/-- Run the machine to the end; `emitted` holds the tokens so far, the newest first. -/
def run (s : Scanner) (emitted : List Token) : Except LexError (List Token) :=
  match _h : s.step with
  | .error e => .error e
  | .ok (.stop last) => .ok (emitted.reverse ++ last.finish emitted)
  | .ok (.emit tokens next) => run next (tokens.reverse ++ emitted)
termination_by s.measure
decreasing_by exact measure_lt_of_step _h

end Scanner

/-- The tokens of a source text, ending with the end marker. -/
def tokenize (source : String) : Except LexError (List Token) :=
  (Scanner.start source.toList).run []

end PyStyle
