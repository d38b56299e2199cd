import PyStyle.Check.ImplicitElif

/-!
# Programs made of blocks

The block structure of a program beside its token stream. A block is a non-empty sequence of
statements, a statement is a line or a chain of clauses, and a clause is a header line with an
indented block below it. The tree holds every token of the stream, so laying it out only
strings the tokens together; what makes the layout a good one is a predicate of its own.

- `Block`, `Statement`, `Chain`, `Clause` — the syntax;
- `Block.tokens` — the token stream of a block;
- `ClauseWord.isChain` — which clauses make up a statement;
- `Block.LaidOut` — lines of a block start in one column, its bodies lie further right, and
  the dedents stand where the next line starts;
- `Block.loneIfs` — the `if`s that are all there is in the `else` block of another `if`.
-/

namespace PyStyle

/-! ### Syntax -/

/-- A token up to its kind. -/
structure Mark where
  text : String
  position : Position
deriving DecidableEq, Repr

/-- The token of the given kind. -/
def Mark.token (mark : Mark) (kind : TokenKind) : Token :=
  ⟨kind, mark.text, mark.position⟩

/-- The words that start clauses. -/
inductive ClauseWord where
  | ifWord
  | elifWord
  | elseWord
  | forWord
  | whileWord
  | tryWord
  | exceptWord
  | finallyWord
  | defWord
  | classWord
  | withWord
deriving DecidableEq, Repr

namespace ClauseWord

/-- The word as it is written. -/
def text : ClauseWord → String
  | ifWord => "if"
  | elifWord => "elif"
  | elseWord => "else"
  | forWord => "for"
  | whileWord => "while"
  | tryWord => "try"
  | exceptWord => "except"
  | finallyWord => "finally"
  | defWord => "def"
  | classWord => "class"
  | withWord => "with"

/-- What may follow the first clause of an `if`: any number of `elif`s, perhaps an `else`. -/
def isIfTail : List ClauseWord → Bool
  | [] => true
  | [elseWord] => true
  | elifWord :: rest => isIfTail rest
  | _ => false

/-- What may follow the first clause of a `try`: any number of `except`s, perhaps an `else`,
perhaps a `finally`. -/
def isTryTail : List ClauseWord → Bool
  | exceptWord :: rest => isTryTail rest
  | rest => rest == [] || rest == [elseWord] || rest == [finallyWord]
      || rest == [elseWord, finallyWord]

/-- Do clauses with these words make up one statement? -/
def isChain : List ClauseWord → Bool
  | ifWord :: rest => isIfTail rest
  | forWord :: rest => rest == [] || rest == [elseWord]
  | whileWord :: rest => rest == [] || rest == [elseWord]
  | tryWord :: rest => isTryTail rest
  | [defWord] => true
  | [classWord] => true
  | [withWord] => true
  | _ => false

end ClauseWord

/-- The end of a line, with the blank lines behind it. -/
structure LineEnd where
  newline : Mark
  blanks : List Mark

/-- The tokens of a line end. -/
def LineEnd.tokens (lineEnd : LineEnd) : List Token :=
  lineEnd.newline.token .newline :: lineEnd.blanks.map (·.token .blankLine)

/-- The first line of a clause, and the indentation behind it. -/
structure Header where
  word : ClauseWord
  /-- Where the word stands. -/
  position : Position
  /-- What stands between the word and the colon. -/
  condition : List Token
  colon : Mark
  lineEnd : LineEnd
  indent : Mark

namespace Header

/-- The word as a token. -/
def keyword (header : Header) : Token :=
  ⟨.name, header.word.text, header.position⟩

/-- The tokens behind the condition. -/
def opening (header : Header) : List Token :=
  header.colon.token .colon :: header.lineEnd.tokens ++ [header.indent.token .indent]

/-- The tokens behind the word. -/
def rest (header : Header) : List Token :=
  header.condition ++ header.opening

end Header

mutual

/-- A non-empty sequence of statements. -/
inductive Block where
  | last (statement : Statement)
  | cons (statement : Statement) (rest : Block)

/-- A statement. -/
inductive Statement where
  | line (first : Token) (rest : List Token) (lineEnd : LineEnd)
  | chain (clauses : Chain)

/-- A non-empty sequence of clauses. -/
inductive Chain where
  | last (clause : Clause)
  | cons (clause : Clause) (rest : Chain)

/-- A header with an indented block below it. -/
inductive Clause where
  | mk (header : Header) (body : Block) (dedent : Mark)

end

/-! ### The token stream -/

mutual

/-- The tokens of a block. -/
def Block.tokens : Block → List Token
  | .last statement => statement.tokens
  | .cons statement rest => statement.tokens ++ rest.tokens

/-- The tokens of a statement. -/
def Statement.tokens : Statement → List Token
  | .line first rest lineEnd => first :: (rest ++ lineEnd.tokens)
  | .chain clauses => clauses.tokens

/-- The tokens of a chain. -/
def Chain.tokens : Chain → List Token
  | .last clause => clause.tokens
  | .cons clause rest => clause.tokens ++ rest.tokens

/-- The tokens of a clause. -/
def Clause.tokens : Clause → List Token
  | .mk header body dedent =>
    header.keyword :: (header.rest ++ (body.tokens ++ [dedent.token .dedent]))

end

/-- The header of a clause. -/
def Clause.header : Clause → Header
  | .mk header _ _ => header

/-- The body of a clause. -/
def Clause.body : Clause → Block
  | .mk _ body _ => body

/-- The header of the first clause. -/
def Chain.header : Chain → Header
  | .last clause => clause.header
  | .cons clause _ => clause.header

/-- The words of the clauses. -/
def Chain.words : Chain → List ClauseWord
  | .last clause => [clause.header.word]
  | .cons clause rest => clause.header.word :: rest.words

/-- The first token of a statement. -/
def Statement.first : Statement → Token
  | .line first _ _ => first
  | .chain clauses => clauses.header.keyword

/-- The first token of a block. -/
def Block.first : Block → Token
  | .last statement => statement.first
  | .cons statement _ => statement.first

theorem Chain.tokens_eq_cons (clauses : Chain) :
    ∃ more, clauses.tokens = clauses.header.keyword :: more := by
  rcases clauses with ⟨⟨header, body, dedent⟩⟩ | ⟨⟨header, body, dedent⟩, rest⟩
  · exact ⟨_, by rw [Chain.tokens, Clause.tokens]; rfl⟩
  · exact ⟨_, by rw [Chain.tokens, Clause.tokens]; rfl⟩

theorem Statement.tokens_eq_cons (statement : Statement) :
    ∃ more, statement.tokens = statement.first :: more := by
  cases statement with
  | line first rest lineEnd => exact ⟨_, by rw [Statement.tokens]; rfl⟩
  | chain clauses =>
    obtain ⟨more, h⟩ := clauses.tokens_eq_cons
    exact ⟨more, by rw [Statement.tokens, h]; rfl⟩

theorem Block.tokens_eq_cons (block : Block) : ∃ more, block.tokens = block.first :: more := by
  cases block with
  | last statement =>
    obtain ⟨more, h⟩ := statement.tokens_eq_cons
    exact ⟨more, by rw [Block.tokens, h]; rfl⟩
  | cons statement rest =>
    obtain ⟨more, h⟩ := statement.tokens_eq_cons
    exact ⟨more ++ rest.tokens, by rw [Block.tokens, h]; rfl⟩

/-! ### Layout -/

/-- May the token stand in a line, behind its first token? A blank line may when it breaks
the line inside brackets. -/
def Token.IsInLine (token : Token) : Prop :=
  token.kind = .name ∨ token.kind = .number ∨ token.kind = .string ∨ token.kind = .op
    ∨ token.kind = .colon ∨ token.kind = .blankLine

/-- May the token start a line of its own: a name, a number, a string or an operator, and
none of the words of an `if`? -/
def Token.StartsLine (token : Token) : Prop :=
  (token.kind = .name ∨ token.kind = .number ∨ token.kind = .string ∨ token.kind = .op)
    ∧ token.isKeyword "if" = false ∧ token.isKeyword "elif" = false
    ∧ token.isKeyword "else" = false

/-- The tokens stand in a line that starts in the given column: names lie further right. -/
def InLineFrom (column : Nat) (tokens : List Token) : Prop :=
  ∀ token ∈ tokens, token.IsInLine ∧ (token.kind = .name → column < token.position.column)

/-- A dedent stands where the next line starts, and in column zero behind the last line. -/
def Mark.ClosesAt (dedent : Mark) : Option Position → Prop
  | some next => dedent.position = next
  | none => dedent.position.column = 0

mutual

/-- The lines of the block start in `column`; the next line behind it starts at `next`. -/
def Block.LaidOut (column : Nat) (next : Option Position) : Block → Prop
  | .last statement => statement.LaidOut column next
  | .cons statement rest =>
    statement.LaidOut column (some rest.first.position) ∧ rest.LaidOut column next

/-- The lines of the statement, those of its bodies apart, start in `column`. -/
def Statement.LaidOut (column : Nat) (next : Option Position) : Statement → Prop
  | .line first rest _ =>
    first.StartsLine ∧ first.position.column = column ∧ InLineFrom column rest
  | .chain clauses => ClauseWord.isChain clauses.words = true ∧ clauses.LaidOut column next

/-- The headers of the clauses start in `column`. -/
def Chain.LaidOut (column : Nat) (next : Option Position) : Chain → Prop
  | .last clause => clause.LaidOut column next
  | .cons clause rest =>
    clause.LaidOut column (some rest.header.position) ∧ rest.LaidOut column next

/-- The header starts in `column` and the body further right; nothing stands between an
`else` and its colon. -/
def Clause.LaidOut (column : Nat) (next : Option Position) : Clause → Prop
  | .mk header body dedent =>
    header.position.column = column ∧ InLineFrom column header.condition
      ∧ (header.word = .elseWord → header.condition = [])
      ∧ column < body.first.position.column
      ∧ body.LaidOut body.first.position.column next
      ∧ dedent.ClosesAt next

end

/-- A block as a whole program, and the end of the stream. -/
structure Program where
  block : Block
  endMarker : Mark

/-- The token stream of a program. -/
def Program.tokens (program : Program) : List Token :=
  program.block.tokens ++ [program.endMarker.token .endMarker]

/-- The lines of the program start in the column of its first line. -/
def Program.LaidOut (program : Program) : Prop :=
  program.block.LaidOut program.block.first.position.column none

/-! ### Lone `if`s -/

/-- Where the `if` stands, when the block is nothing but an `if` without further clauses. -/
def Block.loneIf? : Block → Option Position
  | .last (.chain (.last clause)) =>
    if clause.header.word = .ifWord then some clause.header.position else none
  | _ => none

mutual

/-- Where the lone `if`s of a block stand, in the order of the stream. -/
def Block.loneIfs : Block → List Position
  | .last statement => statement.loneIfs
  | .cons statement rest => statement.loneIfs ++ rest.loneIfs

/-- Where the lone `if`s of a statement stand. -/
def Statement.loneIfs : Statement → List Position
  | .line _ _ _ => []
  | .chain clauses => clauses.loneIfs (clauses.header.word == .ifWord)

/-- Where the lone `if`s of a chain stand; `ofIf` says whether it starts with an `if`. -/
def Chain.loneIfs (ofIf : Bool) : Chain → List Position
  | .last clause => clause.loneIfs ofIf
  | .cons clause rest => clause.loneIfs ofIf ++ rest.loneIfs ofIf

/-- Where the lone `if`s of a clause stand: the one that fills the `else` block of an `if`,
and those further inside. -/
def Clause.loneIfs (ofIf : Bool) : Clause → List Position
  | .mk header body _ =>
    (if ofIf && header.word == .elseWord then body.loneIf?.toList else []) ++ body.loneIfs

end

/-! ### Facts about laid-out programs -/

theorem Token.IsInLine.kind_ne {token : Token} (h : token.IsInLine) :
    token.kind ≠ .indent ∧ token.kind ≠ .dedent := by
  rcases h with h | h | h | h | h | h <;> rw [h] <;> decide

theorem Token.StartsLine.isInLine {token : Token} (h : token.StartsLine) : token.IsInLine := by
  rcases h.1 with h | h | h | h
  · exact .inl h
  · exact .inr (.inl h)
  · exact .inr (.inr (.inl h))
  · exact .inr (.inr (.inr (.inl h)))

/-- The first token of a laid-out statement is a name, a number, a string or an operator. -/
theorem Statement.first_kind {statement : Statement} {column : Nat} {next : Option Position}
    (h : statement.LaidOut column next) :
    statement.first.kind = .name ∨ statement.first.kind = .number
      ∨ statement.first.kind = .string ∨ statement.first.kind = .op := by
  cases statement with
  | line first rest lineEnd =>
    rw [Statement.LaidOut] at h
    exact h.1.1
  | chain clauses => exact .inl rfl

theorem Block.first_kind {block : Block} {column : Nat} {next : Option Position}
    (h : block.LaidOut column next) :
    block.first.kind = .name ∨ block.first.kind = .number
      ∨ block.first.kind = .string ∨ block.first.kind = .op := by
  cases block with
  | last statement =>
    rw [Block.LaidOut] at h
    exact Statement.first_kind h
  | cons statement rest =>
    rw [Block.LaidOut] at h
    exact Statement.first_kind h.1

theorem LineEnd.kind_of_mem {lineEnd : LineEnd} {token : Token} (h : token ∈ lineEnd.tokens) :
    token.kind = .newline ∨ token.kind = .blankLine := by
  rcases List.mem_cons.mp h with rfl | h
  · exact .inl rfl
  · obtain ⟨mark, _, rfl⟩ := List.mem_map.mp h
    exact .inr rfl

theorem Header.kind_of_mem_opening {header : Header} {token : Token}
    (h : token ∈ header.opening) :
    token.kind = .colon ∨ token.kind = .newline ∨ token.kind = .blankLine
      ∨ token.kind = .indent := by
  rcases List.mem_append.mp h with h | h
  · rcases List.mem_cons.mp h with rfl | h
    · exact .inl rfl
    · rcases LineEnd.kind_of_mem h with h | h
      · exact .inr (.inl h)
      · exact .inr (.inr (.inl h))
  · rw [List.mem_singleton.mp h]
    exact .inr (.inr (.inr rfl))

/-- If the names behind the keyword lie right of the column of the header, no name of the
clause lies left of it. -/
theorem Clause.column_le_of_lt {clause : Clause} {column : Nat}
    (hcolumn : clause.header.position.column = column)
    (hlt : ∀ token ∈ clause.header.rest ++ clause.body.tokens, token.kind = .name →
      column < token.position.column) :
    ∀ token ∈ clause.tokens, token.kind = .name → column ≤ token.position.column := by
  obtain ⟨header, body, dedent⟩ := clause
  rw [Clause.tokens, ← List.append_assoc]
  intro token hmem hname
  rcases List.mem_cons.mp hmem with rfl | hmem
  · exact Nat.le_of_eq hcolumn.symm
  · rcases List.mem_append.mp hmem with hmem | hmem
    · exact Nat.le_of_lt (hlt token hmem hname)
    · rw [List.mem_singleton.mp hmem] at hname
      cases hname

theorem Clause.LaidOut.column_eq {clause : Clause} {column : Nat} {next : Option Position}
    (h : clause.LaidOut column next) : clause.header.position.column = column := by
  obtain ⟨header, body, dedent⟩ := clause
  rw [Clause.LaidOut] at h
  exact h.1

mutual

/-- No name of a block lies left of the column of its lines. -/
theorem Block.column_le (block : Block) {column : Nat} {next : Option Position}
    (h : block.LaidOut column next) :
    ∀ token ∈ block.tokens, token.kind = .name → column ≤ token.position.column := by
  cases block with
  | last statement =>
    rw [Block.LaidOut] at h
    rw [Block.tokens]
    exact statement.column_le h
  | cons statement rest =>
    rw [Block.LaidOut] at h
    rw [Block.tokens]
    intro token hmem
    rcases List.mem_append.mp hmem with hmem | hmem
    · exact statement.column_le h.1 token hmem
    · exact rest.column_le h.2 token hmem

theorem Statement.column_le (statement : Statement) {column : Nat} {next : Option Position}
    (h : statement.LaidOut column next) :
    ∀ token ∈ statement.tokens, token.kind = .name → column ≤ token.position.column := by
  cases statement with
  | line first rest lineEnd =>
    rw [Statement.LaidOut] at h
    rw [Statement.tokens]
    intro token hmem hname
    rcases List.mem_cons.mp hmem with rfl | hmem
    · exact Nat.le_of_eq h.2.1.symm
    · rcases List.mem_append.mp hmem with hmem | hmem
      · exact Nat.le_of_lt ((h.2.2 token hmem).2 hname)
      · rcases LineEnd.kind_of_mem hmem with hk | hk <;> rw [hk] at hname <;> cases hname
  | chain clauses =>
    rw [Statement.LaidOut] at h
    rw [Statement.tokens]
    exact clauses.column_le h.2

theorem Chain.column_le (clauses : Chain) {column : Nat} {next : Option Position}
    (h : clauses.LaidOut column next) :
    ∀ token ∈ clauses.tokens, token.kind = .name → column ≤ token.position.column := by
  cases clauses with
  | last clause =>
    rw [Chain.LaidOut] at h
    rw [Chain.tokens]
    exact Clause.column_le_of_lt h.column_eq (clause.column_lt h)
  | cons clause rest =>
    rw [Chain.LaidOut] at h
    rw [Chain.tokens]
    intro token hmem
    rcases List.mem_append.mp hmem with hmem | hmem
    · exact Clause.column_le_of_lt h.1.column_eq (clause.column_lt h.1) token hmem
    · exact rest.column_le h.2 token hmem

/-- Behind its keyword, all names of a clause lie right of the column of the header. -/
theorem Clause.column_lt (clause : Clause) {column : Nat} {next : Option Position}
    (h : clause.LaidOut column next) :
    ∀ token ∈ clause.header.rest ++ clause.body.tokens, token.kind = .name →
      column < token.position.column := by
  obtain ⟨header, body, dedent⟩ := clause
  rw [Clause.LaidOut] at h
  obtain ⟨-, hcondition, -, hbody, hlaid, -⟩ := h
  intro token hmem hname
  rcases List.mem_append.mp hmem with hmem | hmem
  · rcases List.mem_append.mp hmem with hmem | hmem
    · exact (hcondition token hmem).2 hname
    · rcases Header.kind_of_mem_opening hmem with hk | hk | hk | hk <;>
        rw [hk] at hname <;> cases hname
  · exact Nat.lt_of_lt_of_le hbody (body.column_le hlaid token hmem hname)

end

end PyStyle
