import PyStyle.Proofs.BlockProgram
import PyStyle.Proofs.VisitOrder

/-!
# Implicit `elif`s and the block structure

The check of implicit `elif`s sees tokens only: it looks back for a name in the column of a
dedent, forward over layout, and forward again with a count of open blocks. On the stream of a
laid-out program the three scans find what the tree says.

- `reportsIn` — where the visits to a stretch of tokens report, in any surroundings;
- `belongsToIf_clause` — the scan back from behind a clause ends at its keyword;
- `Block.afterBlocks_append` — the count of open blocks passes over a whole block;
- `hasCodeAfterIf_clause` — behind an `if`, the next token decides;
- `Block.reportsIn_eq` — a block is reported on as its tree says, whatever surrounds it;
- `implicitElif_eq_loneIfs` — the report of a whole program.
-/

namespace PyStyle

open Check

/-! ### What a visit reports -/

/-- Where the check reports when the tokens stand behind an `else` and its layout. -/
def reportFrom : List Token → List Position
  | [] => []
  | inner :: rest =>
    if inner.isKeyword "if" && !hasCodeAfterIf rest then [inner.position] else []

/-- Where the check reports when it visits `token` between the tokens `before`, the nearest
first, and `after`. -/
def reportAt (before : List Token) (token : Token) (after : List Token) : List Position :=
  if token.isKeyword "else" && belongsToIf before then
    reportFrom (after.dropWhile isElseLayout)
  else []

/-- Where the visits to `tokens` report when they stand between `before` and `after`. -/
def reportsIn (before : List Token) : List Token → List Token → List Position
  | [], _ => []
  | token :: rest, after =>
    reportAt before token (rest ++ after) ++ reportsIn (token :: before) rest after

/-- Every report is a violation, and no visit fails, if the rule is in the catalog. -/
theorem run_implicitElif {catalog : Catalog} (hrule : catalog.contains Rule.implicitElif = true)
    (visit : TokenVisit) :
    (implicitElif.visit visit).run catalog
      = ((reportAt visit.before visit.token visit.after).map
          fun position => Violation.of Rule.implicitElif position none, none) := by
  unfold reportAt
  simp only [implicitElif]
  by_cases helse : (visit.token.isKeyword "else" && belongsToIf visit.before) = true
  · rw [if_pos helse, if_pos helse]
    cases visit.after.dropWhile isElseLayout with
    | nil => rfl
    | cons inner rest =>
      dsimp only [reportFrom]
      by_cases hif : (inner.isKeyword "if" && !hasCodeAfterIf rest) = true
      · rw [if_pos hif, if_pos hif]
        simp [Action.require, Action.run, hrule]
      · rw [if_neg hif, if_neg hif]
        rfl
  · rw [if_neg helse, if_neg helse]
    rfl

/-- The reports of two parts, each with what stands around it. -/
theorem reportsIn_append (before xs ys after : List Token) :
    reportsIn before (xs ++ ys) after
      = reportsIn before xs (ys ++ after) ++ reportsIn (xs.reverse ++ before) ys after := by
  induction xs generalizing before with
  | nil => rfl
  | cons x xs ih =>
    simp only [List.cons_append, reportsIn, ih, List.append_assoc, List.reverse_cons,
      List.nil_append]

theorem reportAt_of_not_else {token : Token} (h : token.isKeyword "else" = false)
    (before after : List Token) : reportAt before token after = [] := by
  simp [reportAt, h]

theorem isKeyword_eq_false_of_kind {token : Token} (h : token.kind ≠ .name) (word : String) :
    token.isKeyword word = false := by
  simp [Token.isKeyword, h]

/-- A word behind a token that closes no block is not the first of its line. -/
theorem reportAt_of_kind {previous : Token} (h : previous.kind ≠ .dedent)
    (before : List Token) (token : Token) (after : List Token) :
    reportAt (previous :: before) token after = [] := by
  simp [reportAt, belongsToIf, h]

/-- Within a line nothing is reported. -/
theorem reportsIn_of_kind {previous : Token} (hprevious : previous.kind ≠ .dedent)
    {tokens : List Token} (h : ∀ token ∈ tokens, token.kind ≠ .dedent)
    (before after : List Token) : reportsIn (previous :: before) tokens after = [] := by
  induction tokens generalizing previous before with
  | nil => rfl
  | cons token rest ih =>
    rw [reportsIn, reportAt_of_kind hprevious, List.nil_append]
    exact ih (h token List.mem_cons_self) (fun t ht => h t (List.mem_cons_of_mem _ ht)) _

/-! ### The scan back -/

theorem find?_eq_of_forall_not {p : Token → Bool} {skipped : List Token} {found : Token}
    (hskipped : ∀ token ∈ skipped, p token = false) (hfound : p found = true)
    (before : List Token) : (skipped.reverse ++ found :: before).find? p = some found := by
  have hnone : skipped.reverse.find? p = none := by
    rw [List.find?_eq_none]
    intro token hmem
    rw [hskipped token (List.mem_reverse.mp hmem)]
    exact Bool.false_ne_true
  rw [List.find?_append, hnone, List.find?_cons_of_pos hfound]
  rfl

/-- The tokens of a clause, from the last one back to the keyword. -/
theorem Clause.tokens_reverse (header : Header) (body : Block) (dedent : Mark) :
    (Clause.mk header body dedent).tokens.reverse
      = dedent.token .dedent :: (header.rest ++ body.tokens).reverse ++ [header.keyword] := by
  rw [Clause.tokens]
  simp

/-- **The scan back finds the keyword of the clause before**: all names in between lie
further right. -/
theorem belongsToIf_clause {clause : Clause} {column : Nat} {next : Position}
    (h : clause.LaidOut column (some next)) (hnext : next.column = column)
    (before : List Token) :
    belongsToIf (clause.tokens.reverse ++ before)
      = (clause.header.word == .ifWord || clause.header.word == .elifWord) := by
  have hright := clause.column_lt h
  have hcolumn := h.column_eq
  obtain ⟨header, body, dedent⟩ := clause
  rw [Clause.LaidOut] at h
  have hdedent : dedent.position.column = column := by
    rw [show dedent.position = next from h.2.2.2.2.2]
    exact hnext
  have hskipped : ∀ token ∈ header.rest ++ body.tokens,
      (token.kind == .name && token.position.column == column) = false := by
    intro token hmem
    by_cases hname : token.kind = .name
    · have hne : token.position.column ≠ column := Nat.ne_of_gt (hright token hmem hname)
      simp [hne]
    · simp [hname]
  have hkeyword : (header.keyword.kind == .name
      && header.keyword.position.column == column) = true := by
    simp [Header.keyword, show header.position.column = column from hcolumn]
  rw [Clause.tokens_reverse]
  simp only [belongsToIf, List.cons_append, List.append_assoc, List.nil_append, Mark.token,
    hdedent]
  rw [find?_eq_of_forall_not hskipped hkeyword]
  simp only [Header.keyword, Clause.header]
  cases header.word <;> rfl

/-! ### The count of open blocks -/

/-- Inside of a block the scan passes over all that is no edge of a block. -/
theorem afterBlocks_of_not_edge {tokens : List Token}
    (h : ∀ token ∈ tokens, token.kind ≠ .indent ∧ token.kind ≠ .dedent) (depth : Nat)
    (rest : List Token) :
    afterBlocks (depth + 1) (tokens ++ rest) = afterBlocks (depth + 1) rest := by
  induction tokens with
  | nil => rfl
  | cons token tokens ih =>
    obtain ⟨hindent, hdedent⟩ := h token List.mem_cons_self
    rw [List.cons_append, afterBlocks]
    split
    · next hkind => exact absurd hkind hindent
    · next hkind => exact absurd hkind hdedent
    · exact ih fun t ht => h t (List.mem_cons_of_mem _ ht)

theorem LineEnd.not_edge {lineEnd : LineEnd} {token : Token} (h : token ∈ lineEnd.tokens) :
    token.kind ≠ .indent ∧ token.kind ≠ .dedent := by
  rcases LineEnd.kind_of_mem h with h | h <;> rw [h] <;> decide

/-- The header up to its indentation opens and closes no block. -/
theorem Header.not_edge_of_mem_init {header : Header} {column : Nat}
    (h : InLineFrom column header.condition) :
    ∀ token ∈ header.condition ++ (header.colon.token .colon :: header.lineEnd.tokens),
      token.kind ≠ .indent ∧ token.kind ≠ .dedent := by
  intro token hmem
  rcases List.mem_append.mp hmem with hmem | hmem
  · exact (h token hmem).1.kind_ne
  · rcases List.mem_cons.mp hmem with rfl | hmem
    · exact ⟨by simp [Mark.token], by simp [Mark.token]⟩
    · exact LineEnd.not_edge hmem

/-- The header goes up to the indent of its block. -/
theorem Header.rest_eq (header : Header) :
    header.rest = (header.condition ++ (header.colon.token .colon :: header.lineEnd.tokens))
      ++ [header.indent.token .indent] := by
  simp [Header.rest, Header.opening]

mutual

/-- **A block opens what it closes**: the count of open blocks passes over it. -/
theorem Block.afterBlocks_append (block : Block) {column : Nat} {next : Option Position}
    (h : block.LaidOut column next) (depth : Nat) (rest : List Token) :
    afterBlocks (depth + 1) (block.tokens ++ rest) = afterBlocks (depth + 1) rest := by
  cases block with
  | last statement =>
    rw [Block.LaidOut] at h
    rw [Block.tokens]
    exact statement.afterBlocks_append h depth rest
  | cons statement more =>
    rw [Block.LaidOut] at h
    rw [Block.tokens, List.append_assoc, statement.afterBlocks_append h.1]
    exact more.afterBlocks_append h.2 depth rest

theorem Statement.afterBlocks_append (statement : Statement) {column : Nat}
    {next : Option Position} (h : statement.LaidOut column next) (depth : Nat)
    (rest : List Token) :
    afterBlocks (depth + 1) (statement.tokens ++ rest) = afterBlocks (depth + 1) rest := by
  cases statement with
  | line first more lineEnd =>
    rw [Statement.LaidOut] at h
    rw [Statement.tokens]
    refine afterBlocks_of_not_edge (fun token hmem => ?_) depth rest
    rcases List.mem_cons.mp hmem with rfl | hmem
    · exact h.1.isInLine.kind_ne
    · rcases List.mem_append.mp hmem with hmem | hmem
      · exact (h.2.2 token hmem).1.kind_ne
      · exact LineEnd.not_edge hmem
  | chain clauses =>
    rw [Statement.LaidOut] at h
    rw [Statement.tokens]
    exact clauses.afterBlocks_append h.2 depth rest

theorem Chain.afterBlocks_append (clauses : Chain) {column : Nat} {next : Option Position}
    (h : clauses.LaidOut column next) (depth : Nat) (rest : List Token) :
    afterBlocks (depth + 1) (clauses.tokens ++ rest) = afterBlocks (depth + 1) rest := by
  cases clauses with
  | last clause =>
    rw [Chain.LaidOut] at h
    rw [Chain.tokens]
    exact clause.afterBlocks_append h depth rest
  | cons clause more =>
    rw [Chain.LaidOut] at h
    rw [Chain.tokens, List.append_assoc, clause.afterBlocks_append h.1]
    exact more.afterBlocks_append h.2 depth rest

/-- The scan passes over a clause with its block, whose edges match. -/
theorem Clause.afterBlocks_append (clause : Clause) {column : Nat} {next : Option Position}
    (h : clause.LaidOut column next) (depth : Nat) (rest : List Token) :
    afterBlocks (depth + 1) (clause.tokens ++ rest) = afterBlocks (depth + 1) rest := by
  obtain ⟨header, body, dedent⟩ := clause
  rw [Clause.LaidOut] at h
  obtain ⟨-, hcondition, -, -, hlaid, -⟩ := h
  have htokens : (Clause.mk header body dedent).tokens ++ rest
      = [header.keyword] ++ ((header.condition
          ++ (header.colon.token .colon :: header.lineEnd.tokens))
        ++ (header.indent.token .indent :: (body.tokens ++ (dedent.token .dedent :: rest)))) := by
    rw [Clause.tokens, Header.rest_eq]
    simp
  rw [htokens, afterBlocks_of_not_edge (by simp [Header.keyword]),
    afterBlocks_of_not_edge (Header.not_edge_of_mem_init hcondition)]
  -- The indentation counts one up, the body keeps the count, the dedent counts one down.
  show afterBlocks (depth + 1 + 1) (body.tokens ++ (dedent.token .dedent :: rest)) = _
  rw [body.afterBlocks_append hlaid]
  rfl

end

/-! ### The scan forward -/

/-- Behind an `if` clause, the next token decides whether code follows in the same block. -/
theorem hasCodeAfterIf_clause {header : Header} {body : Block} {dedent : Mark} {column : Nat}
    {next : Option Position} (h : (Clause.mk header body dedent).LaidOut column next)
    (token : Token) (more : List Token) :
    hasCodeAfterIf (header.rest ++ (body.tokens ++ (dedent.token .dedent :: token :: more)))
      = (token.kind != .dedent) := by
  rw [Clause.LaidOut] at h
  obtain ⟨-, hcondition, -, -, hlaid, -⟩ := h
  have hedge : ∀ t ∈ header.condition ++ (header.colon.token .colon :: header.lineEnd.tokens),
      (!isBlockEdge t) = true := by
    intro t ht
    obtain ⟨hindent, hdedent⟩ := Header.not_edge_of_mem_init hcondition t ht
    simp [isBlockEdge, hindent, hdedent]
  have hbody : afterBlocks 1 (body.tokens ++ (dedent.token .dedent :: token :: more))
      = some (token :: more) := by
    rw [body.afterBlocks_append hlaid 0]
    rfl
  have hindent (tokens : List Token) :
      (header.indent.token .indent :: tokens).dropWhile (!isBlockEdge ·)
        = header.indent.token .indent :: tokens := rfl
  rw [hasCodeAfterIf, Header.rest_eq, List.append_assoc, List.dropWhile_append_of_pos hedge,
    List.cons_append, List.nil_append, hindent]
  dsimp only
  rw [hbody]

/-- A clause behind an `else` is reported if it is an `if` and the block ends behind it. -/
theorem reportFrom_clause {clause : Clause} {column : Nat} {next : Option Position}
    (h : clause.LaidOut column next) (token : Token) (more : List Token) :
    reportFrom (clause.tokens ++ token :: more)
      = if clause.header.word = .ifWord ∧ token.kind = .dedent then [clause.header.position]
        else [] := by
  obtain ⟨header, body, dedent⟩ := clause
  have hcode := hasCodeAfterIf_clause h token more
  have hkeyword : header.keyword.isKeyword "if" = (header.word == .ifWord) := by
    unfold Header.keyword
    cases header.word <;> rfl
  have htokens : (Clause.mk header body dedent).tokens ++ token :: more
      = header.keyword :: (header.rest
        ++ (body.tokens ++ (dedent.token .dedent :: token :: more))) := by
    rw [Clause.tokens]
    simp
  rw [htokens, reportFrom, hcode, hkeyword]
  by_cases hword : header.word = .ifWord <;> by_cases hkind : token.kind = .dedent <;>
    simp [hword, hkind, Clause.header, Header.keyword]

/-- An `if` with further clauses is not reported. -/
theorem Chain.reportFrom_cons {clause : Clause} {rest : Chain} {column : Nat}
    {next : Option Position} (h : (Chain.cons clause rest).LaidOut column next)
    (after : List Token) : reportFrom ((Chain.cons clause rest).tokens ++ after) = [] := by
  rw [Chain.LaidOut] at h
  obtain ⟨more, hmore⟩ := rest.tokens_eq_cons
  rw [Chain.tokens, List.append_assoc, hmore, List.cons_append, reportFrom_clause h.1]
  simp [Header.keyword]

/-- A statement behind which the block goes on is not reported. -/
theorem Statement.reportFrom_of_kind {statement : Statement} {column : Nat}
    {next : Option Position} (h : statement.LaidOut column next) {token : Token}
    (hkind : token.kind ≠ .dedent) (more : List Token) :
    reportFrom (statement.tokens ++ token :: more) = [] := by
  cases statement with
  | line first rest lineEnd =>
    rw [Statement.LaidOut] at h
    rw [Statement.tokens]
    simp [reportFrom, h.1.2.1]
  | chain clauses =>
    rw [Statement.LaidOut] at h
    rw [Statement.tokens]
    cases clauses with
    | last clause =>
      have hclause := h.2
      rw [Chain.LaidOut] at hclause
      rw [Chain.tokens, reportFrom_clause hclause]
      simp [hkind]
    | cons clause rest => exact Chain.reportFrom_cons h.2 _

theorem Block.first_kind_ne_dedent {block : Block} {column : Nat} {next : Option Position}
    (h : block.LaidOut column next) : block.first.kind ≠ .dedent := by
  rcases block.first_kind h with h | h | h | h <;> rw [h] <;> decide

/-- **The scan forward sees whether a block is a lone `if`.** -/
theorem Block.reportFrom_eq {block : Block} {column : Nat} {next : Option Position}
    (h : block.LaidOut column next) (dedent : Mark) (after : List Token) :
    reportFrom (block.tokens ++ dedent.token .dedent :: after) = block.loneIf?.toList := by
  cases block with
  | cons statement rest =>
    -- The block goes on behind its first statement.
    rw [Block.LaidOut] at h
    obtain ⟨more, hmore⟩ := rest.tokens_eq_cons
    rw [Block.tokens, List.append_assoc, hmore, List.cons_append,
      statement.reportFrom_of_kind h.1 (Block.first_kind_ne_dedent h.2)]
    rfl
  | last statement =>
    rw [Block.LaidOut] at h
    rw [Block.tokens]
    cases statement with
    | line first rest lineEnd =>
      rw [Statement.LaidOut] at h
      rw [Statement.tokens]
      simp [reportFrom, h.1.2.1, Block.loneIf?]
    | chain clauses =>
      rw [Statement.LaidOut] at h
      rw [Statement.tokens]
      cases clauses with
      | last clause =>
        have hclause := h.2
        rw [Chain.LaidOut] at hclause
        rw [Chain.tokens, reportFrom_clause hclause]
        by_cases hword : clause.header.word = .ifWord <;>
          simp [Block.loneIf?, hword, Mark.token]
      | cons clause rest => exact Chain.reportFrom_cons h.2 _

/-- What is reported on an `else`: the lone `if` that its block is, if an `if` owns it. -/
theorem reportAt_else {header : Header} {body : Block} {dedent : Mark} {column : Nat}
    {next : Option Position} (h : (Clause.mk header body dedent).LaidOut column next)
    (hword : header.word = .elseWord) (before after : List Token) :
    reportAt before header.keyword
        (header.rest ++ (body.tokens ++ dedent.token .dedent :: after))
      = if belongsToIf before then body.loneIf?.toList else [] := by
  rw [Clause.LaidOut] at h
  obtain ⟨-, -, hcondition, -, hlaid, -⟩ := h
  have hkeyword : header.keyword.isKeyword "else" = true := by
    simp [Header.keyword, hword, Token.isKeyword, ClauseWord.text]
  have hlayout : ∀ token ∈ header.rest, isElseLayout token = true := by
    rw [Header.rest, hcondition hword, List.nil_append]
    intro token hmem
    rcases Header.kind_of_mem_opening hmem with h | h | h | h <;> simp [isElseLayout, h]
  have hfirst : isElseLayout body.first = false := by
    rcases body.first_kind hlaid with h | h | h | h <;> simp [isElseLayout, h]
  have hskip : (header.rest ++ (body.tokens ++ dedent.token .dedent :: after)).dropWhile
        isElseLayout
      = body.tokens ++ dedent.token .dedent :: after := by
    obtain ⟨more, hmore⟩ := body.tokens_eq_cons
    rw [List.dropWhile_append_of_pos hlayout, hmore, List.cons_append,
      List.dropWhile_cons_of_neg (by simp [hfirst])]
  rw [reportAt, hkeyword, Bool.true_and, hskip, Block.reportFrom_eq hlaid]

/-! ### Who owns an `else` -/

/-- Every `else` among the words, `previous` being the word before them, follows an `if` or
an `elif` just when `ofIf` says so. -/
def OwnsElse (ofIf : Bool) (previous : ClauseWord) : List ClauseWord → Prop
  | [] => True
  | word :: rest =>
    (word = .elseWord → (previous == .ifWord || previous == .elifWord) = ofIf)
      ∧ OwnsElse ofIf word rest

theorem ownsElse_of_isIfTail {previous : ClauseWord} {words : List ClauseWord}
    (hprevious : previous = .ifWord ∨ previous = .elifWord)
    (h : ClauseWord.isIfTail words = true) : OwnsElse true previous words := by
  induction words generalizing previous with
  | nil => trivial
  | cons word rest ih =>
    cases word with
    | elseWord =>
      cases rest with
      | nil => exact ⟨fun _ => by rcases hprevious with rfl | rfl <;> rfl, trivial⟩
      | cons _ _ => cases h
    | elifWord => exact ⟨by simp, ih (.inr rfl) h⟩
    | _ => cases h

theorem ownsElse_of_isTryTail {previous : ClauseWord} {words : List ClauseWord}
    (hprevious : previous = .tryWord ∨ previous = .exceptWord)
    (h : ClauseWord.isTryTail words = true) : OwnsElse false previous words := by
  induction words generalizing previous with
  | nil => trivial
  | cons word rest ih =>
    cases word with
    | exceptWord => exact ⟨by simp, ih (.inr rfl) h⟩
    | elseWord =>
      have hrest : rest = [] ∨ rest = [.finallyWord] := by
        simpa [ClauseWord.isTryTail] using h
      have hnot : OwnsElse false .elseWord rest := by
        rcases hrest with rfl | rfl
        · trivial
        · exact ⟨by simp, trivial⟩
      exact ⟨fun _ => by rcases hprevious with rfl | rfl <;> rfl, hnot⟩
    | finallyWord =>
      have hrest : rest = [] := by simpa [ClauseWord.isTryTail] using h
      subst hrest
      exact ⟨by simp, trivial⟩
    | _ => simp [ClauseWord.isTryTail] at h

theorem ownsElse_of_loopTail {previous : ClauseWord} {words : List ClauseWord}
    (hprevious : previous = .forWord ∨ previous = .whileWord)
    (h : (words == [] || words == [.elseWord]) = true) : OwnsElse false previous words := by
  have hwords : words = [] ∨ words = [.elseWord] := by simpa using h
  rcases hwords with rfl | rfl
  · trivial
  · exact ⟨fun _ => by rcases hprevious with rfl | rfl <;> rfl, trivial⟩

/-- A statement starts with no `else`, and its `else` follows an `if` or an `elif` just when
the statement starts with an `if`. -/
theorem ownsElse_of_isChain {word : ClauseWord} {rest : List ClauseWord}
    (h : ClauseWord.isChain (word :: rest) = true) :
    word ≠ .elseWord ∧ OwnsElse (word == .ifWord) word rest := by
  have hsingle : rest = [] → OwnsElse (word == .ifWord) word rest := by
    rintro rfl
    trivial
  cases word with
  | ifWord => exact ⟨by decide, ownsElse_of_isIfTail (.inl rfl) h⟩
  | forWord => exact ⟨by decide, ownsElse_of_loopTail (.inl rfl) h⟩
  | whileWord => exact ⟨by decide, ownsElse_of_loopTail (.inr rfl) h⟩
  | tryWord => exact ⟨by decide, ownsElse_of_isTryTail (.inl rfl) h⟩
  | defWord | classWord | withWord =>
    cases rest with
    | nil => exact ⟨by decide, hsingle rfl⟩
    | cons _ _ => cases h
  | _ => cases h

theorem Chain.LaidOut.column_eq {clauses : Chain} {column : Nat} {next : Option Position}
    (h : clauses.LaidOut column next) : clauses.header.position.column = column := by
  cases clauses with
  | last clause =>
    rw [Chain.LaidOut] at h
    exact Clause.LaidOut.column_eq h
  | cons clause rest =>
    rw [Chain.LaidOut] at h
    exact h.1.column_eq

theorem Chain.words_eq (clauses : Chain) :
    clauses.words = clauses.header.word :: clauses.words.tail := by
  cases clauses <;> rfl

/-! ### Reports follow the tree -/

mutual

/-- **A block is reported on as its tree says**, whatever stands before and behind it. -/
theorem Block.reportsIn_eq (block : Block) {column : Nat} {next : Option Position}
    (h : block.LaidOut column next) (before after : List Token) :
    reportsIn before block.tokens after = block.loneIfs := by
  cases block with
  | last statement =>
    rw [Block.LaidOut] at h
    rw [Block.tokens, Block.loneIfs]
    exact statement.reportsIn_eq h before after
  | cons statement rest =>
    rw [Block.LaidOut] at h
    rw [Block.tokens, Block.loneIfs, reportsIn_append, statement.reportsIn_eq h.1,
      rest.reportsIn_eq h.2]

theorem Statement.reportsIn_eq (statement : Statement) {column : Nat}
    {next : Option Position} (h : statement.LaidOut column next)
    (before after : List Token) :
    reportsIn before statement.tokens after = statement.loneIfs := by
  cases statement with
  | line first rest lineEnd =>
    rw [Statement.LaidOut] at h
    have hrest : ∀ token ∈ rest ++ lineEnd.tokens, token.kind ≠ .dedent := by
      intro token hmem
      rcases List.mem_append.mp hmem with hmem | hmem
      · exact (h.2.2 token hmem).1.kind_ne.2
      · exact (LineEnd.not_edge hmem).2
    rw [Statement.tokens, Statement.loneIfs, reportsIn, reportAt_of_not_else h.1.2.2.2,
      reportsIn_of_kind h.1.isInLine.kind_ne.2 hrest]
    rfl
  | chain clauses =>
    rw [Statement.LaidOut, clauses.words_eq] at h
    obtain ⟨hfirst, howns⟩ := ownsElse_of_isChain h.1
    rw [Statement.tokens, Statement.loneIfs]
    exact clauses.reportsIn_eq h.2 howns before after fun helse => absurd helse hfirst

/-- The clauses from somewhere in a chain on; `helse` speaks of the clause before them. -/
theorem Chain.reportsIn_eq (clauses : Chain) {column : Nat} {next : Option Position}
    (h : clauses.LaidOut column next) {ofIf : Bool}
    (howns : OwnsElse ofIf clauses.header.word clauses.words.tail)
    (before after : List Token)
    (helse : clauses.header.word = .elseWord → belongsToIf before = ofIf) :
    reportsIn before clauses.tokens after = clauses.loneIfs ofIf := by
  cases clauses with
  | last clause =>
    rw [Chain.LaidOut] at h
    rw [Chain.tokens, Chain.loneIfs]
    exact clause.reportsIn_eq h before after helse
  | cons clause rest =>
    rw [Chain.LaidOut] at h
    have hrest : OwnsElse ofIf clause.header.word (rest.header.word :: rest.words.tail) := by
      rw [← rest.words_eq]
      exact howns
    rw [Chain.tokens, Chain.loneIfs, reportsIn_append, clause.reportsIn_eq h.1 _ _ helse,
      rest.reportsIn_eq h.2 hrest.2 _ _ fun hword => ?_]
    -- Looking back from an `else`, the first keyword in its column is that of this clause.
    rw [belongsToIf_clause h.1 h.2.column_eq]
    exact hrest.1 hword

theorem Clause.reportsIn_eq (clause : Clause) {column : Nat} {next : Option Position}
    (h : clause.LaidOut column next) {ofIf : Bool} (before after : List Token)
    (helse : clause.header.word = .elseWord → belongsToIf before = ofIf) :
    reportsIn before clause.tokens after = clause.loneIfs ofIf := by
  obtain ⟨header, body, dedent⟩ := clause
  have hkeyword : reportAt before header.keyword
        (header.rest ++ (body.tokens ++ [dedent.token .dedent]) ++ after)
      = if ofIf && header.word == .elseWord then body.loneIf?.toList else [] := by
    by_cases hword : header.word = .elseWord
    · have hat := reportAt_else h hword before after
      rw [show header.rest ++ (body.tokens ++ [dedent.token .dedent]) ++ after
          = header.rest ++ (body.tokens ++ dedent.token .dedent :: after) by simp, hat,
        show belongsToIf before = ofIf from helse hword, hword]
      simp
    · have hnot : header.keyword.isKeyword "else" = false := by
        revert hword
        unfold Header.keyword
        cases header.word <;> simp [Token.isKeyword, ClauseWord.text]
      rw [reportAt_of_not_else hnot]
      simp [hword]
  rw [Clause.LaidOut] at h
  obtain ⟨-, hcondition, -, -, hlaid, -⟩ := h
  -- Behind the keyword only the body is reported on.
  have hrest : ∀ token ∈ header.rest, token.kind ≠ .dedent := by
    intro token hmem
    rcases List.mem_append.mp hmem with hmem | hmem
    · exact (hcondition token hmem).1.kind_ne.2
    · rcases Header.kind_of_mem_opening hmem with h | h | h | h <;> rw [h] <;> decide
  rw [Clause.tokens, Clause.loneIfs, reportsIn, hkeyword, reportsIn_append,
    reportsIn_of_kind (by simp [Header.keyword]) hrest, reportsIn_append,
    body.reportsIn_eq hlaid]
  rw [reportsIn, reportAt_of_not_else (isKeyword_eq_false_of_kind (by simp [Mark.token]) _)]
  simp [reportsIn]

end

/-! ### The report of a program -/

/-- The visits of a pass report what stands in the stream. -/
theorem flatMap_reportAt_tokenVisitsFrom (path : String) (before tokens : List Token) :
    (tokenVisitsFrom path before tokens).flatMap
        (fun visit => reportAt visit.before visit.token visit.after)
      = reportsIn before tokens [] := by
  induction tokens generalizing before with
  | nil => rfl
  | cons token rest ih =>
    rw [tokenVisitsFrom, List.flatMap_cons, ih, reportsIn, List.append_nil]

/-- What a pass with this check alone finds on one token: the reports of the visit, and no
fault. -/
theorem tokenOutcomes_implicitElif {catalog : Catalog}
    (hrule : catalog.contains Rule.implicitElif = true) (visit : TokenVisit) :
    (tokenOutcomes catalog (.ofList [.token implicitElif]) visit).flatMap (·.violations)
        = (reportAt visit.before visit.token visit.after).map
          (fun position => Violation.of Rule.implicitElif position none)
      ∧ (tokenOutcomes catalog (.ofList [.token implicitElif]) visit).filterMap (·.fault?)
        = [] := by
  have hkinds : implicitElif.kinds = [.name] := rfl
  rw [tokenOutcomes, tokenChecksFor_ofList]
  by_cases hname : visit.token.kind = .name
  · simp [Registration.tokenCheck?, hkinds, hname, Outcome.of, run_implicitElif hrule,
      Outcome.fault?]
  · rw [reportAt_of_not_else (isKeyword_eq_false_of_kind hname _)]
    simp [Registration.tokenCheck?, hkinds, hname]

/-- With token checks only, a pass over the nodes does nothing. -/
theorem nodeOutcomes_implicitElif (catalog : Catalog) (visits : List NodeVisit) :
    visits.flatMap (nodeOutcomes catalog (.ofList [.token implicitElif])) = [] := by
  refine List.flatMap_eq_nil_iff.mpr fun visit _ => ?_
  rw [nodeOutcomes, nodeChecksFor_ofList]
  rfl

/-- In any unit, a pass with this check alone reports what stands in the stream. -/
theorem analyze_implicitElif {catalog : Catalog}
    (hrule : catalog.contains Rule.implicitElif = true) (unit : SourceUnit) :
    analyze catalog (.ofList [.token implicitElif]) unit
      = { UnitReport.empty unit.path with
          violations := (reportsIn [] unit.tokens []).map fun position =>
            Violation.of Rule.implicitElif position none } := by
  have hvisits := flatMap_reportAt_tokenVisitsFrom unit.path [] unit.tokens
  rw [analyze, outcomes, nodeOutcomes_implicitElif, List.nil_append, ← hvisits, tokenVisits,
    List.map_flatMap, List.flatMap_assoc, List.filterMap_flatMap]
  congr 1
  · exact List.flatMap_congr fun visit _ => (tokenOutcomes_implicitElif hrule visit).1
  · exact List.flatMap_eq_nil_iff.mpr fun visit _ => (tokenOutcomes_implicitElif hrule visit).2

theorem Program.reportsIn_eq {program : Program} (h : program.LaidOut) :
    reportsIn [] program.tokens [] = program.block.loneIfs := by
  have hmarker : (program.endMarker.token .endMarker).isKeyword "else" = false :=
    isKeyword_eq_false_of_kind (by simp [Mark.token]) _
  rw [Program.tokens, reportsIn_append, program.block.reportsIn_eq h, reportsIn,
    reportAt_of_not_else hmarker]
  exact List.append_nil _

/-- **The check agrees with the block structure**: on any laid-out program it reports, in the
order of the stream, the `if`s that are all there is in the `else` block of an `if`, and
nothing else. -/
theorem implicitElif_eq_loneIfs (catalog : Catalog)
    (hrule : catalog.contains Rule.implicitElif = true) (path : String) (tree : Node)
    (program : Program) (h : program.LaidOut) :
    analyze catalog (.ofList [.token implicitElif]) ⟨path, tree, program.tokens⟩
      = { UnitReport.empty path with
          violations := program.block.loneIfs.map fun position =>
            Violation.of Rule.implicitElif position none } := by
  rw [analyze_implicitElif hrule, Program.reportsIn_eq h]

/-- An `if` with an `else` block, behind a blank line, that holds a lone `if`. -/
def elseWithLoneIf : Program where
  block := .last (.chain (.cons
    (.mk { word := .ifWord, position := ⟨1, 0⟩, condition := [⟨.name, "a", ⟨1, 3⟩⟩]
           colon := ⟨":", ⟨1, 4⟩⟩, lineEnd := ⟨⟨"\n", ⟨1, 5⟩⟩, []⟩, indent := ⟨"  ", ⟨2, 0⟩⟩ }
      (.last (.line ⟨.name, "x", ⟨2, 2⟩⟩ [] ⟨⟨"\n", ⟨2, 3⟩⟩, []⟩))
      ⟨"", ⟨3, 0⟩⟩)
    (.last (.mk
      { word := .elseWord, position := ⟨3, 0⟩, condition := []
        colon := ⟨":", ⟨3, 4⟩⟩, lineEnd := ⟨⟨"\n", ⟨3, 5⟩⟩, [⟨"\n", ⟨4, 0⟩⟩]⟩
        indent := ⟨"  ", ⟨5, 0⟩⟩ }
      (.last (.chain (.last (.mk
        { word := .ifWord, position := ⟨5, 2⟩, condition := [⟨.name, "b", ⟨5, 5⟩⟩]
          colon := ⟨":", ⟨5, 6⟩⟩, lineEnd := ⟨⟨"\n", ⟨5, 7⟩⟩, []⟩
          indent := ⟨"    ", ⟨6, 0⟩⟩ }
        (.last (.line ⟨.name, "y", ⟨6, 4⟩⟩ [] ⟨⟨"\n", ⟨6, 5⟩⟩, []⟩))
        ⟨"", ⟨7, 0⟩⟩))))
      ⟨"", ⟨7, 0⟩⟩))))
  endMarker := ⟨"", ⟨7, 0⟩⟩

theorem elseWithLoneIf_laidOut : elseWithLoneIf.LaidOut := by
  simp [elseWithLoneIf, Program.LaidOut, Block.LaidOut, Statement.LaidOut, Chain.LaidOut,
    Clause.LaidOut, Block.first, Statement.first, Chain.header, Clause.header, Chain.words,
    Header.keyword, Mark.ClosesAt, InLineFrom, Token.IsInLine, Token.StartsLine,
    Token.isKeyword, ClauseWord.isChain, ClauseWord.isIfTail]

theorem implicitElif_elseWithLoneIf :
    elseWithLoneIf.LaidOut
      ∧ (analyze ⟨[], [Rule.implicitElif]⟩ (.ofList [.token implicitElif])
          ⟨"m.py", .plain .module ⟨1, 0⟩ [], elseWithLoneIf.tokens⟩).violations
        = [Violation.of Rule.implicitElif ⟨5, 2⟩ none] := by
  refine ⟨elseWithLoneIf_laidOut, ?_⟩
  rw [implicitElif_eq_loneIfs _ (by decide) _ _ _ elseWithLoneIf_laidOut]
  rfl

end PyStyle
