import PyStyle.Proofs.LineIndents
import PyStyle.Proofs.LoneIfLines

/-!
# The owner of an `else`

The check of implicit `elif`s decides which statement an `else` belongs to by columns: it takes the
nearest name before the `else` that stands in its column, wherever that name is. The block that the
`else` closes tells for sure: its indent stands behind the line of the statement.

- `ClosedBlock`, `HeaderOf` — the block in front of an `else`, and the line that opens it;
- `LaidOutByColumn` — from the header on columns show how lines are nested, and no name inside of a
  line stands in the column of the `else`;
- `belongsToIf_iff_header` — then the check knows whose `else` it is;
- `laidOutByColumn_of_spaces` — a layout without tabs, read off the tokens;
- `implicitElif_owner` — a reported `else` belongs to an `if` or `elif`, given the layout;
- `implicitElif_loopElse` — an `else` of a loop that is reported, as a name in brackets stands in
  its column.
-/

namespace PyStyle

open Check

/-! ### Blocks and their headers -/

/-- The tokens stand before the first code of a line: the last one, fillers apart, ends a line or
is the edge of a block. -/
def AtStartOfLine (front : List Token) : Prop :=
  ∀ token ∈ lastSolid? front, token.kind = .newline ∨ token.isBlockEdge = true

instance (front : List Token) : Decidable (AtStartOfLine front) :=
  inferInstanceAs (Decidable (∀ token ∈ lastSolid? front,
    token.kind = .newline ∨ token.isBlockEdge = true))

/-- The tokens end with a line, newlines and fillers apart: `first` and `line` are its tokens, and
`front` those before it. -/
structure HeaderOf (outer front : List Token) (first : Token) (line gap : List Token) : Prop where
  outer_eq : outer = front ++ first :: (line ++ gap)
  start : AtStartOfLine front
  isCode : first.isCode = true
  inLine : ∀ token ∈ line, token.isCode = true ∨ token.isFiller = true
  isGap : ∀ token ∈ gap, token.kind = .newline ∨ token.isFiller = true

/-- The line that goes on behind the tokens has these blanks at its start. -/
def LineBlanks (source : List Char) (front : List Token) (blanks : List Char) : Prop :=
  ∃ lines edges inner blocks, LineOf source front lines edges inner blanks blocks

/-- From the tokens `header` up to the token the lines are laid out so that columns tell how they
are nested. What stands before the header does not matter. -/
structure LaidOutByColumn (source : List Char) (header before : List Token) (token : Token) :
    Prop where
  /-- The line of a name is as wide as that of the token if it has as many blanks, and no other
  one is. -/
  aligned : ∀ front name back blanks blanks', before = front ++ name :: back → header <+: front →
    name.kind = .name → AtStartOfLine front → LineBlanks source front blanks →
    LineBlanks source before blanks' →
    (Scanner.indentWidth blanks = Scanner.indentWidth blanks' ↔ blanks.length = blanks'.length)
  /-- A name that starts a line stands right behind the blanks, and not on the next line, behind a
  backslash. -/
  straight : ∀ front name back blanks, before ++ [token] = front ++ name :: back →
    header <+: front → name.kind = .name → AtStartOfLine front → LineBlanks source front blanks →
    name.position.column = blanks.length
  /-- No other name stands in the column of the token: none in brackets, behind a backslash or
  behind a string of several lines. -/
  hanging : ∀ front name back, before = front ++ name :: back → header <+: front →
    name.kind = .name → ¬ AtStartOfLine front → name.position.column ≠ token.position.column

/-- The dedent at the end of the tokens closes a block: `inner` are the tokens in it, and `outer`
those before its indent. -/
structure ClosedBlock (tokens outer : List Token) (indent : Token) (inner : List Token)
    (dedent : Token) : Prop where
  tokens_eq : tokens = outer ++ indent :: (inner ++ [dedent])
  indent_kind : indent.kind = .indent
  dedent_kind : dedent.kind = .dedent
  closed : openBlocks inner = some []

/-! ### The scan back -/

theorem exists_closedBlock {front : List Token} {dedent : Token} {outside : List String}
    (h : openBlocks (front ++ [dedent]) = some outside) (hdedent : dedent.kind = .dedent) :
    ∃ outer indent inner, ClosedBlock (front ++ [dedent]) outer indent inner dedent
      ∧ openBlocks outer = some outside := by
  obtain ⟨blocks, hblocks, htail⟩ := openBlocks_of_concat h
  rw [blocksBehind_dedent hdedent] at htail
  cases blocks with
  | nil => cases htail
  | cons block blocks =>
    cases htail
    rw [← List.nil_append (block :: outside)] at hblocks
    obtain ⟨outer, indent, inner, rfl, hindent, _, houter, hinner⟩ := exists_opening hblocks
    exact ⟨outer, indent, inner, ⟨by simp, hindent, hdedent, hinner⟩, houter⟩

/-- Only a dedent shows that an `else` closes a block. -/
theorem dedent_of_belongsToIf {before : List Token} (h : belongsToIf before = true) :
    ∃ dedent earlier, before = dedent :: earlier ∧ dedent.kind = .dedent := by
  cases before with
  | nil => cases h
  | cons dedent earlier =>
    have hdedent := (Bool.and_eq_true_iff.mp h).1
    exact ⟨dedent, earlier, rfl, beq_iff_eq.mp hdedent⟩

/-- Inside of a line no other line starts. -/
theorem not_atStartOfLine {front line : List Token} {first : Token} (hfirst : first.isCode = true)
    (hline : ∀ token ∈ line, token.isCode = true ∨ token.isFiller = true) :
    ¬ AtStartOfLine (front ++ first :: line) := by
  have hsolid : ∃ token ∈ lastSolid? (front ++ first :: line), token.isCode = true := by
    induction line using List.reverseRecOn with
    | nil => exact ⟨first, lastSolid?_concat _ (not_isFiller_of_isCode hfirst), hfirst⟩
    | append_singleton line token ih =>
      rw [← List.cons_append, ← List.append_assoc]
      rcases hline token (by simp) with hcode | hfiller
      · exact ⟨token, lastSolid?_concat _ (not_isFiller_of_isCode hcode), hcode⟩
      · rw [lastSolid?_append_fillers _ (by simpa using hfiller)]
        exact ih fun other hother => hline other (by simp [hother])
  obtain ⟨token, hmem, hcode⟩ := hsolid
  intro hstart
  rcases hstart token hmem with hnewline | hedge
  · simp [Token.isCode, hnewline] at hcode
  · rw [not_isBlockEdge_of_inLine (Or.inl hcode)] at hedge
    cases hedge

namespace ClosedBlock

variable {tokens outer inner : List Token} {indent dedent : Token}

theorem atStartOfLine (h : ClosedBlock tokens outer indent inner dedent) :
    AtStartOfLine tokens := by
  have hsolid : lastSolid? tokens = some dedent := by
    rw [h.tokens_eq, ← List.cons_append, ← List.append_assoc]
    exact lastSolid?_concat _ (by simp [Token.isFiller, h.dedent_kind])
  intro token htoken
  obtain rfl : dedent = token := Option.some.inj (hsolid.symm.trans htoken)
  exact Or.inr (by simp [Token.isBlockEdge, h.dedent_kind])

/-- An indent in a closed block is not that of a closed block with the same end. -/
theorem not_opening {above inner : List Token} {indent : Token} (hindent : indent.kind = .indent)
    (hinner : openBlocks inner = some []) : openBlocks (above ++ indent :: inner) ≠ some [] := by
  intro h
  obtain ⟨blocks, hblocks, -⟩ := openBlocks_of_append h
  rw [openBlocks_inside hblocks hindent hinner] at h
  cases h

/-- There is only one block that the dedent closes. -/
theorem outer_unique (h : ClosedBlock tokens outer indent inner dedent) {outer' inner' : List Token}
    {indent' dedent' : Token} (h' : ClosedBlock tokens outer' indent' inner' dedent') :
    outer = outer' := by
  have htokens : outer ++ indent :: inner = outer' ++ indent' :: inner' := by
    have heq := h.tokens_eq.symm.trans h'.tokens_eq
    rw [← List.cons_append, ← List.append_assoc, ← List.cons_append, ← List.append_assoc] at heq
    exact (List.append_inj' heq rfl).1
  -- If one of the indents came before the other one, the block of the other one would be inside.
  rcases List.append_eq_append_iff.mp htokens with ⟨above, rfl, hback⟩ | ⟨above, rfl, hback⟩
  · cases above with
    | nil => exact (List.append_nil outer).symm
    | cons first above =>
      obtain ⟨-, rfl⟩ := List.cons.inj hback
      exact absurd h.closed (not_opening h'.indent_kind h'.closed)
  · cases above with
    | nil => exact List.append_nil outer'
    | cons first above =>
      obtain ⟨-, rfl⟩ := List.cons.inj hback
      exact absurd h'.closed (not_opening h.indent_kind h.closed)

/-- Behind the block the same blocks are open as before it. -/
theorem openBlocks_eq (h : ClosedBlock tokens outer indent inner dedent) {outside : List String}
    (houter : openBlocks outer = some outside) : openBlocks tokens = some outside := by
  have hconcat := openBlocks_concat (openBlocks_inside houter h.indent_kind h.closed) dedent
  rw [blocksBehind_dedent h.dedent_kind] at hconcat
  rw [h.tokens_eq]
  simpa using hconcat

end ClosedBlock

namespace HeaderOf

variable {outer front line gap : List Token} {first : Token}

theorem not_isBlockEdge (h : HeaderOf outer front first line gap) :
    ∀ token ∈ first :: (line ++ gap), token.isBlockEdge = false := by
  intro token htoken
  rcases List.mem_cons.mp htoken with rfl | htoken
  · exact not_isBlockEdge_of_inLine (Or.inl h.isCode)
  · rcases List.mem_append.mp htoken with htoken | htoken
    · exact not_isBlockEdge_of_inLine (h.inLine token htoken)
    · rcases h.isGap token htoken with hnewline | hfiller
      · simp [Token.isBlockEdge, hnewline]
      · exact not_isBlockEdge_of_inLine (Or.inr hfiller)

theorem openBlocks_front (h : HeaderOf outer front first line gap) {outside : List String}
    (houter : openBlocks outer = some outside) : openBlocks front = some outside := by
  obtain ⟨blocks, hblocks, hrest⟩ := openBlocks_of_append (h.outer_eq ▸ houter)
  rw [blocksBehind_of_not_edge h.not_isBlockEdge] at hrest
  rwa [Option.some.inj hrest] at hblocks

theorem prefix_outer (h : HeaderOf outer front first line gap) (back : List Token) :
    front <+: outer ++ back :=
  ⟨first :: (line ++ gap) ++ back, by simp [h.outer_eq]⟩

end HeaderOf

section LaidOut

variable {source : String} {tokens header before after outer inner : List Token}
  {token indent dedent : Token} {outside : List String}

/-- The width at which the line of a name starts shows in its column: it is the width of the line
of the token exactly if the name stands in the column of the token. -/
theorem LaidOutByColumn.column_eq_iff (h : LaidOutByColumn source.toList header before token)
    (htokens : tokenize source = .ok tokens) (hsplit : tokens = before ++ token :: after)
    (hname : token.kind = .name) (hstart : AtStartOfLine before)
    (houtside : openBlocks before = some outside) {front back : List Token} {name : Token}
    {blocks : List String} (hbefore : before = front ++ name :: back) (hheader : header <+: front)
    (hkind : name.kind = .name) (hfront : AtStartOfLine front)
    (hblocks : openBlocks front = some blocks) :
    ∃ width width', InnermostWidth blocks width ∧ NestedBlocks blocks
      ∧ InnermostWidth outside width'
      ∧ (width = width' ↔ name.position.column = token.position.column) := by
  have hcode {word : Token} (hword : word.kind = .name) : word.isCode = true := by
    simp [Token.isCode, hword]
  have hsplit' : tokens = front ++ name :: (back ++ token :: after) := by simp [hsplit, hbefore]
  obtain ⟨lines, edges, more, blanks, blocks', hline⟩ :=
    lineOf_of_tokenize htokens hsplit' (hcode hkind)
  obtain ⟨lines', edges', more', blanks', outside', hline'⟩ :=
    lineOf_of_tokenize htokens hsplit (hcode hname)
  obtain rfl : blocks' = blocks := Option.some.inj (hline.openBlocks_front.symm.trans hblocks)
  obtain rfl : outside' = outside := Option.some.inj (hline'.openBlocks_front.symm.trans houtside)
  have hblanks : LineBlanks source.toList front blanks := ⟨_, _, _, _, hline⟩
  have hblanks' : LineBlanks source.toList before blanks' := ⟨_, _, _, _, hline'⟩
  have hheader' : header <+: before := hheader.trans (hbefore ▸ List.prefix_append _ _)
  refine ⟨_, _, hline.width, hline.nested, hline'.width, ?_⟩
  rw [h.straight front name (back ++ [token]) _ (by simp [hbefore]) hheader hkind hfront hblanks,
    h.straight before token [] _ rfl hheader' hname hstart hblanks']
  exact h.aligned _ _ _ _ _ hbefore hheader hkind hfront hblanks hblanks'

variable {front line gap : List Token} {first : Token}
  (h : LaidOutByColumn source.toList front before token)
  (hblock : ClosedBlock before outer indent inner dedent)
  (hheader : HeaderOf outer front first line gap)

include h hblock hheader

/-- The rest of a header does not stand in the column of the token. -/
theorem LaidOutByColumn.column_line {name : Token} (hmem : name ∈ line)
    (hkind : name.kind = .name) : name.position.column ≠ token.position.column := by
  obtain ⟨line₁, line₂, rfl⟩ := List.append_of_mem hmem
  have hinside : ¬ AtStartOfLine (front ++ first :: line₁) :=
    not_atStartOfLine hheader.isCode fun other hother => hheader.inLine other (by simp [hother])
  refine h.hanging _ name (line₂ ++ gap ++ indent :: (inner ++ [dedent])) ?_
    (List.prefix_append _ _) hkind hinside
  simp [hblock.tokens_eq, hheader.outer_eq]

variable (htokens : tokenize source = .ok tokens) (hsplit : tokens = before ++ token :: after)
  (hname : token.kind = .name)

include htokens hsplit hname

/-- The dedents in front of the token show its column. -/
theorem LaidOutByColumn.column_dedent : dedent.position.column = token.position.column := by
  obtain ⟨lines, edges, more, blanks, blocks, hline⟩ :=
    lineOf_of_tokenize htokens hsplit (by simp [Token.isCode, hname])
  have hprefix : front <+: before := hblock.tokens_eq ▸ hheader.prefix_outer _
  rw [h.straight before token [] _ rfl hprefix hname hblock.atStartOfLine ⟨_, _, _, _, hline⟩]
  have hbefore : before = outer ++ indent :: inner ++ [dedent] := by simp [hblock.tokens_eq]
  exact (hbefore ▸ hline).column_of_dedent hblock.dedent_kind

variable (houter : openBlocks outer = some outside)

include houter

/-- The header of the block in front of the token stands in its column. -/
theorem LaidOutByColumn.column_header (hkind : first.kind = .name) :
    first.position.column = token.position.column := by
  have hbefore : before = front ++ first :: (line ++ gap ++ indent :: (inner ++ [dedent])) := by
    simp [hblock.tokens_eq, hheader.outer_eq]
  obtain ⟨width, width', hwidth, _, hwidth', hiff⟩ :=
    h.column_eq_iff htokens hsplit hname hblock.atStartOfLine (hblock.openBlocks_eq houter)
      hbefore (List.prefix_refl _) hkind hheader.start (hheader.openBlocks_front houter)
  exact hiff.mp (innermostWidth_unique hwidth hwidth')

/-- No name in the block stands in the column of the token that follows it. -/
theorem LaidOutByColumn.column_inner {name : Token} (hmem : name ∈ inner)
    (hkind : name.kind = .name) : name.position.column ≠ token.position.column := by
  obtain ⟨above, below, hinner⟩ := List.append_of_mem hmem
  have hbefore : before = outer ++ indent :: above ++ name :: (below ++ [dedent]) := by
    simp [hblock.tokens_eq, hinner]
  have hprefix : front <+: outer ++ indent :: above := hheader.prefix_outer _
  by_cases hstart : AtStartOfLine (outer ++ indent :: above)
  · -- The line is wider than the one of the token, so it starts in another column.
    obtain ⟨blocks, hblocks, _⟩ := openBlocks_of_append (hinner ▸ hblock.closed)
    have hinside := openBlocks_inside houter hblock.indent_kind hblocks
    obtain ⟨width, width', hwidth, hnested, hwidth', hiff⟩ :=
      h.column_eq_iff htokens hsplit hname hblock.atStartOfLine (hblock.openBlocks_eq houter)
        hbefore hprefix hkind hstart hinside
    have hlt := innermostWidth_lt hnested hwidth' hwidth
    exact fun hcolumn => hlt.ne' (hiff.mpr hcolumn)
  · exact h.hanging _ name _ hbefore hprefix hkind hstart

/-- The scan back ends at the header of the block. -/
theorem find?_header (hkind : first.kind = .name) :
    (outer ++ indent :: inner).reverse.find?
        (fun t => t.kind == .name && t.position.column == dedent.position.column)
      = some first := by
  have hdedent := h.column_dedent hblock hheader htokens hsplit hname
  have hfirst := h.column_header hblock hheader htokens hsplit hname houter hkind
  -- All names behind the header stand in other columns.
  have hskipped : ∀ other ∈ line ++ gap ++ indent :: inner, other.kind = .name →
      other.position.column ≠ token.position.column := by
    intro other hother hkind'
    rcases List.mem_append.mp hother with hother | hother
    · rcases List.mem_append.mp hother with hother | hother
      · exact h.column_line hblock hheader hother hkind'
      · rcases hheader.isGap other hother with hnewline | hfiller
        · cases hkind'.symm.trans hnewline
        · simp [Token.isFiller, hkind'] at hfiller
    · rcases List.mem_cons.mp hother with rfl | hother
      · cases hkind'.symm.trans hblock.indent_kind
      · exact h.column_inner hblock hheader htokens hsplit hname houter hother hkind'
  have hreverse : (outer ++ indent :: inner).reverse
      = (line ++ gap ++ indent :: inner).reverse ++ first :: front.reverse := by
    simp [hheader.outer_eq]
  rw [hreverse]
  refine find?_eq_of_forall_not (fun other hother => ?_) (by simp [hkind, hfirst, hdedent]) _
  simpa [hdedent] using hskipped other hother

/-- **Where columns tell how lines are nested, the check knows whose `else` it is.** -/
theorem belongsToIf_iff_header (hkind : first.kind = .name) :
    belongsToIf before.reverse = true
      ↔ first.isKeyword "if" = true ∨ first.isKeyword "elif" = true := by
  have hreverse : before.reverse = dedent :: (outer ++ indent :: inner).reverse := by
    simp [hblock.tokens_eq]
  rw [hreverse, belongsToIf, find?_header h hblock hheader htokens hsplit hname houter hkind]
  simp [hblock.dedent_kind, Token.isKeyword, hkind]

end LaidOut

/-! ### Texts without tabs -/

/-- In a text without tabs and form feeds the tokens alone show the layout. -/
theorem laidOutByColumn_of_spaces {source : List Char} {header before : List Token} {token : Token}
    (htab : '\t' ∉ source) (hfeed : '\x0c' ∉ source)
    (hstraight : ∀ front name back, before ++ [token] = front ++ name :: back → header <+: front →
      name.kind = .name → AtStartOfLine front → ∀ blocks ∈ openBlocks front,
      name.position.column = Scanner.indentWidth (blocks.headD "").toList)
    (hhanging : ∀ front name back, before = front ++ name :: back → header <+: front →
      name.kind = .name → ¬ AtStartOfLine front → name.position.column ≠ token.position.column) :
    LaidOutByColumn source header before token where
  aligned front name back blanks blanks' _ _ _ _ hblanks hblanks' := by
    obtain ⟨_, _, _, _, hline⟩ := hblanks
    obtain ⟨_, _, _, _, hline'⟩ := hblanks'
    rw [hline.start.indentWidth_eq htab hfeed, hline'.start.indentWidth_eq htab hfeed]
  straight front name back blanks hsplit hheader hname hfront hblanks := by
    obtain ⟨_, _, _, blocks, hline⟩ := hblanks
    rw [hstraight front name back hsplit hheader hname hfront blocks hline.openBlocks_front,
      ← hline.width.eq_indentWidth, hline.start.indentWidth_eq htab hfeed]
  hanging := hhanging

/-- What holds at all places of a list can be checked place by place. -/
theorem forall_splits_of_get {tokens : List Token} {p : List Token → Token → Prop}
    (h : ∀ i : Fin tokens.length, p (tokens.take i) (tokens.get i)) :
    ∀ front token back, tokens = front ++ token :: back → p front token := by
  rintro front token back rfl
  simpa using h ⟨front.length, by simp⟩

/-! ### Reports -/

/-- **A reported `else` belongs to an `if` or `elif` where columns tell how lines are nested.** The
dedent in front of the `else` closes a block, and the header of the block, if it starts with a name
as all headers of statements do, starts with one of the two keywords. Only the layout from the
header on matters. Where columns do not tell, the check may take another name in the column of the
`else` for the header, see `loopElse`. -/
theorem implicitElif_owner {source : String} {unit : SourceUnit}
    (htokens : tokenize source = .ok unit.tokens) {visit : TokenVisit}
    (hvisit : visit ∈ tokenVisits unit) {catalog : Catalog} {violation : Violation}
    (hviolation : violation ∈ ((implicitElif.visit visit).run catalog).1) :
    ∃ outer indent inner dedent, ClosedBlock visit.before.reverse outer indent inner dedent
      ∧ ∀ front first line gap, HeaderOf outer front first line gap → first.kind = .name →
        LaidOutByColumn source.toList front visit.before.reverse visit.token →
        first.isKeyword "if" = true ∨ first.isKeyword "elif" = true := by
  obtain ⟨_, _, hseen⟩ := implicitElif_of_mem_run hviolation
  have hname : visit.token.kind = .name :=
    beq_iff_eq.mp (Bool.and_eq_true_iff.mp hseen.keyword).1
  have hsplit := tokens_of_mem_tokenVisits hvisit
  obtain ⟨dedent, earlier, hbefore, hdedent⟩ := dedent_of_belongsToIf hseen.belongs
  have hreverse : visit.before.reverse = earlier.reverse ++ [dedent] := by simp [hbefore]
  -- What is open in front of the `else` is known as all blocks of the text are closed.
  obtain ⟨outside, houtside, _⟩ :=
    openBlocks_of_append (hsplit ▸ openBlocks_of_tokenize htokens)
  obtain ⟨outer, indent, inner, hblock, houter⟩ :=
    exists_closedBlock (hreverse ▸ houtside) hdedent
  rw [← hreverse] at hblock
  refine ⟨outer, indent, inner, dedent, hblock, ?_⟩
  intro front first line gap hheader hkind hlaid
  have hiff := belongsToIf_iff_header hlaid hblock hheader htokens hsplit hname houter hkind
  rw [List.reverse_reverse] at hiff
  exact hiff.mp hseen.belongs

/-- An `else` of an `if` in a function whose name stands in the column of both. -/
def elseInFunction : String :=
  "def f(a, b):\n    if a:\n        return 1\n    else:\n        if b:\n            return 2\n"

/-- The tokens in front of the `if`. -/
def elseInFunctionStart : List Token :=
  [⟨.name, "def", ⟨1, 0⟩⟩, ⟨.name, "f", ⟨1, 4⟩⟩, ⟨.op, "(", ⟨1, 5⟩⟩, ⟨.name, "a", ⟨1, 6⟩⟩,
   ⟨.op, ",", ⟨1, 7⟩⟩, ⟨.name, "b", ⟨1, 9⟩⟩, ⟨.op, ")", ⟨1, 10⟩⟩, ⟨.colon, ":", ⟨1, 11⟩⟩,
   ⟨.newline, "\n", ⟨1, 12⟩⟩, ⟨.indent, "    ", ⟨2, 0⟩⟩]

/-- The header of the `if`. -/
def elseInFunctionHeader : List Token :=
  [⟨.name, "if", ⟨2, 4⟩⟩, ⟨.name, "a", ⟨2, 7⟩⟩, ⟨.colon, ":", ⟨2, 8⟩⟩, ⟨.newline, "\n", ⟨2, 9⟩⟩]

/-- The visit to the `else`. -/
def elseInFunctionVisit : TokenVisit where
  path := "m.py"
  before :=
    [⟨.dedent, "", ⟨4, 4⟩⟩, ⟨.newline, "\n", ⟨3, 16⟩⟩, ⟨.number, "1", ⟨3, 15⟩⟩,
     ⟨.name, "return", ⟨3, 8⟩⟩, ⟨.indent, "        ", ⟨3, 0⟩⟩]
      ++ (elseInFunctionStart ++ elseInFunctionHeader).reverse
  token := ⟨.name, "else", ⟨4, 4⟩⟩
  after :=
    [⟨.colon, ":", ⟨4, 8⟩⟩, ⟨.newline, "\n", ⟨4, 9⟩⟩, ⟨.indent, "        ", ⟨5, 0⟩⟩,
     ⟨.name, "if", ⟨5, 8⟩⟩, ⟨.name, "b", ⟨5, 11⟩⟩, ⟨.colon, ":", ⟨5, 12⟩⟩,
     ⟨.newline, "\n", ⟨5, 13⟩⟩, ⟨.indent, "            ", ⟨6, 0⟩⟩, ⟨.name, "return", ⟨6, 12⟩⟩,
     ⟨.number, "2", ⟨6, 19⟩⟩, ⟨.newline, "\n", ⟨6, 20⟩⟩, ⟨.dedent, "", ⟨7, 0⟩⟩,
     ⟨.dedent, "", ⟨7, 0⟩⟩, ⟨.dedent, "", ⟨7, 0⟩⟩, ⟨.endMarker, "", ⟨7, 0⟩⟩]

theorem laidOutByColumn_elseInFunction :
    LaidOutByColumn elseInFunction.toList elseInFunctionStart elseInFunctionVisit.before.reverse
      elseInFunctionVisit.token := by
  refine laidOutByColumn_of_spaces (by decide +kernel) (by decide +kernel) ?_ ?_
  · exact forall_splits_of_get (by decide +kernel)
  · exact forall_splits_of_get (by decide +kernel)

/-- The `else` belongs to the `if`. The name of the function, which stands in its column, comes
before the header, and so it is no obstacle. -/
theorem elseInFunction_owner :
    tokenize elseInFunction = .ok elseInFunctionVisit.unit.tokens
      ∧ Violation.of Rule.implicitElif ⟨5, 8⟩ none
        ∈ ((implicitElif.visit elseInFunctionVisit).run (.ofGroups Catalog.standardGroups)).1
      ∧ LaidOutByColumn elseInFunction.toList elseInFunctionStart
        elseInFunctionVisit.before.reverse elseInFunctionVisit.token
      ∧ ⟨.name, "f", ⟨1, elseInFunctionVisit.token.position.column⟩⟩ ∈ elseInFunctionStart
      ∧ ∃ outer indent inner dedent first line gap,
        ClosedBlock elseInFunctionVisit.before.reverse outer indent inner dedent
        ∧ HeaderOf outer elseInFunctionStart first line gap ∧ first.position = ⟨2, 4⟩
        ∧ (first.isKeyword "if" = true ∨ first.isKeyword "elif" = true) := by
  have htokens : tokenize elseInFunction = .ok elseInFunctionVisit.unit.tokens := by
    decide +kernel
  have hreported : Violation.of Rule.implicitElif ⟨5, 8⟩ none
      ∈ ((implicitElif.visit elseInFunctionVisit).run (.ofGroups Catalog.standardGroups)).1 :=
    mem_run_of_reportAt (by decide)
  obtain ⟨outer, indent, inner, dedent, hblock, howner⟩ := implicitElif_owner htokens
    elseInFunctionVisit.mem_tokenVisits_unit hreported
  have hreturn : ClosedBlock elseInFunctionVisit.before.reverse
      (elseInFunctionStart ++ elseInFunctionHeader) ⟨.indent, "        ", ⟨3, 0⟩⟩
      [⟨.name, "return", ⟨3, 8⟩⟩, ⟨.number, "1", ⟨3, 15⟩⟩, ⟨.newline, "\n", ⟨3, 16⟩⟩]
      ⟨.dedent, "", ⟨4, 4⟩⟩ :=
    ⟨rfl, rfl, rfl, by decide⟩
  obtain rfl := hblock.outer_unique hreturn
  have hheader : HeaderOf (elseInFunctionStart ++ elseInFunctionHeader) elseInFunctionStart
      ⟨.name, "if", ⟨2, 4⟩⟩ [⟨.name, "a", ⟨2, 7⟩⟩, ⟨.colon, ":", ⟨2, 8⟩⟩]
      [⟨.newline, "\n", ⟨2, 9⟩⟩] :=
    ⟨rfl, by decide, rfl, by decide, by decide⟩
  exact ⟨htokens, hreported, laidOutByColumn_elseInFunction, by decide, _, _, _, _, _, _, _, hblock,
    hheader, rfl, howner _ _ _ _ hheader rfl laidOutByColumn_elseInFunction⟩

/-- A loop with an `else`, and an `if` in brackets in the column of the `else`. -/
def loopElse : String :=
  "for i in x:\n    f(a\nif b else c)\nelse:\n    if z:\n        w = 1\n"

/-- The header of the loop. -/
def loopElseHeader : List Token :=
  [⟨.name, "for", ⟨1, 0⟩⟩, ⟨.name, "i", ⟨1, 4⟩⟩, ⟨.name, "in", ⟨1, 6⟩⟩, ⟨.name, "x", ⟨1, 9⟩⟩,
   ⟨.colon, ":", ⟨1, 10⟩⟩, ⟨.newline, "\n", ⟨1, 11⟩⟩]

/-- The body of the loop. -/
def loopElseBody : List Token :=
  [⟨.name, "f", ⟨2, 4⟩⟩, ⟨.op, "(", ⟨2, 5⟩⟩, ⟨.name, "a", ⟨2, 6⟩⟩, ⟨.blankLine, "\n", ⟨2, 7⟩⟩,
   ⟨.name, "if", ⟨3, 0⟩⟩, ⟨.name, "b", ⟨3, 3⟩⟩, ⟨.name, "else", ⟨3, 5⟩⟩, ⟨.name, "c", ⟨3, 10⟩⟩,
   ⟨.op, ")", ⟨3, 11⟩⟩, ⟨.newline, "\n", ⟨3, 12⟩⟩]

/-- The visit to the `else` of the loop. -/
def loopElseVisit : TokenVisit where
  path := "m.py"
  before := ⟨.dedent, "", ⟨4, 0⟩⟩
    :: (loopElseBody.reverse ++ ⟨.indent, "    ", ⟨2, 0⟩⟩ :: loopElseHeader.reverse)
  token := ⟨.name, "else", ⟨4, 0⟩⟩
  after :=
    [⟨.colon, ":", ⟨4, 4⟩⟩, ⟨.newline, "\n", ⟨4, 5⟩⟩, ⟨.indent, "    ", ⟨5, 0⟩⟩,
     ⟨.name, "if", ⟨5, 4⟩⟩, ⟨.name, "z", ⟨5, 7⟩⟩, ⟨.colon, ":", ⟨5, 8⟩⟩, ⟨.newline, "\n", ⟨5, 9⟩⟩,
     ⟨.indent, "        ", ⟨6, 0⟩⟩, ⟨.name, "w", ⟨6, 8⟩⟩, ⟨.op, "=", ⟨6, 10⟩⟩,
     ⟨.number, "1", ⟨6, 12⟩⟩, ⟨.newline, "\n", ⟨6, 13⟩⟩, ⟨.dedent, "", ⟨7, 0⟩⟩,
     ⟨.dedent, "", ⟨7, 0⟩⟩, ⟨.endMarker, "", ⟨7, 0⟩⟩]

/-- **A reported `else` need not belong to an `if`**: the one in `loopElse` is reported, and the
block that it closes is that of the loop. -/
theorem implicitElif_loopElse :
    tokenize loopElse = .ok loopElseVisit.unit.tokens
      ∧ loopElseVisit ∈ tokenVisits loopElseVisit.unit
      ∧ (∃ catalog, Catalog.standard = .ok catalog
        ∧ Violation.of Rule.implicitElif ⟨5, 4⟩ none
          ∈ ((implicitElif.visit loopElseVisit).run catalog).1)
      ∧ ∃ outer indent inner dedent,
        ClosedBlock loopElseVisit.before.reverse outer indent inner dedent
        ∧ (∃ first line gap, HeaderOf outer [] first line gap ∧ first.isKeyword "for" = true)
        ∧ ¬ ∃ front first line gap, HeaderOf outer front first line gap
          ∧ (first.isKeyword "if" = true ∨ first.isKeyword "elif" = true) := by
  have htokens : tokenize loopElse = .ok loopElseVisit.unit.tokens := by decide +kernel
  refine ⟨htokens, loopElseVisit.mem_tokenVisits_unit,
    ⟨_, Catalog.build_standardGroups, mem_run_of_reportAt (by decide)⟩,
    loopElseHeader, _, loopElseBody, _,
    ⟨rfl, rfl, rfl, by decide⟩, ?_, ?_⟩
  · exact ⟨_, loopElseHeader.tail.take 4, loopElseHeader.drop 5,
      ⟨rfl, by decide, rfl, by decide, by decide⟩, rfl⟩
  · rintro ⟨front, first, line, gap, hheader, hkeyword⟩
    have hmem : first ∈ loopElseHeader := by
      rw [hheader.outer_eq]
      simp
    have hnone : ∀ token ∈ loopElseHeader,
        ¬ (token.isKeyword "if" = true ∨ token.isKeyword "elif" = true) := by decide
    exact hnone first hmem hkeyword

end PyStyle
