import PyStyle.Proofs.TextBehind
import PyStyle.Proofs.TokenOrder

/-!
# Lines without code

A blank line, or one with nothing but a comment, may be put in front of any logical line or taken
out: the lines behind it move down by one, and nothing else happens to the tokens.

- `IsBlankLine` — a line of blanks, perhaps with a comment;
- `Scanner.ComesToLine` — where a run stands in front of a logical line;
- `Scanner.step_down`, `Scanner.run_down` — from one line further down the machine does the same;
- `Scanner.step_blankLine` — what it does in front of a blank line;
- `tokenize_blankLine` — **a blank line changes no more than line numbers**.
-/

namespace PyStyle

/-! ### One line further down -/

/-- The same column of the next line. -/
def Position.down (p : Position) : Position :=
  ⟨p.line + 1, p.column⟩

def Token.down (token : Token) : Token :=
  { token with position := token.position.down }

/-- The same error one line further down. -/
def LexError.down : LexError → LexError
  | inconsistentDedent p => inconsistentDedent p.down
  | unterminatedString p => unterminatedString p.down
  | unexpectedCharacter p c => unexpectedCharacter p.down c

/-- A text leads just as far from one line below. -/
theorem Position.past_down (p : Position) (text : List Char) :
    p.down.past text = (p.past text).down := by
  induction text generalizing p with
  | nil => rfl
  | cons c text ih =>
    have hchar : p.down.pastChar c = (p.pastChar c).down := by
      unfold pastChar
      split <;> rfl
    show (p.down.pastChar c).past text = _
    rw [hchar]
    exact ih (p.pastChar c)

namespace Scanner

open Lexeme

/-- The machine one line further down, before the same text. -/
def down (s : Scanner) : Scanner :=
  { s with position := s.position.down }

/-- What the machine does in the step one line further down. -/
def Step.down : Step → Step
  | .emit tokens next => .emit (tokens.map Token.down) next.down
  | .stop last => .stop last.down

/-- What becomes of a step if the machine stands one line further down. -/
def stepDown (result : Except LexError Step) : Except LexError Step :=
  (result.map Step.down).mapError LexError.down

section Down

variable (s : Scanner)

@[simp] theorem down_rest : s.down.rest = s.rest := rfl

@[simp] theorem down_position : s.down.position = s.position.down := rfl

@[simp] theorem down_depth : s.down.depth = s.depth := rfl

@[simp] theorem down_indents : s.down.indents = s.indents := rfl

@[simp] theorem down_fresh : s.down.fresh = s.fresh := rfl

theorem take_down (kind : TokenKind) (n : Nat) :
    s.down.take kind n = ((s.take kind n).1.down, (s.take kind n).2.down) := by
  simp only [take, down, Token.down, Position.past_down]

theorem takeBreak_down (kind : TokenKind) :
    s.down.takeBreak kind = ((s.takeBreak kind).1.down, (s.takeBreak kind).2.down) := by
  unfold takeBreak
  dsimp only [down_rest]
  split <;> rfl

/-- A lexeme is found in the text, wherever the text stands. -/
theorem lexeme_down (c : Char) : s.down.lexeme c = stepDown (s.lexeme c) := by
  unfold lexeme
  rw [down_rest]
  cases opener? s.rest with
  | some o =>
    dsimp only
    cases stringLiteral o s.rest with
    | none => rfl
    | some n =>
      dsimp only
      rw [take_down]
      rfl
  | none =>
    dsimp only
    simp only [take_down]
    split
    · rfl
    · split
      · rfl
      · split <;> rfl

theorem inLine_down : s.down.inLine = stepDown s.inLine := by
  cases hrest : s.rest with
  | nil =>
    unfold inLine
    rw [down_rest, hrest]
    rfl
  | cons c rest =>
    have hrest' : s.down.rest = c :: rest := hrest
    cases hbreak : isLineBreak c with
    | true =>
      rw [inLine_of_break hrest hbreak, inLine_of_break hrest' hbreak, down_depth, takeBreak_down]
      rfl
    | false =>
      rw [inLine_of_not_break hrest hbreak, inLine_of_not_break hrest' hbreak, down_rest,
        lexeme_down, take_down]
      split
      · have hchar : s.down.position.pastChar c = (s.position.pastChar c).down :=
          s.position.past_down [c]
        rw [hchar]
        rfl
      · split
        · rfl
        · split <;> rfl

theorem blankLine_down : Scanner.blankLine s.down = (Scanner.blankLine s).down := by
  by_cases hmark : ∃ tail, s.rest = '#' :: tail
  · obtain ⟨tail, hrest⟩ := hmark
    have htake : s.down.takeComment = (s.takeComment.1.down, s.takeComment.2.down) :=
      s.take_down .comment _
    rw [blankLine_of_comment hrest, blankLine_of_comment (show s.down.rest = _ from hrest), htake,
      takeBreak_down]
    rfl
  · have hnone : ∀ tail, s.rest ≠ '#' :: tail := fun tail hrest => hmark ⟨tail, hrest⟩
    rw [blankLine_of_not_comment hnone,
      blankLine_of_not_comment (show ∀ tail, s.down.rest ≠ _ from hnone), takeBreak_down]
    rfl

theorem openLine_down (blanks : List Char) :
    openLine blanks s.down = stepDown (openLine blanks s) := by
  unfold openLine
  dsimp only
  rw [show s.down.width = s.width from rfl, down_indents]
  split
  · rfl
  · split
    · show _ = Except.ok (Step.emit (List.map Token.down _) _)
      rw [List.map_replicate]
      rfl
    · rfl

/-- The start of a line: the width of the indentation counts, and not the line it is on. -/
theorem lineStart_down : s.down.lineStart = stepDown s.lineStart := by
  have hpast : s.down.pastBlanks = s.pastBlanks.down := by
    simp only [pastBlanks, blanks, down, Position.past_down]
  rw [lineStart_eq, lineStart_eq, hpast, down_rest, blankLine_down, openLine_down,
    show s.down.blanks = s.blanks from rfl]
  cases s.pastBlanks.rest with
  | nil => rfl
  | cons c tail =>
    dsimp only
    split <;> rfl

/-- **One step from one line further down.** -/
theorem step_down : s.down.step = stepDown s.step := by
  unfold step
  rw [down_fresh]
  split
  · exact s.lineStart_down
  · exact s.inLine_down

/-- The end of the text is one line further down, with the same blocks to close. -/
theorem finish_down {emitted emitted' : List Token}
    (hopen : emitted.head?.all Token.isLineEnd = emitted'.head?.all Token.isLineEnd) :
    s.down.finish emitted' = (s.finish emitted).map Token.down := by
  have hend : s.down.endPosition = s.endPosition.down := by
    unfold endPosition
    rw [down_position, show s.position.down.column = s.position.column from rfl]
    split <;> rfl
  rw [finish_eq, finish_eq, hopen, hend, List.map_append, List.map_append, List.map_replicate]
  split <;> rfl

end Down

/-- **A run from one line further down** emits the same tokens one line further down, or fails in
the same way. -/
theorem run_down {s : Scanner} {emitted emitted' : List Token}
    (hopen : emitted.head?.all Token.isLineEnd = emitted'.head?.all Token.isLineEnd) :
    (∃ later, s.run emitted = .ok (emitted.reverse ++ later)
        ∧ s.down.run emitted' = .ok (emitted'.reverse ++ later.map Token.down))
      ∨ ∃ e, s.run emitted = .error e ∧ s.down.run emitted' = .error e.down := by
  fun_induction run s emitted generalizing emitted' with
  | case1 s emitted e hstep =>
    have hstep' : s.down.step = .error e.down := by
      rw [step_down, hstep]
      rfl
    exact .inr ⟨e, rfl, run_of_error hstep' emitted'⟩
  | case2 s emitted last hstep =>
    have hstep' : s.down.step = .ok (.stop last.down) := by
      rw [step_down, hstep]
      rfl
    refine .inl ⟨last.finish emitted, rfl, ?_⟩
    rw [run_of_stop hstep', finish_down last hopen]
  | case3 s emitted tokens next hstep ih =>
    have hstep' : s.down.step = .ok (.emit (tokens.map Token.down) next.down) := by
      rw [step_down, hstep]
      rfl
    rw [run_of_emit hstep']
    have hkinds : (tokens.map Token.down).map Token.kind = tokens.map Token.kind := by
      rw [List.map_map]
      rfl
    rcases ih (openEnd_congr hkinds hopen) with ⟨later, hrun, hrun'⟩ | ⟨e, hrun, hrun'⟩
    · exact .inl ⟨tokens ++ later, by rw [hrun]; simp, by rw [hrun']; simp⟩
    · exact .inr ⟨e, hrun, hrun'⟩

end Scanner

/-! ### A blank line -/

/-- A line of blanks and perhaps a comment, with the line feed that ends it. -/
def IsBlankLine (line : List Char) : Prop :=
  ∃ blanks comment, line = blanks ++ comment ++ ['\n']
    ∧ (∀ c ∈ blanks, c = ' ' ∨ c = '\t' ∨ c = '\x0c')
    ∧ (comment = [] ∨ ∃ text, comment = '#' :: text ∧ '\r' ∉ text ∧ '\n' ∉ text)

namespace Scanner

open Lexeme

/-- The machine behind a comment and in front of the line feed behind it. -/
theorem takeComment_lineFeed {s : Scanner} {comment rest : List Char}
    (hrest : s.rest = comment ++ '\n' :: rest) (hreturn : '\r' ∉ comment) (hfeed : '\n' ∉ comment) :
    s.takeComment.2.rest = '\n' :: rest ∧ s.takeComment.2.position.line = s.position.line := by
  have hinside : ∀ c ∈ comment, (!isLineBreak c) = true := by
    intro c hc
    cases hbreak : isLineBreak c with
    | false => rfl
    | true =>
      rcases eq_of_isLineBreak hbreak with rfl | rfl
      · exact absurd hc hreturn
      · exact absurd hc hfeed
  have hlength : Lexeme.comment s.rest = comment.length := by
    rw [hrest, Lexeme.comment, Lexeme.run, List.takeWhile_append_of_pos hinside]
    simp [isLineBreak]
  constructor
  · rw [take_rest, hlength, hrest, List.drop_left]
  · have htext : s.rest.take (Lexeme.comment s.rest) = comment := by
      rw [hlength, hrest, List.take_left]
    show (s.position.past (s.rest.take (Lexeme.comment s.rest))).line = s.position.line
    rw [htext]
    exact (s.position.leads_past comment).line hfeed hreturn

/-- **In front of a blank line** the machine goes to the next line; what it emits is no code and
ends the line. -/
theorem step_blankLine {s : Scanner} {line rest : List Char} (hline : IsBlankLine line)
    (hfresh : s.fresh = true) (hrest : s.rest = line ++ rest) :
    ∃ inserted, s.step = .ok (.emit inserted { s with
          rest := rest
          position := s.position.nextLine })
      ∧ (∀ token ∈ inserted, token.isFiller = true)
      ∧ ∀ emitted, (inserted.reverse ++ emitted).head?.all Token.isLineEnd = true := by
  obtain ⟨blanks, comment, rfl, hblanks, hcomment⟩ := hline
  have hindent : ∀ b ∈ blanks, isIndentChar b = true := fun b hb =>
    isIndentChar_iff.mpr (hblanks b hb)
  -- The next line starts at the same place whether a comment was passed or not.
  have hnext : ∀ u : Scanner, u.position.line = s.position.line →
      u.position.nextLine = s.position.nextLine := by
    intro u hu
    rw [Position.nextLine, hu, Position.nextLine]
  rcases hcomment with rfl | ⟨text, rfl, hreturn, hfeed⟩
  · have hsplit : s.rest = blanks ++ '\n' :: rest := by simpa using hrest
    obtain ⟨-, hpast⟩ := pastBlanks_of_split hsplit hindent rfl
    have hnone : ∀ tail, s.pastBlanks.rest ≠ '#' :: tail := by simp [hpast]
    refine ⟨[(s.pastBlanks.takeBreak .blankLine).1], ?_, by simp [Token.isFiller], by
      simp [Token.isLineEnd]⟩
    rw [step_of_blank hfresh hpast rfl, blankLine_of_not_comment hnone,
      takeBreak_lineFeed .blankLine hpast,
      hnext s.pastBlanks (pastBlanks_line s), ← hfresh]
    rfl
  · have hsplit : s.rest = blanks ++ '#' :: (text ++ '\n' :: rest) := by simpa using hrest
    obtain ⟨-, hpast⟩ := pastBlanks_of_split hsplit hindent rfl
    have hcomment : s.pastBlanks.rest = ('#' :: text) ++ '\n' :: rest := hpast
    obtain ⟨hbehind, hplace⟩ :=
      takeComment_lineFeed hcomment (by simpa using hreturn) (by simpa using hfeed)
    refine ⟨[s.pastBlanks.takeComment.1, (s.pastBlanks.takeComment.2.takeBreak .blankLine).1], ?_,
      by simp [Token.isFiller], by simp [Token.isLineEnd]⟩
    rw [step_of_blank hfresh hpast rfl, blankLine_of_comment hpast,
      takeBreak_lineFeed .blankLine hbehind,
      hnext s.pastBlanks.takeComment.2 (hplace.trans (pastBlanks_line s)), ← hfresh]
    rfl

/-! ### Where a logical line is to be read -/

/-- Behind the front of the text, which is empty or ends with a line feed, an indentation is to be
read: no bracket and no string is open there, and no backslash joins the next line to the last. -/
structure ComesToLine (front back : List Char) (emitted : List Token) (s : Scanner) : Prop where
  line : EndsLine front
  reaches : Reaches (start (front ++ back)) emitted s
  rest : s.rest = back
  fresh : s.fresh = true

/-- Whole lines that are read after whole lines are whole lines. -/
theorem Lines.reaches {source : List Char} {emitted tokens : List Token} {s t : Scanner}
    (hs : Lines source emitted s) (h : Reaches s tokens t) :
    Lines source (emitted ++ tokens) t := by
  induction h generalizing emitted with
  | refl s => rwa [List.append_nil]
  | step hstep _ ih =>
    rw [← List.append_assoc]
    exact ih (hs.move (move_of_step hstep))

/-- One more step. -/
theorem Reaches.emit {s t u : Scanner} {tokens more : List Token} (h : Reaches s tokens t)
    (hstep : t.step = .ok (.emit more u)) : Reaches s (tokens ++ more) u := by
  induction h with
  | refl s =>
    have hlast := Reaches.step hstep (.refl u)
    rwa [List.append_nil] at hlast
  | step hfirst _ ih =>
    rw [List.append_assoc]
    exact .step hfirst (ih hstep)

/-- Where an indentation is to be read, it starts in the first column, and no line is open. -/
theorem margin_of_reaches {source : List Char} {emitted : List Token} {s : Scanner}
    (h : Reaches (start source) emitted s) (hfresh : s.fresh = true) (hne : s.rest ≠ []) :
    s.position.column = 0 ∧ emitted.reverse.head?.all Token.isLineEnd = true := by
  have hline := ((lines_start source).reaches h).start hfresh hne
  rw [List.nil_append] at hline
  refine ⟨hline.column, ?_⟩
  rcases hline.place with ⟨rfl, -⟩ | ⟨lines, lineEnd, spelled, rfl, hend, -⟩
  · rfl
  · simpa using hend

/-- **A blank line between two lines** is read from the same state as the line behind it, and leaves
that state one line further down. -/
theorem ComesToLine.insert {front back line : List Char} {emitted : List Token} {s : Scanner}
    (h : ComesToLine front back emitted s) (hline : IsBlankLine line) :
    emitted.reverse.head?.all Token.isLineEnd = true
      ∧ ∃ inserted, Reaches (start (front ++ line ++ back)) (emitted ++ inserted) s.down
        ∧ (∀ token ∈ inserted, token.isFiller = true)
        ∧ (inserted.reverse ++ emitted.reverse).head?.all Token.isLineEnd = true := by
  have hfront : Reaches ((start front).extend back) emitted s := h.reaches
  obtain ⟨t, rfl, hother⟩ := reaches_of_extend hfront h.line h.rest h.fresh
  have hnil : t.rest = [] := List.append_left_eq_self.mp h.rest
  have hreaches : Reaches (start (front ++ line ++ back)) emitted (t.extend (line ++ back)) := by
    rw [List.append_assoc]
    exact hother (line ++ back)
  have hrest : (t.extend (line ++ back)).rest = line ++ back := by
    rw [extend_rest, hnil, List.nil_append]
  have hfresh : (t.extend (line ++ back)).fresh = true := h.fresh
  have hne : (t.extend (line ++ back)).rest ≠ [] := by
    obtain ⟨blanks, comment, rfl, -⟩ := hline
    simp
  obtain ⟨hcolumn, hclosed⟩ := margin_of_reaches hreaches hfresh hne
  obtain ⟨inserted, hstep, hfillers, hends⟩ := step_blankLine hline hfresh hrest
  have hnext : { t.extend (line ++ back) with
      rest := back
      position := (t.extend (line ++ back)).position.nextLine } = (t.extend back).down := by
    have hplace : t.position.nextLine = t.position.down := by
      rw [Position.nextLine, Position.down, show t.position.column = 0 from hcolumn]
    have hback : t.extend back = { t with rest := back } := by
      rw [extend, hnil, List.nil_append]
    rw [hback, extend_position, hplace]
    rfl
  rw [hnext] at hstep
  exact ⟨hclosed, inserted, hreaches.emit hstep, hfillers, hends _⟩

end Scanner

/-- **A blank line changes no more than line numbers.** Put in front of a logical line it adds
tokens that are no code, and all tokens from there on, or the error, move down by one line. -/
theorem tokenize_blankLine {front back line : List Char} {emitted : List Token} {s : Scanner}
    (hline : IsBlankLine line) (h : Scanner.ComesToLine front back emitted s) :
    (∃ later inserted,
      tokenize (String.ofList (front ++ back)) = .ok (emitted ++ later)
      ∧ tokenize (String.ofList (front ++ line ++ back))
          = .ok (emitted ++ inserted ++ later.map Token.down)
      ∧ ∀ token ∈ inserted, token.isFiller = true)
    ∨ ∃ e, tokenize (String.ofList (front ++ back)) = .error e
      ∧ tokenize (String.ofList (front ++ line ++ back)) = .error e.down := by
  obtain ⟨hclosed, inserted, hreaches, hfillers, hclosed'⟩ := h.insert hline
  have hrun : tokenize (String.ofList (front ++ back)) = s.run emitted.reverse := by
    rw [tokenize, String.toList_ofList, Scanner.run_of_reaches h.reaches, List.append_nil]
  have hrun' : tokenize (String.ofList (front ++ line ++ back))
      = s.down.run (inserted.reverse ++ emitted.reverse) := by
    rw [tokenize, String.toList_ofList, Scanner.run_of_reaches hreaches, List.append_nil,
      List.reverse_append]
  rw [hrun, hrun']
  rcases Scanner.run_down (hclosed.trans hclosed'.symm) with ⟨later, hok, hok'⟩ | ⟨e, he, he'⟩
  · exact .inl ⟨later, inserted, by rw [hok, List.reverse_reverse],
      by rw [hok', ← List.reverse_append, List.reverse_reverse], hfillers⟩
  · exact .inr ⟨e, he, he'⟩

/-- A comment further left than the block, in front of its second line: it closes no block, and all
tokens from there on move down. -/
theorem tokenize_blankLine_inBlock :
    IsBlankLine " # y\n".toList
    ∧ ∃ emitted s, Scanner.ComesToLine "if x:\n  y\n".toList "  z".toList emitted s
      ∧ ∃ later inserted,
        tokenize "if x:\n  y\n  z" = .ok (emitted ++ later)
        ∧ tokenize "if x:\n  y\n # y\n  z" = .ok (emitted ++ inserted ++ later.map Token.down)
        ∧ (∀ token ∈ inserted, token.isFiller = true)
        ∧ emitted ++ later
          = [⟨.name, "if", ⟨1, 0⟩⟩, ⟨.name, "x", ⟨1, 3⟩⟩, ⟨.colon, ":", ⟨1, 4⟩⟩,
            ⟨.newline, "\n", ⟨1, 5⟩⟩, ⟨.indent, "  ", ⟨2, 0⟩⟩, ⟨.name, "y", ⟨2, 2⟩⟩,
            ⟨.newline, "\n", ⟨2, 3⟩⟩, ⟨.name, "z", ⟨3, 2⟩⟩, ⟨.newline, "", ⟨3, 3⟩⟩,
            ⟨.dedent, "", ⟨4, 0⟩⟩, ⟨.endMarker, "", ⟨4, 0⟩⟩]
        ∧ emitted ++ inserted ++ later.map Token.down
          = [⟨.name, "if", ⟨1, 0⟩⟩, ⟨.name, "x", ⟨1, 3⟩⟩, ⟨.colon, ":", ⟨1, 4⟩⟩,
            ⟨.newline, "\n", ⟨1, 5⟩⟩, ⟨.indent, "  ", ⟨2, 0⟩⟩, ⟨.name, "y", ⟨2, 2⟩⟩,
            ⟨.newline, "\n", ⟨2, 3⟩⟩, ⟨.comment, "# y", ⟨3, 1⟩⟩, ⟨.blankLine, "\n", ⟨3, 4⟩⟩,
            ⟨.name, "z", ⟨4, 2⟩⟩, ⟨.newline, "", ⟨4, 3⟩⟩, ⟨.dedent, "", ⟨5, 0⟩⟩,
            ⟨.endMarker, "", ⟨5, 0⟩⟩] := by
  have hline : IsBlankLine " # y\n".toList :=
    ⟨[' '], ['#', ' ', 'y'], rfl, by simp, .inr ⟨[' ', 'y'], rfl, by simp, by simp⟩⟩
  have hlast : EndsLine "if x:\n  y\n".toList := .inr ⟨"if x:\n  y".toList, rfl⟩
  have hcomes : ∃ emitted s,
      Scanner.ComesToLine "if x:\n  y\n".toList "  z".toList emitted s :=
    ⟨_, _, hlast, .step rfl (.step rfl (.step rfl (.step rfl (.step rfl (.step rfl (.step rfl
      (.step rfl (.step rfl (.refl _))))))))), rfl, rfl⟩
  obtain ⟨emitted, s, h⟩ := hcomes
  have hwithout : String.ofList ("if x:\n  y\n".toList ++ "  z".toList)
      = "if x:\n  y\n  z" := by decide
  have hwith : String.ofList ("if x:\n  y\n".toList ++ " # y\n".toList ++ "  z".toList)
      = "if x:\n  y\n # y\n  z" := by decide
  have hlines := tokenize_blankLine hline h
  rw [hwithout, hwith] at hlines
  have htokens : (tokenize "if x:\n  y\n  z").isOk = true := by decide +kernel
  rcases hlines with ⟨later, inserted, hplain, hcomment, hfillers⟩ | ⟨e, herror, -⟩
  · refine ⟨hline, emitted, s, h, later, inserted, hplain, hcomment, hfillers, ?_, ?_⟩
    · refine Except.ok.inj (hplain.symm.trans ?_)
      decide +kernel
    · refine Except.ok.inj (hcomment.symm.trans ?_)
      decide +kernel
  · rw [herror] at htokens
    cases htokens

end PyStyle
