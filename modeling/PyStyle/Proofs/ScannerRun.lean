import Mathlib.Data.List.TakeWhile
import PyStyle.Token.Scanner

/-!
# Runs of the scanner

What the scanner can do in one step, said once, and what a whole run is made of. Everything
that holds of all token streams is proved about `Move` and lifted to runs by induction.

- `Scanner.Move` — the steps that go on: what they read, what they emit, what they leave;
- `Scanner.move_of_step`, `Scanner.stop_of_step` — every step is one of them, or stops at the
  end of the text;
- `Scanner.Scans` — some steps in a row, with all they emit;
- `Scanner.scans_of_run` — a run that succeeds scans the whole text and then closes what is
  open.
-/

namespace PyStyle

namespace Scanner

/-! ### Taking text -/

@[simp] theorem take_rest (s : Scanner) (kind : TokenKind) (n : Nat) :
    (s.take kind n).2.rest = s.rest.drop n := rfl

@[simp] theorem take_text (s : Scanner) (kind : TokenKind) (n : Nat) :
    (s.take kind n).1.text = String.ofList (s.rest.take n) := rfl

@[simp] theorem take_kind (s : Scanner) (kind : TokenKind) (n : Nat) :
    (s.take kind n).1.kind = kind := rfl

@[simp] theorem take_fresh (s : Scanner) (kind : TokenKind) (n : Nat) :
    (s.take kind n).2.fresh = s.fresh := rfl

@[simp] theorem takeBreak_rest (s : Scanner) (kind : TokenKind) :
    (s.takeBreak kind).2.rest = s.rest.drop (Lexeme.lineBreak s.rest) := rfl

@[simp] theorem takeBreak_text (s : Scanner) (kind : TokenKind) :
    (s.takeBreak kind).1.text = String.ofList (s.rest.take (Lexeme.lineBreak s.rest)) := rfl

@[simp] theorem takeBreak_kind (s : Scanner) (kind : TokenKind) :
    (s.takeBreak kind).1.kind = kind := rfl

/-- Take the comment at the front as one token. -/
abbrev takeComment (s : Scanner) : Token × Scanner :=
  s.take .comment (Lexeme.comment s.rest)

/-- The indentation at the front of the text. -/
def blanks (s : Scanner) : List Char :=
  s.rest.takeWhile isIndentChar

/-- The machine behind the indentation. -/
def pastBlanks (s : Scanner) : Scanner :=
  { s with
    rest := s.rest.dropWhile isIndentChar
    position := s.position.past s.blanks }

/-- Nothing of the text is lost when the indentation is read. -/
theorem blanks_append_rest (s : Scanner) : s.blanks ++ s.pastBlanks.rest = s.rest :=
  List.takeWhile_append_dropWhile

theorem isIndentChar_of_mem_blanks {s : Scanner} {c : Char} (h : c ∈ s.blanks) :
    isIndentChar c = true :=
  List.mem_takeWhile_imp h

/-- Behind the indentation stands no blank. -/
theorem not_blank_of_pastBlanks {s : Scanner} {c : Char} {tail : List Char}
    (h : s.pastBlanks.rest = c :: tail) : isIndentChar c = false := by
  have hhead := List.head?_dropWhile_not isIndentChar s.rest
  rw [show s.rest.dropWhile isIndentChar = c :: tail from h] at hhead
  simpa using hhead

/-! ### One step -/

/-- A character with which a token may start: no blank, no backslash, no line break and no
comment mark. -/
structure StartsLexeme (c : Char) : Prop where
  not_blank : isIndentChar c = false
  not_backslash : c ≠ '\\'
  not_break : Lexeme.isLineBreak c = false
  not_comment : c ≠ '#'

/-- What a step that goes on does. The first four constructors read the indentation of a
line, the others stand inside a line. -/
inductive Move (s : Scanner) : List Token → Scanner → Prop
  | blankLine {c : Char} {tail : List Char} (hfresh : s.fresh = true)
      (hrest : s.pastBlanks.rest = c :: tail) (hbreak : Lexeme.isLineBreak c = true) :
      Move s [(s.pastBlanks.takeBreak .blankLine).1]
        { (s.pastBlanks.takeBreak .blankLine).2 with fresh := true }
  | commentLine {tail : List Char} (hfresh : s.fresh = true)
      (hrest : s.pastBlanks.rest = '#' :: tail) :
      Move s [s.pastBlanks.takeComment.1, (s.pastBlanks.takeComment.2.takeBreak .blankLine).1]
        { (s.pastBlanks.takeComment.2.takeBreak .blankLine).2 with fresh := true }
  | openBlock {c : Char} {tail : List Char} (hfresh : s.fresh = true)
      (hrest : s.pastBlanks.rest = c :: tail)
      (hcode : (c == '#' || Lexeme.isLineBreak c) = false)
      (hwidth : s.width < indentWidth s.blanks) :
      Move s [⟨.indent, String.ofList s.blanks, ⟨s.pastBlanks.position.line, 0⟩⟩]
        { s.pastBlanks with fresh := false, indents := indentWidth s.blanks :: s.indents }
  | closeBlocks {c : Char} {tail : List Char} (hfresh : s.fresh = true)
      (hrest : s.pastBlanks.rest = c :: tail)
      (hcode : (c == '#' || Lexeme.isLineBreak c) = false)
      (hkept : (keptBlocks (indentWidth s.blanks) s.indents).headD 0 = indentWidth s.blanks) :
      Move s
        (List.replicate (closedBlocks (indentWidth s.blanks) s.indents)
          (dedent s.pastBlanks.position))
        { s.pastBlanks with
          fresh := false, indents := keptBlocks (indentWidth s.blanks) s.indents }
  | skip {c : Char} {tail : List Char} (hfresh : s.fresh = false) (hrest : s.rest = c :: tail)
      (hblank : isIndentChar c = true) :
      Move s [] { s with rest := tail, position := s.position.pastChar c }
  | join (hfresh : s.fresh = false) (hjoin : 0 < continuation s.rest) :
      Move s []
        { s with
          rest := s.rest.drop (continuation s.rest), position := s.position.nextLine }
  | lineBreak {c : Char} {tail : List Char} (hfresh : s.fresh = false)
      (hrest : s.rest = c :: tail) (hbreak : Lexeme.isLineBreak c = true) :
      Move s [(s.takeBreak (if s.depth = 0 then .newline else .blankLine)).1]
        (s.takeBreak (if s.depth = 0 then .newline else .blankLine)).2
  | comment {tail : List Char} (hfresh : s.fresh = false) (hrest : s.rest = '#' :: tail) :
      Move s [s.takeComment.1] s.takeComment.2
  | word {c : Char} {tail : List Char} {kind : TokenKind} {n : Nat} (hfresh : s.fresh = false)
      (hrest : s.rest = c :: tail) (hc : StartsLexeme c) (hn : 0 < n)
      (hkind : kind = .string ∨ kind = .number ∨ kind = .name) :
      Move s [(s.take kind n).1] (s.take kind n).2
  | operator {c : Char} {tail : List Char} {n : Nat} (hfresh : s.fresh = false)
      (hrest : s.rest = c :: tail) (hc : StartsLexeme c) (hn : 0 < n) :
      Move s [(s.take (operatorKind (s.rest.take n)) n).1]
        { (s.take (operatorKind (s.rest.take n)) n).2 with
          depth := depthAfter s.depth (s.rest.take n) }

/-- At the start of a line, what stands behind the indentation decides. -/
theorem lineStart_eq (s : Scanner) :
    s.lineStart = match s.pastBlanks.rest with
      | [] => .ok (.stop s.pastBlanks)
      | c :: _ =>
        if c == '#' || Lexeme.isLineBreak c then .ok (Scanner.blankLine s.pastBlanks)
        else openLine s.blanks s.pastBlanks := rfl

/-- No token starts with a backslash. -/
theorem lexeme_backslash {s : Scanner} {tail : List Char} {step : Step}
    (hrest : s.rest = '\\' :: tail) : s.lexeme '\\' ≠ .ok step := by
  have hopener : Lexeme.opener? ('\\' :: tail) = none := by
    cases tail with
    | nil => rfl
    | cons d ds =>
      have hpair : Lexeme.isStringLetterPair '\\' d = false := by
        simp [Lexeme.isStringLetterPair, Lexeme.isLetterOf]
      simp only [Lexeme.opener?, hpair]
      rfl
  have hnumber : Lexeme.number ('\\' :: tail) = 0 := rfl
  have hname : Lexeme.name ('\\' :: tail) = 0 := rfl
  have hoperator : Lexeme.operator ('\\' :: tail) = 0 := rfl
  unfold lexeme
  rw [hrest, hopener]
  simp [hnumber, hname, hoperator]

/-- A lexeme is a string, a number, a name or an operator, and is not empty. -/
theorem move_of_lexeme {s t : Scanner} {c : Char} {tail : List Char} {tokens : List Token}
    (hfresh : s.fresh = false) (hrest : s.rest = c :: tail) (hc : StartsLexeme c)
    (h : s.lexeme c = .ok (.emit tokens t)) : Move s tokens t := by
  unfold lexeme at h
  split at h
  · split at h
    · next n hstring =>
      cases h
      exact .word hfresh hrest hc (stringLiteral_pos hstring) (.inl rfl)
    · cases h
  · split at h
    · next hn =>
      cases h
      exact .word hfresh hrest hc hn (.inr (.inl rfl))
    · split at h
      · next hn =>
        cases h
        exact .word hfresh hrest hc hn (.inr (.inr rfl))
      · split at h
        · next hn =>
          cases h
          exact .operator hfresh hrest hc hn
        · cases h

/-- A step inside a line, in the order in which the scanner tries. -/
theorem move_of_inLine {s t : Scanner} {tokens : List Token} (hfresh : s.fresh = false)
    (h : s.inLine = .ok (.emit tokens t)) : Move s tokens t := by
  unfold inLine at h
  split at h
  · cases h
  · next c tail hrest =>
    split at h
    · next hblank =>
      cases h
      exact .skip hfresh hrest hblank
    · next hblank =>
      split at h
      · next hjoin =>
        cases h
        exact .join hfresh hjoin
      · split at h
        · next hbreak =>
          cases h
          exact .lineBreak hfresh hrest hbreak
        · next hbreak =>
          split at h
          · next hcomment =>
            cases h
            exact .comment hfresh (by rw [hrest, beq_iff_eq.mp hcomment])
          · next hcomment =>
            -- A backslash that joins no lines is an error, so it starts no token.
            have hbackslash : c ≠ '\\' := by
              rintro rfl
              exact lexeme_backslash hrest h
            exact move_of_lexeme hfresh hrest
              ⟨by simpa using hblank, hbackslash, by simpa using hbreak, by simpa using hcomment⟩
              h

/-- A line with a comment alone, or with nothing. -/
theorem move_of_blankLine {s t : Scanner} {c : Char} {tail : List Char} {tokens : List Token}
    (hfresh : s.fresh = true) (hrest : s.pastBlanks.rest = c :: tail)
    (hblank : (c == '#' || Lexeme.isLineBreak c) = true)
    (h : s.pastBlanks.blankLine = .emit tokens t) : Move s tokens t := by
  unfold Scanner.blankLine at h
  split at h
  · next tail' hcomment =>
    cases h
    exact .commentLine hfresh hcomment
  · next hcomment =>
    cases h
    have hbreak : Lexeme.isLineBreak c = true := by
      rcases Bool.or_eq_true_iff.mp hblank with hc | hc
      · exact absurd (beq_iff_eq.mp hc ▸ hrest) (hcomment tail)
      · exact hc
    exact .blankLine hfresh hrest hbreak

/-- A line with code opens a block, or closes as many as its indentation says. -/
theorem move_of_openLine {s t : Scanner} {c : Char} {tail : List Char} {tokens : List Token}
    (hfresh : s.fresh = true) (hrest : s.pastBlanks.rest = c :: tail)
    (hcode : (c == '#' || Lexeme.isLineBreak c) = false)
    (h : openLine s.blanks s.pastBlanks = .ok (.emit tokens t)) : Move s tokens t := by
  unfold openLine at h
  dsimp only at h
  split at h
  · next hwidth =>
    cases h
    exact .openBlock hfresh hrest hcode hwidth
  · split at h
    · next hkept =>
      cases h
      exact .closeBlocks hfresh hrest hcode hkept
    · cases h

/-- **Every step that goes on is a move.** -/
theorem move_of_step {s t : Scanner} {tokens : List Token}
    (h : s.step = .ok (.emit tokens t)) : Move s tokens t := by
  unfold step at h
  split at h
  · next hfresh =>
    rw [lineStart_eq] at h
    cases hrest : s.pastBlanks.rest with
    | nil =>
      rw [hrest] at h
      cases h
    | cons c tail =>
      rw [hrest] at h
      dsimp only at h
      split at h
      · next hblank =>
        injection h with h
        exact move_of_blankLine hfresh hrest hblank h
      · next hblank => exact move_of_openLine hfresh hrest (by simpa using hblank) h
  · next hfresh => exact move_of_inLine (by simpa using hfresh) h

theorem blankLine_ne_stop (s last : Scanner) : Scanner.blankLine s ≠ .stop last := by
  unfold Scanner.blankLine
  split <;> simp

theorem openLine_ne_stop (blanks : List Char) (s last : Scanner) :
    openLine blanks s ≠ .ok (.stop last) := by
  unfold openLine
  dsimp only
  split
  · simp
  · split <;> simp

theorem lexeme_ne_stop (s : Scanner) (c : Char) (last : Scanner) :
    s.lexeme c ≠ .ok (.stop last) := by
  unfold lexeme
  split
  · split <;> simp
  · split
    · simp
    · split
      · simp
      · split <;> simp

/-- Inside a line the scanner stops at the end of the text only. -/
theorem inLine_eq_stop {s last : Scanner} (h : s.inLine = .ok (.stop last)) :
    s.rest = [] ∧ last = s := by
  unfold inLine at h
  split at h
  · next hrest =>
    cases h
    exact ⟨hrest, rfl⟩
  · split at h
    · cases h
    · split at h
      · cases h
      · split at h
        · cases h
        · split at h
          · cases h
          · exact absurd h (lexeme_ne_stop s _ last)

/-- A step that stops stands before the end of the text, at most with blanks in between. -/
theorem stop_of_step {s last : Scanner} (h : s.step = .ok (.stop last)) :
    (∀ c ∈ s.rest, isIndentChar c = true) ∧ (last = s ∨ last = s.pastBlanks) := by
  unfold step at h
  split at h
  · rw [lineStart_eq] at h
    cases hrest : s.pastBlanks.rest with
    | nil =>
      rw [hrest] at h
      cases h
      refine ⟨fun c hc => ?_, .inr rfl⟩
      rw [← s.blanks_append_rest, hrest, List.append_nil] at hc
      exact isIndentChar_of_mem_blanks hc
    | cons c tail =>
      rw [hrest] at h
      dsimp only at h
      split at h
      · injection h with h
        exact absurd h (blankLine_ne_stop _ last)
      · exact absurd h (openLine_ne_stop _ _ last)
  · obtain ⟨hrest, rfl⟩ := inLine_eq_stop h
    exact ⟨by simp [hrest], .inl rfl⟩

/-! ### Many steps -/

/-- The machine gets from one state to another and emits the tokens on its way. -/
inductive Scans : Scanner → List Token → Scanner → Prop
  | refl (s : Scanner) : Scans s [] s
  | move {s t u : Scanner} {tokens more : List Token} (hmove : Move s tokens t)
      (hscans : Scans t more u) : Scans s (tokens ++ more) u

theorem run_of_error {s : Scanner} {e : LexError} (h : s.step = .error e)
    (emitted : List Token) : s.run emitted = .error e := by
  rw [run]
  split <;> simp_all

theorem run_of_stop {s last : Scanner} (h : s.step = .ok (.stop last)) (emitted : List Token) :
    s.run emitted = .ok (emitted.reverse ++ last.finish emitted) := by
  rw [run]
  split <;> simp_all

theorem run_of_emit {s next : Scanner} {tokens : List Token}
    (h : s.step = .ok (.emit tokens next)) (emitted : List Token) :
    s.run emitted = next.run (tokens.reverse ++ emitted) := by
  rw [run]
  split <;> simp_all

/-- **A run that succeeds** scans the text up to a state that stops, and what follows is the
closing of the line and of the blocks that are open there. -/
theorem scans_of_run {s : Scanner} {emitted all : List Token} (h : s.run emitted = .ok all) :
    ∃ tokens t last, Scans s tokens t ∧ t.step = .ok (.stop last)
      ∧ all = emitted.reverse ++ tokens ++ last.finish (tokens.reverse ++ emitted) := by
  fun_induction run s emitted with
  | case1 s emitted e hstep => cases h
  | case2 s emitted last hstep =>
    cases h
    exact ⟨[], s, last, .refl s, hstep, by simp⟩
  | case3 s emitted tokens next hstep ih =>
    obtain ⟨more, t, last, hscans, hstop, hall⟩ := ih h
    refine ⟨tokens ++ more, t, last, .move (move_of_step hstep) hscans, hstop, ?_⟩
    rw [hall]
    simp

/-- A text that has tokens is scanned from the start to its end. -/
theorem scans_of_tokenize {source : String} {tokens : List Token}
    (h : tokenize source = .ok tokens) :
    ∃ scanned t last, Scans (start source.toList) scanned t ∧ t.step = .ok (.stop last)
      ∧ tokens = scanned ++ last.finish scanned.reverse := by
  obtain ⟨scanned, t, last, hscans, hstop, hall⟩ := scans_of_run h
  exact ⟨scanned, t, last, hscans, hstop, by simpa using hall⟩

/-- Where the dedents and the end marker that close a stream stand. -/
def endPosition (s : Scanner) : Position :=
  if s.position.column = 0 then s.position else s.position.nextLine

/-- What closes a stream: the end of a line that is still open, if there is one, a dedent for
each open block, and the end marker. -/
theorem finish_cases (s : Scanner) (emitted : List Token) :
    ∃ lineEnd,
      s.finish emitted
          = lineEnd ++ List.replicate s.indents.length (dedent s.endPosition)
            ++ [⟨.endMarker, "", s.endPosition⟩]
        ∧ ((lineEnd = []
            ∧ ∀ token ∈ emitted.head?, token.kind = .newline ∨ token.kind = .blankLine)
          ∨ lineEnd = [⟨.newline, "", s.position⟩]) := by
  unfold finish
  cases emitted with
  | nil => exact ⟨[], rfl, .inl ⟨rfl, by simp⟩⟩
  | cons token emitted =>
    by_cases hend : (token.kind == .newline || token.kind == .blankLine) = true
    · refine ⟨[], ?_, .inl ⟨rfl, by simpa using hend⟩⟩
      simp only [if_pos hend]
      rfl
    · refine ⟨_, ?_, .inr rfl⟩
      simp only [if_neg hend]
      rfl

end Scanner

end PyStyle
