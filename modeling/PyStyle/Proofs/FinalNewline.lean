import PyStyle.Proofs.TextBehind
import PyStyle.Proofs.TokenOrder

/-!
# The line end at the end of the text

A text may leave out the line feed at its end. With it the last line is ended by the loop, without
it by what closes the stream, or by the comment that stands alone in the line: either way the tokens
are the same, but for the text of the one that ends the line.

- `Text.LastLineFilled` — the text ends inside a line that is not blank;
- `Scanner.BeforeEnd` — on the way there, in front of or behind the last code;
- `Scanner.beforeEnd_of_move` — a step keeps to that, if it does not take the last comment;
- `Scanner.run_lineFeed` — a run with a line feed at the end;
- `tokenize_finalNewline` — **the final line feed is optional**.
-/

namespace PyStyle

/-! ### The last line -/

/-- Behind the last line break of the text stands a character that is no blank. -/
def Text.LastLineFilled (cs : List Char) : Prop :=
  ∃ front c back, cs = front ++ c :: back ∧ c ∉ [' ', '\t', '\x0c', '\r', '\n']
    ∧ '\r' ∉ back ∧ '\n' ∉ back

/-- Two streams that differ in one token: the end of a line, without a text in the first and with a
line feed in the second. All other line ends have a text. -/
def LineEndFilled (tokens tokens' : List Token) : Prop :=
  ∃ front lineEnd back, tokens = front ++ lineEnd :: back
    ∧ tokens' = front ++ { lineEnd with text := "\n" } :: back
    ∧ lineEnd.isLineEnd = true ∧ lineEnd.text = ""
    ∧ ∀ token ∈ front ++ back, token.isLineEnd = true → token.text ≠ ""

namespace Text.LastLineFilled

variable {cs front back : List Char}

theorem ne_nil (h : LastLineFilled cs) : cs ≠ [] := by
  obtain ⟨front, c, back, rfl, -⟩ := h
  simp

/-- The text does not end with a line break. -/
theorem getLast?_ne (h : LastLineFilled cs) {d : Char} (hd : d = '\r' ∨ d = '\n') :
    cs.getLast? ≠ some d := by
  obtain ⟨front, c, back, rfl, hc, hreturn, hfeed⟩ := h
  intro hlast
  rw [List.getLast?_append_cons] at hlast
  rcases List.mem_cons.mp (List.mem_of_getLast? hlast) with rfl | hback
  · rcases hd with rfl | rfl <;> simp at hc
  · rcases hd with rfl | rfl
    · exact hreturn hback
    · exact hfeed hback

/-- The last line reaches into the back of the text, or the back is a part of it. -/
theorem split (h : LastLineFilled (front ++ back)) :
    LastLineFilled back ∨ LastLineFilled front ∧ '\r' ∉ back ∧ '\n' ∉ back := by
  obtain ⟨before, c, after, hsplit, hc, hreturn, hfeed⟩ := h
  rcases List.append_eq_append_iff.mp hsplit with ⟨mid, rfl, hback⟩ | ⟨mid, hfront, hafter⟩
  · exact .inl ⟨mid, c, after, hback, hc, hreturn, hfeed⟩
  · cases mid with
    | nil => exact .inl ⟨[], c, after, hafter.symm, hc, hreturn, hfeed⟩
    | cons d mid =>
      rw [List.cons_append] at hafter
      obtain ⟨rfl, rfl⟩ := List.cons.inj hafter
      rw [List.mem_append, not_or] at hreturn hfeed
      exact .inr ⟨⟨before, c, mid, hfront, hc, hreturn.1, hfeed.1⟩, hreturn.2, hfeed.2⟩

theorem not_of_forall (h : ∀ c ∈ cs, c ∈ [' ', '\t', '\x0c', '\r', '\n']) :
    ¬ LastLineFilled cs := by
  rintro ⟨front, c, back, rfl, hc, -⟩
  exact hc (h c (by simp))

end Text.LastLineFilled

namespace Scanner

open Lexeme
open Text (LastLineFilled)

/-! ### The parts of the text that fill no line -/

theorem not_filled_blanks {blanks : List Char} (h : ∀ c ∈ blanks, isIndentChar c = true) :
    ¬ LastLineFilled blanks := by
  refine LastLineFilled.not_of_forall fun c hc => ?_
  rcases isIndentChar_iff.mp (h c hc) with rfl | rfl | rfl <;> decide

theorem not_filled_lineBreak (cs : List Char) :
    ¬ LastLineFilled (cs.take (Lexeme.lineBreak cs)) := by
  refine LastLineFilled.not_of_forall ?_
  unfold Lexeme.lineBreak
  split <;> simp

theorem not_filled_continuation (cs : List Char) :
    ¬ LastLineFilled (cs.take (continuation cs)) := by
  intro h
  have hlast := h.getLast?_ne (.inr rfl)
  have hne := h.ne_nil
  unfold continuation at hlast hne
  split at hlast <;> simp_all

theorem filled_pastBlanks {s : Scanner} (h : LastLineFilled s.rest) :
    LastLineFilled s.pastBlanks.rest := by
  rw [← s.blanks_append_rest] at h
  exact h.split.resolve_right fun hblanks =>
    not_filled_blanks (fun c hc => isIndentChar_of_mem_blanks hc) hblanks.1

/-! ### On the way to the end -/

/-- Inside the last line, behind a token: blanks, comments and code may follow. -/
structure InLastLine (s : Scanner) (emitted : List Token) : Prop where
  fresh : s.fresh = false
  column : s.position.column ≠ 0
  line : '\r' ∉ s.rest ∧ '\n' ∉ s.rest
  opened : emitted.head?.all Token.isLineEnd = false

/-- In front of the last character that fills the last line, or behind it. `emitted` holds the
tokens so far, the newest first. -/
structure BeforeEnd (s : Scanner) (emitted : List Token) : Prop where
  place : LastLineFilled s.rest ∨ InLastLine s emitted
  texts : ∀ token ∈ emitted, token.isLineEnd = true → token.text ≠ ""

/-- Before a last line with nothing but a comment. -/
structure BeforeLastComment (s : Scanner) : Prop where
  fresh : s.fresh = true
  rest : ∃ tail, s.pastBlanks.rest = '#' :: tail
  last : s.pastBlanks.takeComment.2.rest = []

/-- Behind a text that ends inside a line is not the first column. -/
theorem past_column_ne (p : Position) {text : List Char}
    (h : LastLineFilled text ∨ p.column ≠ 0 ∧ '\n' ∉ text) : (p.past text).column ≠ 0 := by
  rcases h with ⟨front, c, back, rfl, hc, -, hfeed⟩ | ⟨hcolumn, hfeed⟩
  · have hline : '\n' ∉ c :: back := by
      rw [List.mem_cons, not_or]
      exact ⟨fun h => hc (by simp [← h]), hfeed⟩
    rw [p.past_append, Position.past_column_of_line _ hline, List.length_cons]
    omega
  · rw [p.past_column_of_line hfeed]
    omega

variable {s t : Scanner} {tokens emitted : List Token}

/-- An indentation is read in front of the last line, or at its start. -/
theorem BeforeEnd.ahead (hs : BeforeEnd s emitted) (hfresh : s.fresh = true) :
    LastLineFilled s.rest := by
  refine hs.place.resolve_right fun hline => ?_
  rw [hline.fresh] at hfresh
  cases hfresh

/-- A token inside of a line leads to another place in front of or behind the last code. -/
theorem BeforeEnd.take (hs : BeforeEnd s emitted) (hfresh : s.fresh = false) {kind : TokenKind}
    (hkind : kind ≠ .newline ∧ kind ≠ .blankLine) (n : Nat) :
    LastLineFilled (s.rest.drop n)
      ∨ InLastLine (s.take kind n).2 ((s.take kind n).1 :: emitted) := by
  have hopened : ((s.take kind n).1 :: emitted).head?.all Token.isLineEnd = false := by
    simp [Token.isLineEnd, hkind]
  rcases hs.place with hfilled | hline
  · rw [← List.take_append_drop n s.rest] at hfilled
    rcases hfilled.split with hbehind | ⟨htext, hline⟩
    · exact .inl hbehind
    · exact .inr ⟨hfresh, past_column_ne _ (.inl htext), hline, hopened⟩
  · have hfeed : '\n' ∉ s.rest.take n := fun h => hline.line.2 (List.mem_of_mem_take h)
    exact .inr ⟨hfresh, past_column_ne _ (.inr ⟨hline.column, hfeed⟩),
      ⟨fun h => hline.line.1 (List.mem_of_mem_drop h),
        fun h => hline.line.2 (List.mem_of_mem_drop h)⟩, hopened⟩

theorem filled_behind {front : List Char} (hsplit : s.rest = front ++ t.rest)
    (hs : LastLineFilled s.rest) (hfront : ¬ LastLineFilled front) : LastLineFilled t.rest := by
  rw [hsplit] at hs
  exact hs.split.resolve_right fun h => hfront h.1

/-- From the start of a line the last one is still ahead, unless it is the comment of the line. -/
theorem filled_of_commentLine (hs : LastLineFilled s.rest) :
    s.pastBlanks.takeComment.2.rest = []
      ∨ LastLineFilled s.pastBlanks.takeComment.2.rest := by
  rcases drop_comment_cases s.pastBlanks.rest with hend | ⟨c, behind, hend, hbreak⟩
  · exact .inl hend
  · have hpast := filled_pastBlanks hs
    rw [← List.take_append_drop (Lexeme.comment s.pastBlanks.rest) s.pastBlanks.rest] at hpast
    refine .inr (hpast.split.resolve_right fun h => ?_)
    rw [hend] at h
    rcases eq_of_isLineBreak hbreak with rfl | rfl
    · exact h.2.1 List.mem_cons_self
    · exact h.2.2 List.mem_cons_self

/-- **A step stays in front of or behind the last code**, if it does not take the last comment. -/
theorem place_of_move (h : Move s tokens t) (hs : BeforeEnd s emitted) :
    (LastLineFilled t.rest
        ∨ InLastLine t (tokens.reverse ++ emitted) ∧ ∀ token ∈ tokens, token.isLineEnd = false)
      ∨ BeforeLastComment s := by
  cases h with
  | @blankLine c tail hfresh hrest hbreak =>
    refine .inl (.inl (filled_behind (List.take_append_drop _ s.pastBlanks.rest).symm
      (filled_pastBlanks (hs.ahead hfresh)) (not_filled_lineBreak _)))
  | @commentLine tail hfresh hrest =>
    rcases filled_of_commentLine (hs.ahead hfresh) with hend | hfilled
    · exact .inr ⟨hfresh, ⟨tail, hrest⟩, hend⟩
    · exact .inl (.inl (filled_behind (List.take_append_drop _ _).symm hfilled
        (not_filled_lineBreak _)))
  | openBlock hfresh => exact .inl (.inl (filled_pastBlanks (hs.ahead hfresh)))
  | closeBlocks hfresh => exact .inl (.inl (filled_pastBlanks (hs.ahead hfresh)))
  | @skip c tail hfresh hrest hblank =>
    left
    rcases hs.place with hfilled | hline
    · have hsplit : s.rest = [c] ++ tail := hrest
      exact .inl (filled_behind hsplit hfilled (not_filled_blanks (by simpa using hblank)))
    · have hlast := hline.line
      rw [hrest, List.mem_cons, List.mem_cons, not_or, not_or] at hlast
      have hcolumn : (s.position.past [c]).column ≠ 0 :=
        past_column_ne s.position (.inr ⟨hline.column, by simpa using hlast.2.1⟩)
      exact .inr ⟨⟨hfresh, hcolumn, ⟨hlast.1.2, hlast.2.2⟩, hline.opened⟩, by simp⟩
  | join hfresh hjoin =>
    left
    rcases hs.place with hfilled | hline
    · exact .inl (filled_behind (List.take_append_drop _ s.rest).symm hfilled
        (not_filled_continuation _))
    · exact absurd (List.mem_of_mem_take (lineFeed_mem_continuation hjoin)) hline.line.2
  | @lineBreak c tail hfresh hrest hbreak =>
    left
    rcases hs.place with hfilled | hline
    · exact .inl (filled_behind (List.take_append_drop _ s.rest).symm hfilled
        (not_filled_lineBreak _))
    · have hlast := hline.line
      rw [hrest] at hlast
      rcases eq_of_isLineBreak hbreak with rfl | rfl
      · exact absurd List.mem_cons_self hlast.1
      · exact absurd List.mem_cons_self hlast.2
  | comment hfresh =>
    have hkind : TokenKind.comment ≠ .newline ∧ TokenKind.comment ≠ .blankLine := by decide
    exact .inl ((hs.take hfresh hkind _).imp_right fun hline => ⟨hline, by simp [Token.isLineEnd]⟩)
  | @word c tail kind n hfresh _ _ _ hkind =>
    have hkind' : kind ≠ .newline ∧ kind ≠ .blankLine := by
      rcases hkind with rfl | rfl | rfl <;> decide
    exact .inl ((hs.take hfresh hkind' n).imp_right fun hline =>
      ⟨hline, by simp [Token.isLineEnd, hkind']⟩)
  | @operator c tail n hfresh _ _ _ =>
    have hkind : operatorKind (s.rest.take n) ≠ .newline
        ∧ operatorKind (s.rest.take n) ≠ .blankLine := by
      unfold operatorKind
      split <;> decide
    exact .inl ((hs.take hfresh hkind n).imp_right fun hline =>
      ⟨⟨hline.fresh, hline.column, hline.line, hline.opened⟩, by simp [Token.isLineEnd, hkind]⟩)

theorem beforeEnd_of_move (h : Move s tokens t) (hs : BeforeEnd s emitted) :
    BeforeEnd t (tokens.reverse ++ emitted) ∨ BeforeLastComment s := by
  refine (place_of_move h hs).imp_left fun hplace => ⟨hplace.imp_right And.left, ?_⟩
  intro token htoken hend htext
  rcases List.mem_append.mp htoken with hnew | hold
  · rw [List.mem_reverse] at hnew
    rcases hplace with hfilled | ⟨-, hopened⟩
    · -- A line end without a text stands only where the text is used up.
      have hkind : token.kind = .newline ∨ token.kind = .blankLine := by
        simpa [Token.isLineEnd] using hend
      cases shape_of_move h token hnew with
      | solid hsolid => simp [htext] at hsolid
      | indent hindent => simp [hindent] at hkind
      | dedent hdedent => simp [hdedent] at hkind
      | lastBreak _ _ hrest => exact hfilled.ne_nil hrest
    · rw [hopened token hnew] at hend
      cases hend
  · exact hs.texts token hold hend htext

/-! ### A step with a line feed at the end -/

/-- On the way the text does not end with a carriage return. -/
theorem BeforeEnd.getLast?_ne (hs : BeforeEnd s emitted) : s.rest.getLast? ≠ some '\r' := by
  rcases hs.place with hfilled | hline
  · exact hfilled.getLast?_ne (.inl rfl)
  · exact fun h => hline.line.1 (List.mem_of_getLast? h)

theorem lineBreak_lineFeed {cs : List Char} (h : LastLineFilled cs) :
    Lexeme.lineBreak (cs ++ ['\n']) = Lexeme.lineBreak cs := by
  refine lineBreak_append h.ne_nil ?_ _
  rintro rfl
  exact h.getLast?_ne (.inl rfl) rfl

theorem seam_lineFeed {cs : List Char} (hne : cs ≠ []) (hreturn : cs.getLast? ≠ some '\r')
    (hbackslash : cs ≠ ['\\']) : Seam cs ['\n'] := by
  refine ⟨lineOf_append_break cs rfl [], lineBreak_append hne ?_ _,
    continuation_append hne hbackslash ?_ _⟩
  · rintro rfl
    exact hreturn rfl
  · rintro rfl
    exact hreturn rfl

/-- **A step on the way** does not see the line feed at the end of the text. -/
theorem step_lineFeed (hs : BeforeEnd s emitted) (hlast : ¬ BeforeLastComment s)
    (h : s.step = .ok (.emit tokens t)) :
    (s.extend ['\n']).step = .ok (.emit tokens (t.extend ['\n'])) := by
  have hne := rest_ne_nil_of_move (move_of_step h)
  have hsame : (s.extend ['\n']).step = s.step.map (Step.extend ['\n']) := by
    unfold step at h ⊢
    rw [extend_fresh]
    split at h
    · next hfresh =>
      rw [if_pos hfresh, if_pos hfresh]
      have hfilled := hs.ahead hfresh
      have hpast := filled_pastBlanks hfilled
      refine lineStart_extend hpast.ne_nil (lineOf_append_break _ rfl []) (lineBreak_lineFeed hpast)
        fun tail hrest => ?_
      exact lineBreak_lineFeed ((filled_of_commentLine hfilled).resolve_left fun hend =>
        hlast ⟨hfresh, ⟨tail, hrest⟩, hend⟩)
    · next hfresh =>
      rw [if_neg hfresh, if_neg hfresh]
      have hbackslash : s.rest ≠ ['\\'] := by
        intro hrest
        rw [inLine_of_not_break hrest rfl, hrest] at h
        exact lexeme_backslash hrest h
      refine (inLine_extend hne (seam_lineFeed hne hs.getLast?_ne hbackslash)).resolve_left ?_
      rw [h]
      exact nofun
  rw [hsame, h]
  rfl

/-! ### The end of the text -/

/-- The ends of `n` blocks, and of the stream. -/
def closing (n : Nat) (p : Position) : List Token :=
  List.replicate n (dedent p) ++ [⟨.endMarker, "", p⟩]

theorem finish_of_ended (s : Scanner) (h : emitted.head?.all Token.isLineEnd = true) :
    s.finish emitted = closing s.indents.length s.endPosition := by
  rw [finish_eq, if_pos h]
  rfl

theorem finish_of_open (s : Scanner) (h : emitted.head?.all Token.isLineEnd = false) :
    s.finish emitted
      = ⟨.newline, "", s.position⟩ :: closing s.indents.length s.endPosition := by
  rw [finish_eq, if_neg (by simp [h])]
  rfl

theorem lineEndFilled_closing {front : List Token} {kind : TokenKind}
    (hkind : kind = .newline ∨ kind = .blankLine)
    (htexts : ∀ token ∈ front, token.isLineEnd = true → token.text ≠ "") (p q : Position)
    (n : Nat) :
    LineEndFilled (front ++ ⟨kind, "", p⟩ :: closing n q)
      (front ++ ⟨kind, "\n", p⟩ :: closing n q) := by
  refine ⟨front, ⟨kind, "", p⟩, closing n q, rfl, rfl, by simpa [Token.isLineEnd] using hkind, rfl,
    fun token htoken hend => ?_⟩
  rcases List.mem_append.mp htoken with hfront | hback
  · exact htexts token hfront hend
  · rcases List.mem_append.mp hback with hdedent | hlast
    · rw [List.eq_of_mem_replicate hdedent] at hend
      cases hend
    · rw [List.mem_singleton.mp hlast] at hend
      cases hend

/-- Where the text is used up, the machine stops. -/
theorem run_of_used (hrest : s.rest = []) (emitted : List Token) :
    s.run emitted = .ok (emitted.reverse ++ s.finish emitted) := by
  refine run_of_stop ?_ emitted
  obtain ⟨rest, position, depth, indents, fresh⟩ := s
  cases hrest
  cases fresh <;> rfl

theorem takeBreak_of_used (hrest : s.rest = []) (kind : TokenKind) :
    s.takeBreak kind = (⟨kind, "", s.position⟩, { s with fresh := s.depth == 0 }) := by
  obtain ⟨rest, position, depth, indents, fresh⟩ := s
  cases hrest
  rfl

theorem takeBreak_lastFeed (hrest : s.rest = ['\n']) (kind : TokenKind) :
    s.takeBreak kind = (⟨kind, "\n", s.position⟩,
      { s with rest := [], position := s.position.nextLine, fresh := s.depth == 0 }) := by
  rw [← takeBreak_lineFeed kind hrest]
  have htext : (s.takeBreak kind).1.text = "\n" := by
    rw [takeBreak_text, hrest]
    rfl
  rw [← htext]
  rfl

theorem endPosition_of_inside (h : s.position.column ≠ 0) :
    s.endPosition = s.position.nextLine := by
  rw [endPosition, if_neg h]

/-- **At the end of an open line** the line feed ends it; without one the line end that closes the
stream stands in its place. -/
theorem run_openLine (hline : InLastLine s emitted) (hrest : s.rest = []) (hdepth : s.depth = 0)
    (htexts : ∀ token ∈ emitted, token.isLineEnd = true → token.text ≠ "") :
    ∃ all', (s.extend ['\n']).run emitted = .ok all'
      ∧ LineEndFilled (emitted.reverse ++ s.finish emitted) all' := by
  have hrest' : (s.extend ['\n']).rest = ['\n'] := by rw [extend_rest, hrest, List.nil_append]
  have hstep : (s.extend ['\n']).step = .ok (.emit [⟨.newline, "\n", s.position⟩]
      { s with rest := [], position := s.position.nextLine, fresh := true }) := by
    rw [step, extend_fresh, hline.fresh, if_neg Bool.false_ne_true, inLine_of_break hrest' rfl,
      extend_depth, hdepth, if_pos rfl, takeBreak_lastFeed hrest', extend_depth, hdepth]
    rfl
  have hend : ({ s with rest := [], position := s.position.nextLine, fresh := true } :
      Scanner).endPosition = s.position.nextLine := rfl
  have hfilled := lineEndFilled_closing (.inl rfl)
    (fun token htoken => htexts token (List.mem_reverse.mp htoken)) s.position
    s.position.nextLine s.indents.length
  refine ⟨_, by rw [run_of_emit hstep, run_of_used rfl], ?_⟩
  rw [finish_of_open s hline.opened, finish_of_ended _ rfl, endPosition_of_inside hline.column,
    hend]
  simpa using hfilled

/-- The last comment without a line feed: the line ends where the text does. -/
theorem step_lastComment (h : BeforeLastComment s) :
    s.step = .ok (.emit
      [s.pastBlanks.takeComment.1, ⟨.blankLine, "", s.pastBlanks.takeComment.2.position⟩]
      { s.pastBlanks.takeComment.2 with fresh := true }) := by
  obtain ⟨tail, hrest⟩ := h.rest
  rw [step_of_blank h.fresh hrest rfl, blankLine_of_comment hrest, takeBreak_of_used h.last]

/-- The last comment with a line feed: the line ends at the same place, and the next one starts. -/
theorem step_lastComment_lineFeed (h : BeforeLastComment s) :
    (s.extend ['\n']).step = .ok (.emit
      [s.pastBlanks.takeComment.1, ⟨.blankLine, "\n", s.pastBlanks.takeComment.2.position⟩]
      { s.pastBlanks.takeComment.2 with
        rest := [], position := s.pastBlanks.takeComment.2.position.nextLine, fresh := true }) := by
  obtain ⟨tail, hsharp⟩ := h.rest
  have hne : s.pastBlanks.rest ≠ [] := by simp [hsharp]
  have hpast := (pastBlanks_extend hne ['\n']).2
  have hrest : (s.extend ['\n']).pastBlanks.rest = '#' :: (tail ++ ['\n']) := by
    rw [hpast, extend_rest, hsharp, List.cons_append]
  have htake : (s.extend ['\n']).pastBlanks.takeComment
      = (s.pastBlanks.takeComment.1, s.pastBlanks.takeComment.2.extend ['\n']) := by
    rw [hpast]
    exact takeComment_extend (lineOf_append_break _ rfl [])
  have hbreak : (s.pastBlanks.takeComment.2.extend ['\n']).rest = ['\n'] := by
    rw [extend_rest, h.last, List.nil_append]
  rw [step_of_blank (show (s.extend ['\n']).fresh = true from h.fresh) hrest rfl,
    blankLine_of_comment hrest, htake, takeBreak_lastFeed hbreak]
  rfl

/-- **At a last line with nothing but a comment** the line feed is the text of its end. -/
theorem run_lastComment (h : BeforeLastComment s) (hs : LastLineFilled s.rest)
    (htexts : ∀ token ∈ emitted, token.isLineEnd = true → token.text ≠ "") :
    ∃ all all', s.run emitted = .ok all ∧ (s.extend ['\n']).run emitted = .ok all'
      ∧ LineEndFilled all all' := by
  have hcolumn : s.pastBlanks.takeComment.2.position.column ≠ 0 := by
    have hpast := filled_pastBlanks hs
    rw [← List.take_append_drop (Lexeme.comment s.pastBlanks.rest) s.pastBlanks.rest] at hpast
    have hcomment := hpast.split.resolve_left fun hbehind => hbehind.ne_nil h.last
    exact past_column_ne s.pastBlanks.position (.inl hcomment.1)
  have htexts' : ∀ token ∈ emitted.reverse ++ [s.pastBlanks.takeComment.1],
      token.isLineEnd = true → token.text ≠ "" := by
    intro token htoken hend
    rcases List.mem_append.mp htoken with hold | hnew
    · exact htexts token (List.mem_reverse.mp hold) hend
    · rw [List.mem_singleton.mp hnew] at hend
      cases hend
  have hstep := step_lastComment h
  have hstep' := step_lastComment_lineFeed h
  have hused := h.last
  generalize s.pastBlanks.takeComment.2 = behind at hcolumn hstep hstep' hused
  have hfilled := lineEndFilled_closing (.inr rfl) htexts' behind.position
    behind.position.nextLine behind.indents.length
  have hend : ({ behind with fresh := true } : Scanner).endPosition = behind.position.nextLine :=
    endPosition_of_inside hcolumn
  have hend' : ({ behind with rest := [], position := behind.position.nextLine, fresh := true } :
      Scanner).endPosition = behind.position.nextLine := rfl
  have hused' : ({ behind with fresh := true } : Scanner).rest = [] := hused
  refine ⟨_, _, (run_of_emit hstep emitted).trans (run_of_used hused' _),
    (run_of_emit hstep' emitted).trans (run_of_used rfl _), ?_⟩
  rw [finish_of_ended _ rfl, finish_of_ended _ rfl, hend, hend']
  simpa using hfilled

/-! ### The run -/

/-- Where the machine stops, the last line is open and used up. -/
theorem BeforeEnd.stop {last : Scanner} (hs : BeforeEnd s emitted)
    (h : s.step = .ok (.stop last)) : InLastLine s emitted ∧ s.rest = [] ∧ last = s := by
  have hline : InLastLine s emitted :=
    hs.place.resolve_left fun hfilled => not_filled_blanks (stop_of_step h).1 hfilled
  rw [step, hline.fresh, if_neg Bool.false_ne_true] at h
  exact ⟨hline, inLine_eq_stop h⟩

/-- **A run with a line feed at the end** of the text. -/
theorem run_lineFeed {all : List Token} (h : s.run emitted = .ok all) (hs : BeforeEnd s emitted)
    (hfollows : Follows emitted.reverse s) (hdepth : bracketDepth all = 0) :
    ∃ all', (s.extend ['\n']).run emitted = .ok all' ∧ LineEndFilled all all' := by
  -- Two states differ from the ones before: the last comment, and the end of an open line.
  fun_induction run s emitted with
  | case1 s emitted e hstep => cases h
  | case2 s emitted last hstep =>
    obtain ⟨hline, hrest, rfl⟩ := hs.stop hstep
    cases h
    have hclosing : ∀ token ∈ last.finish emitted, token.kind ≠ .op := by
      intro token htoken
      rcases (kind_of_mem_finish last emitted token htoken).2 with hkind | hkind | hkind <;>
        simp [hkind]
    rw [bracketDepth_append, depthBehind_of_not_op hclosing, ← hfollows.depth] at hdepth
    exact run_openLine hline hrest hdepth hs.texts
  | case3 s emitted tokens t hstep ih =>
    by_cases hlast : BeforeLastComment s
    · obtain ⟨all', all'', hrun, hrun', hends⟩ :=
        run_lastComment hlast (hs.ahead hlast.fresh) hs.texts
      rw [run_of_emit hstep, h] at hrun
      cases hrun
      exact ⟨all'', hrun', hends⟩
    · have hmove := move_of_step hstep
      rw [run_of_emit (step_lineFeed hs hlast hstep)]
      refine ih h ((beforeEnd_of_move hmove hs).resolve_right hlast) ?_
      rw [List.reverse_append, List.reverse_reverse]
      exact hfollows.move hmove

end Scanner

/-- **The final line feed is optional.** Where a text ends inside a line that is not blank, with no
bracket open, the same tokens come with a line feed behind it: only the line end that has no text
without it gets one. -/
theorem tokenize_finalNewline {source : String} {tokens : List Token}
    (h : tokenize source = .ok tokens) (hlast : Text.LastLineFilled source.toList)
    (hdepth : bracketDepth tokens = 0) :
    ∃ tokens', tokenize (source ++ "\n") = .ok tokens' ∧ LineEndFilled tokens tokens' := by
  have hsource : Scanner.start (source ++ "\n").toList
      = (Scanner.start source.toList).extend ['\n'] := by
    rw [String.toList_append]
    rfl
  rw [tokenize, hsource]
  exact Scanner.run_lineFeed h ⟨.inl hlast, by simp⟩ (Scanner.follows_start _) hdepth

/-- A string over two lines and a comment in an open block, and a comment that stands alone in the
last line. -/
theorem finalNewline_lastComments :
    (∃ tokens', tokenize ("if a:\n  '''b\nc'''# d" ++ "\n") = .ok tokens'
      ∧ LineEndFilled
        [⟨.name, "if", ⟨1, 0⟩⟩, ⟨.name, "a", ⟨1, 3⟩⟩, ⟨.colon, ":", ⟨1, 4⟩⟩,
          ⟨.newline, "\n", ⟨1, 5⟩⟩, ⟨.indent, "  ", ⟨2, 0⟩⟩, ⟨.string, "'''b\nc'''", ⟨2, 2⟩⟩,
          ⟨.comment, "# d", ⟨3, 4⟩⟩, ⟨.newline, "", ⟨3, 7⟩⟩, ⟨.dedent, "", ⟨4, 0⟩⟩,
          ⟨.endMarker, "", ⟨4, 0⟩⟩]
        tokens')
    ∧ ∃ tokens', tokenize ("a\n\t# b" ++ "\n") = .ok tokens'
      ∧ LineEndFilled
        [⟨.name, "a", ⟨1, 0⟩⟩, ⟨.newline, "\n", ⟨1, 1⟩⟩, ⟨.comment, "# b", ⟨2, 1⟩⟩,
          ⟨.blankLine, "", ⟨2, 4⟩⟩, ⟨.endMarker, "", ⟨3, 0⟩⟩]
        tokens' := by
  constructor
  · refine tokenize_finalNewline (by decide +kernel) ?_ (by decide)
    exact ⟨"if a:\n  '''b\nc'''# ".toList, 'd', [], by decide, by decide, by decide, by decide⟩
  · refine tokenize_finalNewline (by decide +kernel) ?_ (by decide)
    exact ⟨"a\n\t# ".toList, 'b', [], by decide, by decide, by decide, by decide⟩

end PyStyle
