import PyStyle.Proofs.ScannerRun

/-!
# Token streams spell their source

Nothing of a text is lost between it and its tokens but blanks and joined lines.

- `Gap` — text that may stand between two tokens: blanks and line continuations;
- `Spells` — the texts of the tokens, in order, with gaps around them, are the text;
- `Scanner.spells_of_move`, `Scanner.spells_of_scans` — what a step, and what a run, takes
  from the text is spelled by what it emits;
- `tokenize_lossless` — **the tokens of a text spell it**, and a token without text closes a
  block, the stream, or a last line.
-/

namespace PyStyle

/-- Text between two tokens: spaces, tabs, form feeds, and backslashes that join the next
line to theirs. -/
inductive Gap : List Char → Prop
  | nil : Gap []
  | blank {c : Char} {gap : List Char} (hblank : c = ' ' ∨ c = '\t' ∨ c = '\x0c')
      (hgap : Gap gap) : Gap (c :: gap)
  | joinLf {gap : List Char} (hgap : Gap gap) : Gap ('\\' :: '\n' :: gap)
  | joinCrLf {gap : List Char} (hgap : Gap gap) : Gap ('\\' :: '\r' :: '\n' :: gap)

/-- The text is made of the texts of the tokens, each once and in their order, with nothing
but gaps before, between and behind them. -/
inductive Spells : List Token → List Char → Prop
  | nil {gap : List Char} (hgap : Gap gap) : Spells [] gap
  | cons {token : Token} {tokens : List Token} {gap rest : List Char} (hgap : Gap gap)
      (hrest : Spells tokens rest) :
      Spells (token :: tokens) (gap ++ (token.text.toList ++ rest))

/-! ### Gaps -/

theorem Gap.append {gap gap' : List Char} (h : Gap gap) (h' : Gap gap') : Gap (gap ++ gap') := by
  induction h with
  | nil => exact h'
  | blank hblank _ ih => exact .blank hblank ih
  | joinLf _ ih => exact .joinLf ih
  | joinCrLf _ ih => exact .joinCrLf ih

theorem Scanner.isIndentChar_iff {c : Char} :
    isIndentChar c = true ↔ c = ' ' ∨ c = '\t' ∨ c = '\x0c' := by
  simp [isIndentChar, or_assoc]

/-- Indentation is a gap. -/
theorem gap_of_blanks {blanks : List Char}
    (h : ∀ c ∈ blanks, Scanner.isIndentChar c = true) : Gap blanks := by
  induction blanks with
  | nil => exact .nil
  | cons c blanks ih =>
    have hc := Scanner.isIndentChar_iff.mp (h c List.mem_cons_self)
    exact .blank hc (ih fun d hd => h d (List.mem_cons_of_mem c hd))

/-- What a continuation takes is a gap. -/
theorem gap_of_continuation (cs : List Char) : Gap (cs.take (Scanner.continuation cs)) := by
  unfold Scanner.continuation
  split
  · exact .joinLf .nil
  · exact .joinCrLf .nil
  · exact .nil

/-! ### Spellings -/

theorem Spells.gap_append {tokens : List Token} {gap text : List Char} (hgap : Gap gap)
    (h : Spells tokens text) : Spells tokens (gap ++ text) := by
  cases h with
  | nil hrest => exact .nil (hgap.append hrest)
  | cons hrest htail =>
    rw [← List.append_assoc]
    exact .cons (hgap.append hrest) htail

theorem Spells.append {tokens tokens' : List Token} {text text' : List Char}
    (h : Spells tokens text) (h' : Spells tokens' text') :
    Spells (tokens ++ tokens') (text ++ text') := by
  induction h with
  | nil hgap => exact h'.gap_append hgap
  | cons hgap _ ih =>
    rw [List.append_assoc, List.append_assoc]
    exact .cons hgap ih

/-- A token spells its own text. -/
theorem Spells.singleton (token : Token) : Spells [token] token.text.toList := by
  have h : Spells [token] ([] ++ (token.text.toList ++ [])) := .cons .nil (.nil .nil)
  simpa using h

/-- Tokens without text spell the empty text. -/
theorem spells_nil_of_silent {tokens : List Token} (h : ∀ token ∈ tokens, token.text = "") :
    Spells tokens [] := by
  induction tokens with
  | nil => exact .nil .nil
  | cons token tokens ih =>
    have htoken : token.text = "" := h token List.mem_cons_self
    have hrest := ih fun other hother => h other (List.mem_cons_of_mem token hother)
    have hcons : Spells (token :: tokens) ([] ++ (token.text.toList ++ [])) := .cons .nil hrest
    simpa [htoken] using hcons

/-! ### Where tokens stand -/

/-- The text starts with a character that stands in no gap. -/
def Solid (text : List Char) : Prop :=
  ∃ c tail, text = c :: tail ∧ Scanner.isIndentChar c = false ∧ c ≠ '\\'

theorem Solid.append {text : List Char} (h : Solid text) (rest : List Char) :
    Solid (text ++ rest) := by
  obtain ⟨c, tail, rfl, hblank, hjoin⟩ := h
  exact ⟨c, tail ++ rest, rfl, hblank, hjoin⟩

theorem eq_nil_of_gap {gap rest text : List Char} (h : Gap gap) (htext : Solid text)
    (heq : gap ++ rest = text) : gap = [] := by
  obtain ⟨c, tail, rfl, hblank, hjoin⟩ := htext
  cases h with
  | nil => rfl
  | blank hc _ =>
    obtain ⟨rfl, _⟩ := List.cons.inj heq
    rw [Scanner.isIndentChar_iff.mpr hc] at hblank
    cases hblank
  | joinLf _ => exact absurd (List.cons.inj heq).1.symm hjoin
  | joinCrLf _ => exact absurd (List.cons.inj heq).1.symm hjoin

/-- A gap in front of other text ends where the other text starts. -/
theorem gap_append_cancel {gap gap' text text' : List Char} (hgap : Gap gap) (hgap' : Gap gap')
    (htext : Solid text) (htext' : Solid text') (h : gap ++ text = gap' ++ text') :
    text = text' := by
  -- Both gaps are read off the same text, so they take the same constructor at each step.
  induction hgap generalizing gap' with
  | nil =>
    obtain rfl := eq_nil_of_gap hgap' htext h.symm
    exact h
  | @blank c gap hc hgap ih =>
    cases hgap' with
    | nil => exact absurd (eq_nil_of_gap (.blank hc hgap) htext' h) (List.cons_ne_nil _ _)
    | blank _ hgap' => exact ih hgap' (List.cons.inj h).2
    | joinLf _ => simp [(List.cons.inj h).1] at hc
    | joinCrLf _ => simp [(List.cons.inj h).1] at hc
  | @joinLf gap hgap ih =>
    cases hgap' with
    | nil => exact absurd (eq_nil_of_gap (.joinLf hgap) htext' h) (List.cons_ne_nil _ _)
    | blank hc _ => simp [← (List.cons.inj h).1] at hc
    | joinLf hgap' => exact ih hgap' (by simpa using h)
    | joinCrLf _ => simp at h
  | @joinCrLf gap hgap ih =>
    cases hgap' with
    | nil => exact absurd (eq_nil_of_gap (.joinCrLf hgap) htext' h) (List.cons_ne_nil _ _)
    | blank hc _ => simp [← (List.cons.inj h).1] at hc
    | joinLf _ => simp at h
    | joinCrLf hgap' => exact ih hgap' (by simpa using h)

/-- **The tokens say where in a text they stand**: what is left behind them is the same for
all spellings of them. -/
theorem Spells.cancel {tokens : List Token} {gap gap' text text' rest rest' : List Char}
    (htokens : ∀ token ∈ tokens, Solid token.text.toList ∨ Gap token.text.toList)
    (hgap : Gap gap) (hgap' : Gap gap') (h : Spells tokens text) (h' : Spells tokens text')
    (hrest : Solid rest) (hrest' : Solid rest')
    (heq : gap ++ (text ++ rest) = gap' ++ (text' ++ rest')) : rest = rest' := by
  induction tokens generalizing gap gap' text text' with
  | nil =>
    cases h with | nil htext =>
    cases h' with | nil htext' =>
    rw [← List.append_assoc, ← List.append_assoc] at heq
    exact gap_append_cancel (hgap.append htext) (hgap'.append htext') hrest hrest' heq
  | cons token tokens ih =>
    obtain ⟨htoken, htokens⟩ := List.forall_mem_cons.mp htokens
    cases h with | @cons _ _ front more hfront hmore =>
    cases h' with | @cons _ _ front' more' hfront' hmore' =>
    rcases htoken with hsolid | hblank
    · have htail : token.text.toList ++ (more ++ rest) = token.text.toList ++ (more' ++ rest') := by
        refine gap_append_cancel (hgap.append hfront) (hgap'.append hfront') (hsolid.append _)
          (hsolid.append _) ?_
        simpa using heq
      exact ih htokens .nil .nil hmore hmore' (List.append_cancel_left htail)
    · -- Such a token may as well be part of the gap before it.
      refine ih htokens ((hgap.append hfront).append hblank)
        ((hgap'.append hfront').append hblank) hmore hmore' ?_
      simpa using heq

namespace Scanner

/-! ### What a step takes -/

theorem spells_take (s : Scanner) (kind : TokenKind) (n : Nat) :
    Spells [(s.take kind n).1] (s.rest.take n) := by
  simpa using Spells.singleton (s.take kind n).1

theorem spells_takeBreak (s : Scanner) (kind : TokenKind) :
    Spells [(s.takeBreak kind).1] (s.rest.take (Lexeme.lineBreak s.rest)) := by
  simpa using Spells.singleton (s.takeBreak kind).1

theorem gap_blanks (s : Scanner) : Gap s.blanks :=
  gap_of_blanks fun _ hc => isIndentChar_of_mem_blanks hc

/-- Dedents have no text. -/
theorem text_of_mem_dedents {n : Nat} {position : Position} :
    ∀ token ∈ List.replicate n (dedent position), token.text = "" := by
  intro token htoken
  rw [List.eq_of_mem_replicate htoken]
  rfl

/-- **A step emits what it takes from the text**, up to gaps. -/
theorem spells_of_move {s t : Scanner} {tokens : List Token} (h : Move s tokens t) :
    ∃ text, s.rest = text ++ t.rest ∧ Spells tokens text := by
  cases h with
  | blankLine =>
    refine ⟨s.blanks ++ s.pastBlanks.rest.take (Lexeme.lineBreak s.pastBlanks.rest), ?_,
      (s.pastBlanks.spells_takeBreak .blankLine).gap_append s.gap_blanks⟩
    simp [blanks_append_rest]
  | commentLine =>
    have hcomment := s.pastBlanks.spells_take .comment (Lexeme.comment s.pastBlanks.rest)
    have hbreak := s.pastBlanks.takeComment.2.spells_takeBreak .blankLine
    refine ⟨_, ?_, (hcomment.append hbreak).gap_append s.gap_blanks⟩
    rw [takeBreak_rest, List.append_assoc, List.append_assoc, List.take_append_drop, take_rest,
      List.take_append_drop, blanks_append_rest]
  | openBlock =>
    refine ⟨s.blanks, s.blanks_append_rest.symm, ?_⟩
    simpa using Spells.singleton ⟨.indent, String.ofList s.blanks, _⟩
  | closeBlocks =>
    refine ⟨s.blanks, s.blanks_append_rest.symm, ?_⟩
    simpa using (spells_nil_of_silent text_of_mem_dedents).gap_append s.gap_blanks
  | @skip c tail hfresh hrest hblank =>
    exact ⟨[c], hrest, .nil (.blank (isIndentChar_iff.mp hblank) .nil)⟩
  | join =>
    exact ⟨_, (List.take_append_drop _ s.rest).symm, .nil (gap_of_continuation s.rest)⟩
  | lineBreak =>
    exact ⟨_, (List.take_append_drop _ s.rest).symm, s.spells_takeBreak _⟩
  | comment =>
    exact ⟨_, (List.take_append_drop _ s.rest).symm, s.spells_take .comment _⟩
  | @word c tail kind n =>
    exact ⟨_, (List.take_append_drop n s.rest).symm, s.spells_take kind n⟩
  | @operator c tail n =>
    exact ⟨_, (List.take_append_drop n s.rest).symm, s.spells_take _ n⟩

/-- **A run emits what it takes from the text**, up to gaps. -/
theorem spells_of_scans {s t : Scanner} {tokens : List Token} (h : Scans s tokens t) :
    ∃ text, s.rest = text ++ t.rest ∧ Spells tokens text := by
  induction h with
  | refl s => exact ⟨[], rfl, .nil .nil⟩
  | move hmove _ ih =>
    obtain ⟨text, hrest, htext⟩ := spells_of_move hmove
    obtain ⟨more, hmore, hspells⟩ := ih
    exact ⟨text ++ more, by rw [hrest, hmore, List.append_assoc], htext.append hspells⟩

/-! ### Tokens without text -/

/-- A step takes text from the front. -/
theorem rest_ne_nil_of_move {s t : Scanner} {tokens : List Token} (h : Move s tokens t) :
    s.rest ≠ [] := by
  have hpast {c : Char} {tail : List Char} (hrest : s.pastBlanks.rest = c :: tail) :
      s.rest ≠ [] := by
    rw [← s.blanks_append_rest, hrest]
    exact List.append_ne_nil_of_right_ne_nil _ (List.cons_ne_nil c tail)
  cases h with
  | blankLine _ hrest _ => exact hpast hrest
  | commentLine _ hrest => exact hpast hrest
  | openBlock _ hrest _ _ => exact hpast hrest
  | closeBlocks _ hrest _ _ => exact hpast hrest
  | join _ hjoin => exact continuation_ne_nil hjoin
  | skip _ hrest _ => simp [hrest]
  | lineBreak _ hrest _ => simp [hrest]
  | comment _ hrest => simp [hrest]
  | word _ hrest _ _ _ => simp [hrest]
  | operator _ hrest _ _ => simp [hrest]

/-- Behind the end of the text nothing is emitted any more. -/
theorem eq_nil_of_scans {s t : Scanner} {tokens : List Token} (h : Scans s tokens t)
    (hrest : s.rest = []) : tokens = [] := by
  cases h with
  | refl => rfl
  | move hmove _ => exact absurd hrest (rest_ne_nil_of_move hmove)

/-- What is left behind a comment starts with a line break, if there is anything. -/
theorem drop_comment_cases (cs : List Char) :
    cs.drop (Lexeme.comment cs) = []
      ∨ ∃ c tail, cs.drop (Lexeme.comment cs) = c :: tail ∧ Lexeme.isLineBreak c = true := by
  have hdrop : cs.drop (Lexeme.comment cs) = cs.dropWhile fun c => !Lexeme.isLineBreak c := by
    have hsplit := cs.takeWhile_append_dropWhile (p := fun c => !Lexeme.isLineBreak c)
    calc cs.drop (Lexeme.comment cs)
        = (cs.takeWhile _ ++ cs.dropWhile _).drop (Lexeme.comment cs) := by rw [hsplit]
      _ = cs.dropWhile _ := List.drop_left
  rw [hdrop]
  cases htail : cs.dropWhile fun c => !Lexeme.isLineBreak c with
  | nil => exact .inl rfl
  | cons c tail =>
    have hstop := List.head?_dropWhile_not (fun c => !Lexeme.isLineBreak c) cs
    rw [htail] at hstop
    exact .inr ⟨c, tail, rfl, by simpa using hstop⟩

/-- What a token that a step emits on its way to `t` looks like: its text starts with a
character that stands in no gap, it is indentation, or it is empty. -/
inductive Shape (t : Scanner) (token : Token) : Prop
  | solid {c : Char} {tail : List Char} (htext : token.text.toList = c :: tail)
      (hblank : isIndentChar c = false) (hjoin : c ≠ '\\')
      (hkind : token.kind ∉ [.indent, .dedent, .endMarker])
  | indent (hkind : token.kind = .indent) (htext : token.text ≠ "")
      (hblank : ∀ c ∈ token.text.toList, isIndentChar c = true)
  | dedent (hkind : token.kind = .dedent) (htext : token.text = "")
  | lastBreak (hkind : token.kind = .blankLine) (htext : token.text = "") (hrest : t.rest = [])

theorem shape_take {s t : Scanner} {kind : TokenKind} {n : Nat} {c : Char} {tail : List Char}
    (hrest : s.rest = c :: tail) (hn : 0 < n) (hblank : isIndentChar c = false)
    (hjoin : c ≠ '\\') (hkind : kind ∉ [.indent, .dedent, .endMarker]) :
    Shape t (s.take kind n).1 := by
  have htext : (s.take kind n).1.text.toList = c :: tail.take (n - 1) := by
    rw [take_text, String.toList_ofList, hrest, List.take_cons hn]
  exact .solid htext hblank hjoin hkind

theorem not_gap_of_isLineBreak {c : Char} (h : Lexeme.isLineBreak c = true) :
    isIndentChar c = false ∧ c ≠ '\\' := by
  have hc : c = '\r' ∨ c = '\n' := by simpa [Lexeme.isLineBreak] using h
  rcases hc with rfl | rfl <;> decide

theorem shape_takeBreak {s t : Scanner} {kind : TokenKind} {c : Char} {tail : List Char}
    (hrest : s.rest = c :: tail) (hbreak : Lexeme.isLineBreak c = true)
    (hkind : kind ∉ [.indent, .dedent, .endMarker]) : Shape t (s.takeBreak kind).1 := by
  obtain ⟨hblank, hjoin⟩ := not_gap_of_isLineBreak hbreak
  have hn : 0 < Lexeme.lineBreak s.rest := by
    rw [hrest]
    exact lineBreak_pos tail hbreak
  have htext : (s.takeBreak kind).1.text.toList
      = c :: tail.take (Lexeme.lineBreak s.rest - 1) := by
    rw [takeBreak_text, String.toList_ofList]
    generalize Lexeme.lineBreak s.rest = n at hn
    rw [hrest, List.take_cons hn]
  exact .solid htext hblank hjoin hkind

theorem operatorKind_not_layout (op : List Char) :
    operatorKind op ∉ [.indent, .dedent, .endMarker] := by
  unfold operatorKind
  split <;> decide

/-- **Every token that a step emits has one of the four shapes.** -/
theorem shape_of_move {s t : Scanner} {tokens : List Token} (h : Move s tokens t) :
    ∀ token ∈ tokens, Shape t token := by
  cases h with
  | blankLine _ hrest hbreak =>
    rw [List.forall_mem_singleton]
    exact shape_takeBreak hrest hbreak (by decide)
  | @commentLine tail _ hrest =>
    rw [List.forall_mem_cons, List.forall_mem_singleton]
    constructor
    · refine shape_take hrest ?_ (by decide) (by decide) (by decide)
      rw [hrest]
      exact comment_pos tail
    · -- A comment ends with its line, or with the text.
      rcases drop_comment_cases s.pastBlanks.rest with hend | ⟨c, tail', hend, hbreak⟩
      · exact .lastBreak rfl (by simp [hend]) (by simp [hend])
      · exact shape_takeBreak hend hbreak (by decide)
  | openBlock _ _ _ hwidth =>
    rw [List.forall_mem_singleton]
    refine .indent rfl ?_ (by simpa using fun c => isIndentChar_of_mem_blanks)
    intro hempty
    have hblanks : s.blanks = [] := by simpa using hempty
    rw [hblanks] at hwidth
    exact Nat.not_lt_zero _ hwidth
  | closeBlocks =>
    intro token htoken
    exact .dedent (List.eq_of_mem_replicate htoken ▸ rfl) (text_of_mem_dedents token htoken)
  | skip => simp
  | join => simp
  | lineBreak _ hrest hbreak =>
    rw [List.forall_mem_singleton]
    exact shape_takeBreak hrest hbreak (by split <;> decide)
  | @comment tail _ hrest =>
    rw [List.forall_mem_singleton]
    refine shape_take hrest ?_ (by decide) (by decide) (by decide)
    rw [hrest]
    exact comment_pos tail
  | word _ hrest hc hn hkind =>
    rw [List.forall_mem_singleton]
    refine shape_take hrest hn hc.not_blank hc.not_backslash ?_
    rcases hkind with rfl | rfl | rfl <;> decide
  | operator _ hrest hc hn =>
    rw [List.forall_mem_singleton]
    exact shape_take hrest hn hc.not_blank hc.not_backslash (operatorKind_not_layout _)

/-- Only the last token of a step may end a line. -/
theorem break_last_of_move {s t : Scanner} {tokens : List Token} (h : Move s tokens t) :
    tokens.Pairwise fun token _ => ¬(token.kind = .newline ∨ token.kind = .blankLine) := by
  cases h with
  | commentLine => simp
  | closeBlocks =>
    rw [List.pairwise_replicate]
    exact .inr (by simp [dedent])
  | skip => exact .nil
  | join => exact .nil
  | _ => exact List.pairwise_singleton _ _

/-- The shapes over a run. -/
theorem text_of_scans {s t : Scanner} {tokens : List Token} (h : Scans s tokens t) :
    ∀ token ∈ tokens, token.kind ≠ .endMarker ∧ (token.kind = .dedent → token.text = "")
      ∧ (token.text = "" → token.kind = .dedent ∨ token.kind = .blankLine) := by
  induction h with
  | refl s => simp
  | move hmove _ ih =>
    intro token htoken
    rcases List.mem_append.mp htoken with htoken | htoken
    · cases shape_of_move hmove token htoken with
      | solid htext _ _ hkind =>
        have hempty : token.text ≠ "" := by
          rintro hempty
          simp [hempty] at htext
        simp only [List.mem_cons, List.not_mem_nil, or_false, not_or] at hkind
        exact ⟨hkind.2.2, fun hdedent => absurd hdedent hkind.2.1, fun h => absurd h hempty⟩
      | indent hkind htext _ => simp [hkind, htext]
      | dedent hkind htext => simp [hkind, htext]
      | lastBreak hkind htext _ => simp [hkind]
    · exact ih token htoken

/-- A line break without text is the last token of a run. -/
theorem silent_break_of_scans {s t : Scanner} {tokens : List Token} (h : Scans s tokens t) :
    tokens.Pairwise fun token later =>
      token.text = "" → token.kind = .newline ∨ token.kind = .blankLine → later.text = "" := by
  induction h with
  | refl s => exact .nil
  | move hmove hscans ih =>
    refine List.pairwise_append.mpr ⟨?_, ih, ?_⟩
    -- In one step a line break comes last; behind a step that emits one without text, the
    -- machine has no text left to make tokens of.
    · exact (break_last_of_move hmove).imp fun hlast _ hkind => absurd hkind hlast
    · intro token htoken later hlater htext hkind
      cases shape_of_move hmove token htoken with
      | solid hsolid _ _ _ => simp [htext] at hsolid
      | indent _ hne _ => exact absurd htext hne
      | dedent hdedent _ => simp [hdedent] at hkind
      | lastBreak _ _ hrest =>
        rw [eq_nil_of_scans hscans hrest] at hlater
        exact absurd hlater List.not_mem_nil

/-- What closes a stream: at most one line break, dedents, and the end marker. -/
theorem kind_of_mem_finish (s : Scanner) (emitted : List Token) :
    ∀ token ∈ s.finish emitted, token.text = ""
      ∧ (token.kind = .newline ∨ token.kind = .dedent ∨ token.kind = .endMarker) := by
  obtain ⟨lineEnd, hfinish, hlineEnd⟩ := finish_cases s emitted
  intro token htoken
  rw [hfinish, List.mem_append, List.mem_append, List.mem_singleton] at htoken
  rcases htoken with (htoken | htoken) | rfl
  · rcases hlineEnd with ⟨rfl, _⟩ | rfl
    · exact absurd htoken List.not_mem_nil
    · rw [List.mem_singleton.mp htoken]
      exact ⟨rfl, .inl rfl⟩
  · rw [List.eq_of_mem_replicate htoken]
    exact ⟨rfl, .inr (.inl rfl)⟩
  · exact ⟨rfl, .inr (.inr rfl)⟩

/-- Every token of a run starts with a character that stands in no gap, or is a gap itself:
indentation, or nothing. -/
theorem solid_or_gap_of_scans {s t : Scanner} {tokens : List Token} (h : Scans s tokens t) :
    ∀ token ∈ tokens, Solid token.text.toList
      ∨ Gap token.text.toList ∧ (token.kind = .indent ∨ token.text = "") := by
  induction h with
  | refl s => simp
  | move hmove _ ih =>
    intro token htoken
    rcases List.mem_append.mp htoken with htoken | htoken
    · cases shape_of_move hmove token htoken with
      | solid htext hblank hjoin _ => exact .inl ⟨_, _, htext, hblank, hjoin⟩
      | indent hkind _ hblank => exact .inr ⟨gap_of_blanks hblank, .inl hkind⟩
      | dedent _ htext => exact .inr ⟨by simpa [htext] using Gap.nil, .inr htext⟩
      | lastBreak _ htext _ => exact .inr ⟨by simpa [htext] using Gap.nil, .inr htext⟩
    · exact ih token htoken

end Scanner

/-- A stream of tokens from which its source can be read back. -/
structure Lossless (tokens : List Token) (source : List Char) : Prop where
  /-- The texts of the tokens are disjoint slices of the source, in order, and between them
  stand only blanks and continuations. -/
  spells : Spells tokens source
  /-- Dedents and end markers stand for no text. -/
  close_silent : ∀ token ∈ tokens,
    token.kind = .dedent ∨ token.kind = .endMarker → token.text = ""
  /-- Besides them only line breaks may stand for no text. -/
  kind_of_silent : ∀ token ∈ tokens, token.text = "" →
    token.kind = .dedent ∨ token.kind = .endMarker
      ∨ token.kind = .newline ∨ token.kind = .blankLine
  /-- A line break that stands for no text is at the end of the input. -/
  silent_break_last : tokens.Pairwise fun token later =>
    token.text = "" → token.kind = .newline ∨ token.kind = .blankLine → later.text = ""

/-- **Tokenizing is lossless.** -/
theorem tokenize_lossless {source : String} {tokens : List Token}
    (h : tokenize source = .ok tokens) : Lossless tokens source.toList := by
  obtain ⟨scanned, t, last, hscans, hstop, rfl⟩ := Scanner.scans_of_tokenize h
  obtain ⟨text, hsource, hspells⟩ := Scanner.spells_of_scans hscans
  have htext := Scanner.text_of_scans hscans
  have hfinish := last.kind_of_mem_finish scanned.reverse
  have hclosed : Spells (last.finish scanned.reverse) t.rest := by
    have hgap := gap_of_blanks (Scanner.stop_of_step hstop).1
    simpa using (spells_nil_of_silent fun token htoken => (hfinish token htoken).1).gap_append hgap
  constructor
  case spells =>
    rw [show source.toList = text ++ t.rest from hsource]
    exact hspells.append hclosed
  case close_silent =>
    intro token htoken hkind
    rcases List.mem_append.mp htoken with htoken | htoken
    · rcases hkind with hkind | hkind
      · exact (htext token htoken).2.1 hkind
      · exact absurd hkind (htext token htoken).1
    · exact (hfinish token htoken).1
  case kind_of_silent =>
    intro token htoken hempty
    rcases List.mem_append.mp htoken with htoken | htoken
    · rcases (htext token htoken).2.2 hempty with hkind | hkind <;> simp [hkind]
    · rcases (hfinish token htoken).2 with hkind | hkind | hkind <;> simp [hkind]
  case silent_break_last =>
    refine List.pairwise_append.mpr ⟨Scanner.silent_break_of_scans hscans, ?_, ?_⟩
    · exact List.pairwise_of_forall_mem_list fun _ _ later hlater _ _ => (hfinish later hlater).1
    · exact fun _ _ later hlater _ _ => (hfinish later hlater).1

/-- A block whose one line is joined from two and ends with the text. -/
theorem lossless_joinedLine :
    Lossless
      [⟨.name, "if", ⟨1, 0⟩⟩, ⟨.name, "a", ⟨1, 3⟩⟩, ⟨.colon, ":", ⟨1, 4⟩⟩,
        ⟨.newline, "\n", ⟨1, 5⟩⟩, ⟨.indent, "\t", ⟨2, 0⟩⟩, ⟨.name, "b", ⟨2, 1⟩⟩,
        ⟨.op, "=", ⟨3, 1⟩⟩, ⟨.number, "1", ⟨3, 3⟩⟩, ⟨.comment, "# c", ⟨3, 5⟩⟩,
        ⟨.newline, "", ⟨3, 8⟩⟩, ⟨.dedent, "", ⟨4, 0⟩⟩, ⟨.endMarker, "", ⟨4, 0⟩⟩]
      "if a:\n\tb \\\n = 1 # c".toList :=
  tokenize_lossless (by decide +kernel)

end PyStyle
