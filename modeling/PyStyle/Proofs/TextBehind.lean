import Mathlib.Data.List.Induction
import PyStyle.Proofs.StringLiterals

/-!
# A step and the text behind it

No lexeme but a string looks past the end of its line, and a string that ends does not look past its
end. So a step in front of a line end does the same whatever text comes behind the line.

- `Lexeme.stringBody_append` — a string that ends goes on to do so with more text behind it;
- `Seam` — the rules that look for line ends see no further than a place of the text;
- `Scanner.extend` — the machine with more text behind the one it has;
- `Scanner.lineStart_extend`, `Scanner.inLine_extend` — one step with more text behind it;
- `Scanner.step_extend`, `Scanner.step_of_extend` — in front of a line feed, in both directions;
- `Scanner.reaches_of_extend` — a run up to the start of a line.
-/

namespace PyStyle

namespace Lexeme

/-! ### Lines with more behind them -/

/-- Behind a line break more text makes no difference to the line. -/
theorem lineOf_append_of_break {cs : List Char} (h : ∃ c ∈ cs, isLineBreak c = true)
    (back : List Char) : lineOf (cs ++ back) = lineOf cs := by
  obtain ⟨c, hc, hbreak⟩ := h
  induction cs with
  | nil => simp at hc
  | cons d cs ih =>
    cases hd : isLineBreak d with
    | true => rw [List.cons_append, lineOf_of_break _ hd, lineOf_of_break _ hd]
    | false =>
      have hmem : c ∈ cs := by
        rcases List.mem_cons.mp hc with rfl | hmem
        · simp [hbreak] at hd
        · exact hmem
      rw [List.cons_append, lineOf_cons _ hd, lineOf_cons _ hd, ih hmem]

/-- Neither does text that starts with a line break. -/
theorem lineOf_append_break (cs : List Char) {c : Char} (hc : isLineBreak c = true)
    (back : List Char) : lineOf (cs ++ c :: back) = lineOf cs := by
  induction cs with
  | nil => exact lineOf_of_break back hc
  | cons d cs ih =>
    cases hd : isLineBreak d with
    | true => rw [List.cons_append, lineOf_of_break _ hd, lineOf_of_break _ hd]
    | false => rw [List.cons_append, lineOf_cons _ hd, lineOf_cons _ hd, ih]

/-! ### Strings with more behind them -/

variable {o : Opener}

/-- What is taken of a string lies in the text and ends with quotes. -/
theorem stringBody_bounds {cs : List Char} {n : Nat} (h : stringBody o cs = some n) :
    o.quotes ≤ n ∧ n ≤ cs.length := by
  fun_induction stringBody o cs generalizing n with
  | case1 => cases h
  | case2 rest ih =>
    obtain ⟨m, hm, rfl⟩ := Option.map_eq_some_iff.mp h
    have := ih hm
    simp only [List.length_cons]
    omega
  | case3 c rest _ ih =>
    obtain ⟨m, hm, rfl⟩ := Option.map_eq_some_iff.mp h
    have := ih hm
    simp only [List.length_cons]
    omega
  | case4 => cases h
  | case5 => cases h
  | case6 c rest _ _ _ _ hcloses =>
    cases h
    have hprefix := (closes_iff.mp hcloses).length_le
    rw [Opener.delimiter, List.length_replicate] at hprefix
    exact ⟨Nat.le_refl _, hprefix⟩
  | case7 c rest _ _ _ _ _ ih =>
    obtain ⟨m, hm, rfl⟩ := Option.map_eq_some_iff.mp h
    have := ih hm
    simp only [List.length_cons]
    omega

/-- Quotes that would fit into the text are seen in the text. -/
theorem closes_append {cs : List Char} (h : o.quotes ≤ cs.length) (back : List Char) :
    closes o (cs ++ back) = closes o cs := by
  rw [Bool.eq_iff_iff, closes_iff, closes_iff]
  constructor
  · intro hwhole
    refine List.prefix_of_prefix_length_le hwhole (List.prefix_append cs back) ?_
    rwa [Opener.delimiter, List.length_replicate]
  · exact fun hfront => hfront.trans (List.prefix_append cs back)

/-- **A string that ends** ends at the same place with more text behind it. -/
theorem stringBody_append {cs : List Char} {n : Nat} (h : stringBody o cs = some n)
    (back : List Char) : stringBody o (cs ++ back) = some n := by
  fun_induction stringBody o cs generalizing n with
  | case1 => cases h
  | case2 rest ih =>
    obtain ⟨m, hm, rfl⟩ := Option.map_eq_some_iff.mp h
    show (stringBody o (rest ++ back)).map (· + 3) = _
    rw [ih hm, Option.map_some]
  | case3 c rest hpair ih =>
    obtain ⟨m, hm, rfl⟩ := Option.map_eq_some_iff.mp h
    have hpair' : ∀ tail, c = '\r' → rest ++ back = '\n' :: tail → False := by
      intro tail hc htail
      cases rest with
      | nil => cases hm
      | cons d rest => exact hpair rest hc (by rw [(List.cons.inj htail).1])
    rw [List.cons_append, List.cons_append, stringBody_pair hpair', ih hm, Option.map_some]
  | case4 => cases h
  | case5 => cases h
  | case6 c rest _ hmore hlast hends hcloses =>
    cases h
    have hcloses' : closes o (c :: (rest ++ back)) = true :=
      closes_iff.mpr ((closes_iff.mp hcloses).trans (List.prefix_append (c :: rest) back))
    rw [List.cons_append, stringBody_plain o (ne_backslash hmore hlast), if_neg hends,
      if_pos hcloses']
  | case7 c rest _ hmore hlast hends hcloses ih =>
    obtain ⟨m, hm, rfl⟩ := Option.map_eq_some_iff.mp h
    have hfits : o.quotes ≤ (c :: rest).length := by
      have := stringBody_bounds hm
      simp only [List.length_cons]
      omega
    have hcloses' : ¬ closes o (c :: (rest ++ back)) = true := by
      rw [← List.cons_append, closes_append hfits]
      exact hcloses
    rw [List.cons_append, stringBody_plain o (ne_backslash hmore hlast), if_neg hends,
      if_neg hcloses', ih hm, Option.map_some]

/-- A string that does not end in the text ends, if it does, in the text behind it. -/
theorem length_lt_of_stringBody {cs back : List Char} {n : Nat} (h : stringBody o cs = none)
    (hwhole : stringBody o (cs ++ back) = some n) : cs.length < n := by
  fun_induction stringBody o cs generalizing n with
  | case1 => exact (quotes_pos o).trans_le (stringBody_bounds hwhole).1
  | case2 rest ih =>
    obtain ⟨m, hm, rfl⟩ := Option.map_eq_some_iff.mp
      (show (stringBody o (rest ++ back)).map (· + 3) = some n from hwhole)
    have := ih (Option.map_eq_none_iff.mp h) hm
    simp only [List.length_cons]
    omega
  | case3 c rest hpair ih =>
    rw [List.cons_append, List.cons_append] at hwhole
    by_cases hpair' : ∃ tail, c = '\r' ∧ rest ++ back = '\n' :: tail
    · -- The line feed of the pair comes with the text behind.
      obtain ⟨tail, rfl, htail⟩ := hpair'
      rw [htail, stringBody] at hwhole
      obtain ⟨m, hm, rfl⟩ := Option.map_eq_some_iff.mp hwhole
      cases rest with
      | nil => simp
      | cons d rest => exact (hpair rest rfl (by rw [(List.cons.inj htail).1])).elim
    · rw [stringBody_pair fun tail hc htail => hpair' ⟨tail, hc, htail⟩] at hwhole
      obtain ⟨m, hm, rfl⟩ := Option.map_eq_some_iff.mp hwhole
      have := ih (Option.map_eq_none_iff.mp h) hm
      simp only [List.length_cons]
      omega
  | case4 =>
    cases back with
    | nil => cases hwhole
    | cons c back =>
      by_cases hpair : ∃ tail, c = '\r' ∧ back = '\n' :: tail
      · obtain ⟨tail, rfl, rfl⟩ := hpair
        obtain ⟨m, -, rfl⟩ := Option.map_eq_some_iff.mp
          (show (stringBody o tail).map (· + 3) = some n from hwhole)
        simp
      · rw [List.cons_append, List.nil_append,
          stringBody_pair fun tail hc htail => hpair ⟨tail, hc, htail⟩] at hwhole
        obtain ⟨m, -, rfl⟩ := Option.map_eq_some_iff.mp hwhole
        simp
  | case5 c rest _ hmore hlast hends =>
    rw [List.cons_append, stringBody_plain o (ne_backslash hmore hlast), if_pos hends] at hwhole
    cases hwhole
  | case6 => cases h
  | case7 c rest _ hmore hlast hends hcloses ih =>
    rw [List.cons_append, stringBody_plain o (ne_backslash hmore hlast), if_neg hends] at hwhole
    split at hwhole
    · next hcloses' =>
      cases hwhole
      by_contra hle
      rw [← List.cons_append, closes_append (Nat.le_of_not_lt hle)] at hcloses'
      exact hcloses hcloses'
    · obtain ⟨m, hm, rfl⟩ := Option.map_eq_some_iff.mp hwhole
      have := ih (Option.map_eq_none_iff.mp h) hm
      simp only [List.length_cons]
      omega

/-- A string literal that ends in the text is the same with more text behind it. -/
theorem stringLiteral_append {o : Opener} {cs : List Char} {n : Nat}
    (h : stringLiteral o cs = some n) (back : List Char) :
    stringLiteral o (cs ++ back) = some n ∧ n ≤ cs.length := by
  obtain ⟨m, hm, rfl⟩ := Option.map_eq_some_iff.mp h
  have hbounds := stringBody_bounds hm
  have hpos := quotes_pos o
  rw [List.length_drop] at hbounds
  have hle : o.length ≤ cs.length := by omega
  refine ⟨?_, by omega⟩
  rw [stringLiteral, List.drop_append_of_le_length hle, stringBody_append hm, Option.map_some]

theorem length_lt_of_stringLiteral {o : Opener} {cs back : List Char} {n : Nat}
    (hopener : opener? cs = some o) (h : stringLiteral o cs = none)
    (hwhole : stringLiteral o (cs ++ back) = some n) : cs.length < n := by
  have hle := (opener?_eq_some hopener).2
  rw [stringLiteral, List.drop_append_of_le_length hle] at hwhole
  obtain ⟨m, hm, rfl⟩ := Option.map_eq_some_iff.mp hwhole
  have hlt := length_lt_of_stringBody (Option.map_eq_none_iff.mp h) hm
  rw [List.length_drop] at hlt
  omega

/-! ### Line breaks with more behind them -/

/-- Where the text is more than one carriage return, its line break is seen. -/
theorem lineBreak_append {cs : List Char} (hne : cs ≠ []) (hreturn : cs ≠ ['\r'])
    (back : List Char) : lineBreak (cs ++ back) = lineBreak cs := by
  match cs with
  | [c] =>
    have hc : c ≠ '\r' := by simpa using hreturn
    by_cases hfeed : c = '\n' <;> simp [lineBreak, hc, hfeed]
  | c :: d :: cs =>
    rw [List.cons_append, List.cons_append]
    by_cases hc : c = '\r'
    · subst hc
      by_cases hd : d = '\n' <;> simp [lineBreak, hd]
    · by_cases hfeed : c = '\n' <;> simp [lineBreak, hc, hfeed]

theorem lineBreak_le_length (cs : List Char) : lineBreak cs ≤ cs.length := by
  unfold lineBreak
  split <;> simp

end Lexeme

namespace Scanner

open Lexeme

/-! ### Where nothing is seen of the text behind -/

/-- What can be seen from the front of the text is the same with `back` behind it: the line at the
front, and whether a line break or a joined line starts there. -/
structure Seam (front back : List Char) : Prop where
  line : lineOf (front ++ back) = lineOf front
  lineBreak : lineBreak (front ++ back) = lineBreak front
  continuation : continuation (front ++ back) = continuation front

/-- Where the text is more than the start of a joined line, one is seen. -/
theorem continuation_append {cs : List Char} (hne : cs ≠ []) (hbackslash : cs ≠ ['\\'])
    (hreturn : cs ≠ ['\\', '\r']) (back : List Char) :
    continuation (cs ++ back) = continuation cs := by
  match cs with
  | [c] =>
    have hc : c ≠ '\\' := by simpa using hbackslash
    simp [continuation, hc]
  | [c, d] =>
    by_cases hc : c = '\\'
    · subst hc
      have hd : d ≠ '\r' := by simpa using hreturn
      by_cases hfeed : d = '\n' <;> simp [continuation, hd, hfeed]
    · simp [continuation, hc]
  | c :: d :: e :: cs =>
    rw [List.cons_append, List.cons_append, List.cons_append]
    by_cases hc : c = '\\'
    · subst hc
      by_cases hd : d = '\r'
      · subst hd
        by_cases he : e = '\n' <;> simp [continuation, he]
      · by_cases hfeed : d = '\n' <;> simp [continuation, hd, hfeed]
    · simp [continuation, hc]

theorem continuation_le_length (cs : List Char) : continuation cs ≤ cs.length := by
  unfold continuation
  split <;> simp

/-! ### The machine with more text -/

/-- The machine with more text behind the one it has. -/
def extend (s : Scanner) (back : List Char) : Scanner :=
  { s with rest := s.rest ++ back }

section Extend

variable (s : Scanner) (back : List Char)

@[simp] theorem extend_rest : (s.extend back).rest = s.rest ++ back := rfl

@[simp] theorem extend_position : (s.extend back).position = s.position := rfl

@[simp] theorem extend_depth : (s.extend back).depth = s.depth := rfl

@[simp] theorem extend_indents : (s.extend back).indents = s.indents := rfl

@[simp] theorem extend_width : (s.extend back).width = s.width := rfl

@[simp] theorem extend_fresh : (s.extend back).fresh = s.fresh := rfl

/-- What the step does if there is more text behind. -/
def Step.extend (back : List Char) : Step → Step
  | .emit tokens next => .emit tokens (next.extend back)
  | .stop last => .stop (last.extend back)

variable {s}

theorem take_extend (kind : TokenKind) {n : Nat} (h : n ≤ s.rest.length) :
    (s.extend back).take kind n = ((s.take kind n).1, (s.take kind n).2.extend back) := by
  simp only [take, extend, List.take_append_of_le_length h, List.drop_append_of_le_length h]

variable {back}

theorem takeBreak_extend (kind : TokenKind) (h : lineBreak (s.rest ++ back) = lineBreak s.rest) :
    (s.extend back).takeBreak kind
      = ((s.takeBreak kind).1, (s.takeBreak kind).2.extend back) := by
  have hle := lineBreak_le_length s.rest
  simp only [takeBreak, extend, h, List.take_append_of_le_length hle,
    List.drop_append_of_le_length hle]

/-! ### One step -/

theorem lexeme_extend (h : lineOf (s.rest ++ back) = lineOf s.rest) (c : Char) :
    s.lexeme c = .error (.unterminatedString s.position)
      ∨ (s.extend back).lexeme c = (s.lexeme c).map (Step.extend back) := by
  have hopener : opener? (s.extend back).rest = opener? s.rest := opener?_congr h
  cases hopens : opener? s.rest with
  | some o =>
    cases hliteral : stringLiteral o s.rest with
    | none => exact .inl (by simp only [lexeme, hopens, hliteral])
    | some n =>
      obtain ⟨hwhole, hle⟩ := stringLiteral_append hliteral back
      rw [← extend_rest] at hwhole
      refine .inr ?_
      simp only [lexeme, hopener, hopens, hliteral, hwhole, take_extend back .string hle]
      rfl
  | none =>
    have hnumber : number (s.extend back).rest = number s.rest := number_withinLine.congr h
    have hname : name (s.extend back).rest = name s.rest := name_withinLine.congr h
    have hoperator : operator (s.extend back).rest = operator s.rest :=
      operator_withinLine.congr h
    have htake : (s.extend back).rest.take (operator s.rest)
        = s.rest.take (operator s.rest) :=
      List.take_append_of_le_length (operator_withinLine.le_length s.rest)
    refine .inr ?_
    simp only [lexeme, hopener, hopens, hnumber, hname, hoperator, htake,
      take_extend back _ (number_withinLine.le_length s.rest),
      take_extend back _ (name_withinLine.le_length s.rest),
      take_extend back _ (operator_withinLine.le_length s.rest)]
    split
    · rfl
    · split
      · rfl
      · split <;> rfl

/-- **A step inside a line** does the same with more text behind it, but for a string that does not
end in the text. -/
theorem inLine_extend (hne : s.rest ≠ []) (h : Seam s.rest back) :
    s.inLine = .error (.unterminatedString s.position)
      ∨ (s.extend back).inLine = s.inLine.map (Step.extend back) := by
  obtain ⟨c, rest, hrest⟩ := List.exists_cons_of_ne_nil hne
  have hrest' : (s.extend back).rest = c :: (rest ++ back) := by rw [extend_rest, hrest]; rfl
  cases hbreak : isLineBreak c with
  | true =>
    rw [inLine_of_break hrest hbreak, inLine_of_break hrest' hbreak, extend_depth,
      takeBreak_extend _ h.lineBreak]
    exact .inr rfl
  | false =>
    have hcontinuation : continuation (s.extend back).rest = continuation s.rest :=
      h.continuation
    have hdrop : (s.extend back).rest.drop (continuation s.rest)
        = s.rest.drop (continuation s.rest) ++ back :=
      List.drop_append_of_le_length (continuation_le_length s.rest)
    have hcomment : comment (s.extend back).rest = comment s.rest :=
      comment_withinLine.congr h.line
    rw [inLine_of_not_break hrest hbreak, inLine_of_not_break hrest' hbreak, hcontinuation, hdrop,
      hcomment, take_extend back _ (comment_withinLine.le_length s.rest)]
    split
    · exact .inr rfl
    · split
      · exact .inr rfl
      · split
        · exact .inr rfl
        · exact lexeme_extend h.line c

theorem takeComment_extend (hline : lineOf (s.rest ++ back) = lineOf s.rest) :
    (s.extend back).takeComment = (s.takeComment.1, s.takeComment.2.extend back) := by
  rw [takeComment, extend_rest, comment_withinLine.congr hline]
  exact take_extend back .comment (comment_withinLine.le_length s.rest)

theorem blankLine_extend (hne : s.rest ≠ []) (hline : lineOf (s.rest ++ back) = lineOf s.rest)
    (hbreak : lineBreak (s.rest ++ back) = lineBreak s.rest)
    (hcomment : ∀ tail, s.rest = '#' :: tail →
      lineBreak (s.takeComment.2.rest ++ back) = lineBreak s.takeComment.2.rest) :
    Scanner.blankLine (s.extend back) = (Scanner.blankLine s).extend back := by
  by_cases hmark : ∃ tail, s.rest = '#' :: tail
  · obtain ⟨tail, hrest⟩ := hmark
    have hrest' : (s.extend back).rest = '#' :: (tail ++ back) := by
      rw [extend_rest, hrest, List.cons_append]
    rw [blankLine_of_comment hrest, blankLine_of_comment hrest', takeComment_extend hline,
      takeBreak_extend .blankLine (hcomment tail hrest)]
    rfl
  · have hnone : ∀ tail, s.rest ≠ '#' :: tail := fun tail hrest => hmark ⟨tail, hrest⟩
    have hnone' : ∀ tail, (s.extend back).rest ≠ '#' :: tail := by
      intro tail hrest
      obtain ⟨c, rest, hcons⟩ := List.exists_cons_of_ne_nil hne
      rw [extend_rest, hcons, List.cons_append] at hrest
      exact hnone rest (by rw [hcons, (List.cons.inj hrest).1])
    rw [blankLine_of_not_comment hnone, blankLine_of_not_comment hnone',
      takeBreak_extend .blankLine hbreak]
    rfl

theorem openLine_extend (blanks : List Char) :
    openLine blanks (s.extend back) = (openLine blanks s).map (Step.extend back) := by
  unfold openLine
  dsimp only
  rw [extend_width, extend_indents, extend_position]
  split
  · rfl
  · split <;> rfl

/-- Between the blanks of a line and what comes behind them. -/
theorem pastBlanks_of_split {s : Scanner} {blanks tail : List Char} {c : Char}
    (hrest : s.rest = blanks ++ c :: tail) (hblanks : ∀ b ∈ blanks, isIndentChar b = true)
    (hc : isIndentChar c = false) : s.blanks = blanks ∧ s.pastBlanks.rest = c :: tail := by
  constructor
  · rw [Scanner.blanks, hrest, List.takeWhile_append_of_pos hblanks]
    simp [hc]
  · show s.rest.dropWhile isIndentChar = c :: tail
    rw [hrest, List.dropWhile_append_of_pos hblanks]
    simp [hc]

theorem pastBlanks_extend (hne : s.pastBlanks.rest ≠ []) (back : List Char) :
    (s.extend back).blanks = s.blanks
      ∧ (s.extend back).pastBlanks = s.pastBlanks.extend back := by
  obtain ⟨c, tail, hrest⟩ := List.exists_cons_of_ne_nil hne
  have hsplit : (s.extend back).rest = s.blanks ++ c :: (tail ++ back) := by
    rw [extend_rest, ← s.blanks_append_rest, hrest, List.append_assoc, List.cons_append]
  obtain ⟨hblanks, hpast⟩ := pastBlanks_of_split hsplit (fun b hb => isIndentChar_of_mem_blanks hb)
    (not_blank_of_pastBlanks hrest)
  have hdrop : (s.extend back).rest.dropWhile isIndentChar = s.pastBlanks.rest ++ back := by
    rw [hrest]
    exact hpast
  refine ⟨hblanks, ?_⟩
  rw [pastBlanks, hblanks, hdrop]
  rfl

/-- **A step at the start of a line** does the same with more text behind it. -/
theorem lineStart_extend (hne : s.pastBlanks.rest ≠ [])
    (hline : lineOf (s.pastBlanks.rest ++ back) = lineOf s.pastBlanks.rest)
    (hbreak : lineBreak (s.pastBlanks.rest ++ back) = lineBreak s.pastBlanks.rest)
    (hcomment : ∀ tail, s.pastBlanks.rest = '#' :: tail →
      lineBreak (s.pastBlanks.takeComment.2.rest ++ back)
        = lineBreak s.pastBlanks.takeComment.2.rest) :
    (s.extend back).lineStart = s.lineStart.map (Step.extend back) := by
  obtain ⟨hblanks, hpast⟩ := pastBlanks_extend hne back
  obtain ⟨c, tail, hrest⟩ := List.exists_cons_of_ne_nil hne
  rw [lineStart_eq, lineStart_eq, hpast, hblanks, blankLine_extend hne hline hbreak hcomment,
    openLine_extend, extend_rest, hrest]
  dsimp only [List.cons_append]
  split <;> rfl

end Extend

end Scanner

/-! ### In front of a line feed -/

/-- What is left of a text that ends with a line feed ends with it, if anything is left. -/
theorem EndsLine.suffix {front back : List Char} (h : EndsLine (front ++ back)) :
    EndsLine back := by
  rcases h with hnil | ⟨lines, hlines⟩
  · exact .inl (List.append_eq_nil_iff.mp hnil).2
  · cases back using List.reverseRecOn with
    | nil => exact .inl rfl
    | append_singleton back c =>
      rw [← List.append_assoc] at hlines
      obtain ⟨-, hc⟩ := List.append_inj' hlines rfl
      exact .inr ⟨back, by rw [hc]⟩

namespace Scanner

open Lexeme

/-- At the start of a line without code. -/
theorem step_of_blank {s : Scanner} {c : Char} {tail : List Char} (hfresh : s.fresh = true)
    (hrest : s.pastBlanks.rest = c :: tail) (hc : (c == '#' || isLineBreak c) = true) :
    s.step = .ok (Scanner.blankLine s.pastBlanks) := by
  rw [step, if_pos hfresh, lineStart_eq, hrest]
  exact if_pos hc

/-- The machine behind a line feed. -/
theorem takeBreak_lineFeed {s : Scanner} {rest : List Char} (kind : TokenKind)
    (hrest : s.rest = '\n' :: rest) :
    (s.takeBreak kind).2
      = { s with rest := rest, position := s.position.nextLine, fresh := s.depth == 0 } := by
  have hlength : lineBreak s.rest = 1 := by rw [hrest, lineBreak]
  rw [takeBreak, hlength, hrest]
  rfl

/-- **Nothing sees what is behind a line feed** that ends the text. -/
theorem seam_of_endsLine {front : List Char} (hne : front ≠ []) (hend : EndsLine front)
    (back : List Char) : Seam front back := by
  obtain ⟨lines, rfl⟩ := hend.resolve_left hne
  have hlast : ∀ other : List Char, other.getLast? ≠ some '\n' → lines ++ ['\n'] ≠ other := by
    rintro _ hother rfl
    simp at hother
  exact ⟨lineOf_append_of_break ⟨'\n', by simp, rfl⟩ back,
    lineBreak_append hne (hlast _ (by decide)) back,
    continuation_append hne (hlast _ (by decide)) (hlast _ (by decide)) back⟩

/-- A comment ends in front of a line feed. -/
theorem drop_comment_ne_nil {cs : List Char} (hne : cs ≠ []) (hend : EndsLine cs) :
    cs.drop (comment cs) ≠ [] := by
  obtain ⟨lines, rfl⟩ := hend.resolve_left hne
  have hle := comment_withinLine.le_line (lines ++ ['\n'])
  rw [lineOf_append_break lines rfl []] at hle
  have hline : (lineOf lines).length ≤ lines.length := (List.takeWhile_sublist _).length_le
  intro hnil
  have hlength := congrArg List.length hnil
  simp only [List.length_drop, List.length_append, List.length_singleton, List.length_nil]
    at hlength
  omega

theorem pastBlanks_ne_nil {s : Scanner} (hne : s.rest ≠ []) (hend : EndsLine s.rest) :
    s.pastBlanks.rest ≠ [] := by
  obtain ⟨lines, hlines⟩ := hend.resolve_left hne
  intro hnil
  have hfeed : '\n' ∈ s.blanks := by
    have hall : s.blanks = s.rest := by simpa [hnil] using s.blanks_append_rest
    rw [hall, hlines]
    simp
  exact Bool.false_ne_true (isIndentChar_of_mem_blanks hfeed)

/-- **A step in front of a line feed** does the same whatever is behind it, but for a string that
does not end there. -/
theorem step_extend {s : Scanner} (hne : s.rest ≠ []) (hend : EndsLine s.rest)
    (back : List Char) :
    s.step = .error (.unterminatedString s.position)
      ∨ (s.extend back).step = s.step.map (Step.extend back) := by
  unfold step
  rw [extend_fresh]
  split
  · have hpast := pastBlanks_ne_nil hne hend
    have hinner : EndsLine s.pastBlanks.rest := by
      rw [← s.blanks_append_rest] at hend
      exact hend.suffix
    have hseam := seam_of_endsLine hpast hinner back
    refine .inr (lineStart_extend hpast hseam.line hseam.lineBreak fun tail _ => ?_)
    have hcomment : EndsLine s.pastBlanks.takeComment.2.rest := by
      rw [← List.take_append_drop (comment s.pastBlanks.rest) s.pastBlanks.rest] at hinner
      exact hinner.suffix
    exact (seam_of_endsLine (drop_comment_ne_nil hpast hinner) hcomment back).lineBreak
  · exact inLine_extend hne (seam_of_endsLine hne hend back)

/-- In the other direction: a step that leaves all of the text behind it, is one without that text.
-/
theorem step_of_extend {s u : Scanner} {back mid : List Char} {tokens : List Token}
    (hne : s.rest ≠ []) (hend : EndsLine s.rest)
    (h : (s.extend back).step = .ok (.emit tokens u)) (hmid : u.rest = mid ++ back) :
    ∃ t, s.step = .ok (.emit tokens t) ∧ u = t.extend back := by
  rcases step_extend hne hend back with herror | hstep
  · -- A string that does not end in the text takes some of what is behind.
    cases stuck_of_step herror with
    | @string opener hfresh hopener hopen =>
      have hopener' : opener? (s.extend back).rest = some opener := by
        rw [← hopener]
        exact opener?_congr (seam_of_endsLine hne hend back).line
      rw [step_of_opener? (show (s.extend back).fresh = false from hfresh) hopener'] at h
      cases hliteral : stringLiteral opener (s.extend back).rest with
      | none =>
        rw [hliteral] at h
        cases h
      | some n =>
        have hlt := length_lt_of_stringLiteral hopener hopen hliteral
        have hle := (stringLiteral_append hliteral []).2
        rw [hliteral] at h
        cases h
        have hlength := congrArg List.length hmid
        simp only [take_rest, extend_rest, List.length_drop, List.length_append] at hlength hle
        omega
  · rw [h] at hstep
    cases hs : s.step with
    | error e =>
      rw [hs] at hstep
      cases hstep
    | ok next =>
      rw [hs] at hstep
      cases next with
      | stop last => cases hstep
      | emit emitted t =>
        cases hstep
        exact ⟨t, rfl, rfl⟩

theorem measure_le_of_reaches {s t : Scanner} {tokens : List Token} (h : Reaches s tokens t) :
    t.measure ≤ s.measure := by
  induction h with
  | refl s => exact Nat.le_refl _
  | step hstep _ ih => exact ih.trans (Nat.le_of_lt (measure_lt_of_step hstep))

/-- **A run up to the start of a line** is the same whatever comes from there on. -/
theorem reaches_of_extend {s u : Scanner} {back : List Char} {tokens : List Token}
    (h : Reaches (s.extend back) tokens u) (hend : EndsLine s.rest) (hrest : u.rest = back)
    (hfresh : u.fresh = true) :
    ∃ t : Scanner, u = t.extend back
      ∧ ∀ other, Reaches (s.extend other) tokens (t.extend other) := by
  generalize hs : s.extend back = start at h
  induction h generalizing s with
  | refl start => exact ⟨s, hs.symm, fun other => .refl _⟩
  | @step start next u tokens more hstep hreaches ih =>
    subst hs
    by_cases hne : s.rest = []
    · -- From the start of the line itself every step goes on, and none leads back.
      have hlt := (measure_le_of_reaches hreaches).trans_lt (measure_lt_of_step hstep)
      unfold measure at hlt
      rw [hfresh, hrest, extend_rest, hne, List.nil_append, extend_fresh, if_pos rfl] at hlt
      split at hlt <;> omega
    · obtain ⟨mid, hmid⟩ := hreaches.rest
      rw [hrest] at hmid
      obtain ⟨t, hstep', rfl⟩ := step_of_extend hne hend hstep hmid
      have ht : EndsLine t.rest := by
        obtain ⟨text, hsplit, -⟩ := spells_of_move (move_of_step hstep')
        rw [hsplit] at hend
        exact hend.suffix
      obtain ⟨last, hlast, hrun⟩ := ih ht hrest hfresh rfl
      refine ⟨last, hlast, fun other => .step ?_ (hrun other)⟩
      rcases step_extend hne hend other with herror | hother
      · rw [hstep'] at herror
        cases herror
      · rw [hother, hstep']
        rfl

end Scanner

end PyStyle
