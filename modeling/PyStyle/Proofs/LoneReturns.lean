import PyStyle.Proofs.TextBehind
import PyStyle.Proofs.TokenOrder

/-!
# Lines that end with a carriage return

A carriage return of its own ends a line as a line feed does, with two exceptions. A backslash joins
no lines in front of one, so a text with joined lines has no tokens any more; and in a string it is
not counted, so that behind a string over several lines all tokens are on too early a line.

- `Text.toCr` — the text with a carriage return for every line feed, which `LineEndings` says is cut
  alike;
- `Loss`, `Loses` — what the places of tokens lose behind strings with line feeds;
- `Scanner.Joins` — a run comes to a backslash that joins two lines;
- `Scanner.step_toCr`, `Scanner.run_toCr` — a step, and a run, on either text;
- `tokenize_toCr` — **what becomes of the tokens**.
-/

namespace PyStyle

/-! ### Texts -/

namespace Text

/-- The text with a carriage return for every line feed. -/
def toCr (cs : List Char) : List Char :=
  withEnds .cr cs

theorem lineFeed_not_mem_withEnds (cs : List Char) : '\n' ∉ withEnds .cr cs := by
  intro h
  obtain ⟨c, -, hc⟩ := List.mem_flatMap.mp h
  split at hc
  · cases List.mem_singleton.mp hc
  · next hne => exact hne (List.mem_singleton.mp hc).symm

end Text

open Text

namespace Lexeme

/-! ### How strings end -/

/-- A string literal ends with its quote. -/
theorem stringBody_last {o : Opener} {cs : List Char} {n : Nat} (h : stringBody o cs = some n) :
    ∃ front, cs.take n = front ++ [o.quote] := by
  fun_induction stringBody o cs generalizing n with
  | case1 => cases h
  | case2 rest ih =>
    obtain ⟨m, hm, rfl⟩ := Option.map_eq_some_iff.mp h
    obtain ⟨front, hfront⟩ := ih hm
    exact ⟨'\\' :: '\r' :: '\n' :: front, by simp [hfront]⟩
  | case3 c rest _ ih =>
    obtain ⟨m, hm, rfl⟩ := Option.map_eq_some_iff.mp h
    obtain ⟨front, hfront⟩ := ih hm
    exact ⟨'\\' :: c :: front, by simp [hfront]⟩
  | case4 => cases h
  | case5 => cases h
  | case6 c rest _ _ _ _ hcloses =>
    cases h
    obtain ⟨n, hn⟩ := Nat.exists_eq_add_one.mpr (quotes_pos o)
    rw [take_of_closes hcloses, Opener.delimiter, hn]
    exact ⟨List.replicate n o.quote, List.replicate_succ'⟩
  | case7 c rest _ _ _ _ _ ih =>
    obtain ⟨m, hm, rfl⟩ := Option.map_eq_some_iff.mp h
    obtain ⟨front, hfront⟩ := ih hm
    exact ⟨c :: front, by simp [hfront]⟩

theorem stringLiteral_last {o : Opener} {cs : List Char} {n : Nat} (hopener : opener? cs = some o)
    (h : stringLiteral o cs = some n) : ∃ front q, cs.take n = front ++ [q] ∧ q ≠ '\n' := by
  obtain ⟨m, hm, rfl⟩ := Option.map_eq_some_iff.mp h
  obtain ⟨front, hfront⟩ := stringBody_last hm
  refine ⟨cs.take o.length ++ front, o.quote, ?_, ?_⟩
  · rw [Nat.add_comm, List.take_add, hfront, List.append_assoc]
  · rcases (opener?_eq_some hopener).1 with hquote | hquote <;> rw [hquote] <;> decide

end Lexeme

/-! ### What is lost -/

/-- What the places of tokens have lost: some lines, and in the line behind a string over several
lines the columns are shifted as well. -/
structure Loss where
  lines : Nat
  shifted : Bool

/-- The token with a carriage return for every line feed, at another place. -/
def Token.toCr (token : Token) (p : Position) : Token :=
  { token with text := String.ofList (withEnds .cr token.text.toList), position := p }

namespace Loss

/-- Nothing is lost. -/
def none : Loss :=
  ⟨0, false⟩

/-- What is lost behind a token: a string loses its line feeds; a line end starts a line that is not
shifted. -/
def behind (loss : Loss) (token : Token) : Loss :=
  if '\n' ∈ token.text.toList then
    if token.kind = .string then ⟨loss.lines + token.text.toList.count '\n', true⟩
    else ⟨loss.lines, false⟩
  else loss

/-- Of two places the second one comes from the first one by the loss. -/
structure Places (loss : Loss) (p p' : Position) : Prop where
  line : p.line = p'.line + loss.lines
  column : loss.shifted = false → p'.column = p.column

/-- The two places at which a machine stands: where the columns are shifted, both are inside of a
line. -/
structure Stands (loss : Loss) (p p' : Position) : Prop extends loss.Places p p' where
  inside : loss.shifted = true → p.column ≠ 0 ∧ p'.column ≠ 0

end Loss

/-- Of two streams the second one has carriage returns for line feeds, at the places that come from
those of the first one by what is lost up to there. -/
inductive Loses : Loss → List Token → List Token → Prop
  | nil (loss : Loss) : Loses loss [] []
  | cons {loss : Loss} {token : Token} {p : Position} {tokens tokens' : List Token}
      (hplace : loss.Places token.position p) (hrest : Loses (loss.behind token) tokens tokens') :
      Loses loss (token :: tokens) (token.toCr p :: tokens')

namespace Position

theorem past_line (p : Position) (text : List Char) :
    (p.past text).line = p.line + text.count '\n' := by
  induction text generalizing p with
  | nil => rfl
  | cons c text ih =>
    show ((p.pastChar c).past text).line = _
    rw [ih, pastChar]
    by_cases hc : c = '\n'
    · subst hc
      rw [if_pos (beq_self_eq_true _), List.count_cons_self]
      show p.line + 1 + text.count '\n' = p.line + (text.count '\n' + 1)
      omega
    · rw [if_neg (by simpa using hc), List.count_cons_of_ne hc]

end Position

namespace Loss

variable {loss : Loss} {p p' : Position}

theorem behind_of_not_mem {token : Token} (h : '\n' ∉ token.text.toList) :
    loss.behind token = loss :=
  if_neg h

theorem behind_dedents (p : Position) (n : Nat) :
    (List.replicate n (Scanner.dedent p)).foldl behind loss = loss := by
  induction n with
  | zero => rfl
  | succ n ih => exact ih

theorem Places.eq_of_none (h : none.Places p p') : p' = p := by
  obtain ⟨line, column⟩ := p
  obtain ⟨line', column'⟩ := p'
  obtain rfl : line = line' := h.line
  obtain rfl : column' = column := h.column rfl
  rfl

theorem stands_none (p : Position) : none.Stands p p :=
  ⟨⟨rfl, fun _ => rfl⟩, nofun⟩

/-- The loss stays the same over a text of one line. -/
theorem Stands.past (h : loss.Stands p p') {text : List Char} (hfeed : '\n' ∉ text) :
    loss.Stands (p.past text) (p'.past text) := by
  have hcolumn := p.past_column_of_line hfeed
  have hcolumn' := p'.past_column_of_line hfeed
  have hnone : text.count '\n' = 0 := List.count_eq_zero.mpr hfeed
  refine ⟨⟨?_, fun hshifted => ?_⟩, fun hshifted => ?_⟩
  · rw [p.past_line, p'.past_line, hnone, h.line]
    omega
  · rw [hcolumn, hcolumn', h.column hshifted]
  · have := h.inside hshifted
    omega

/-- Behind a string over several lines there are fewer lines, and the columns are counted from
different places. -/
theorem Stands.pastString (h : loss.Stands p p') {front : List Char} {q : Char} (hq : q ≠ '\n') :
    Stands ⟨loss.lines + (front ++ [q]).count '\n', true⟩ (p.past (front ++ [q]))
      (p'.past (withEnds .cr (front ++ [q]))) := by
  have hquote : '\n' ∉ [q] := by simpa using hq.symm
  have hnone : (withEnds .cr (front ++ [q])).count '\n' = 0 :=
    List.count_eq_zero.mpr (lineFeed_not_mem_withEnds _)
  refine ⟨⟨?_, nofun⟩, fun _ => ⟨?_, ?_⟩⟩
  · rw [p.past_line, p'.past_line, hnone, h.line]
    dsimp only
    omega
  · rw [p.past_append, Position.past_column_of_line _ hquote]
    simp
  · rw [p'.past_column_of_line (lineFeed_not_mem_withEnds _), withEnds_append,
      withEnds_of_not_mem .cr hquote]
    simp

theorem Stands.nextLine (h : loss.Stands p p') :
    Stands ⟨loss.lines, false⟩ p.nextLine p'.nextLine := by
  refine ⟨⟨?_, fun _ => rfl⟩, nofun⟩
  show p.line + 1 = p'.line + 1 + loss.lines
  rw [h.line]
  omega

/-- Where the text ends, the place of what closes the stream. -/
theorem Stands.endPosition {s s' : Scanner} (h : loss.Stands s.position s'.position) :
    loss.Places s.endPosition s'.endPosition := by
  have hmargin : s.position.column = 0 ↔ s'.position.column = 0 := by
    cases hshifted : loss.shifted with
    | false => rw [h.column hshifted]
    | true => simp [h.inside hshifted]
  unfold Scanner.endPosition
  by_cases hcolumn : s.position.column = 0
  · rw [if_pos hcolumn, if_pos (hmargin.mp hcolumn)]
    exact h.toPlaces
  · rw [if_neg hcolumn, if_neg (hmargin.not.mp hcolumn)]
    exact ⟨h.nextLine.line, fun _ => rfl⟩

end Loss

namespace Loses

variable {loss : Loss} {tokens tokens' more more' : List Token}

theorem append (h : Loses loss tokens tokens')
    (hmore : Loses (tokens.foldl Loss.behind loss) more more') :
    Loses loss (tokens ++ more) (tokens' ++ more') := by
  induction h with
  | nil loss => exact hmore
  | cons hplace _ ih => exact .cons hplace (ih hmore)

theorem singleton {token : Token} {p : Position} (h : loss.Places token.position p) :
    Loses loss [token] [token.toCr p] :=
  .cons h (.nil _)

/-- A token without line feeds keeps its text. -/
theorem ofLine {kind : TokenKind} {text : String} {p p' : Position} (hfeed : '\n' ∉ text.toList)
    (h : loss.Places p p') : Loses loss [⟨kind, text, p⟩] [⟨kind, text, p'⟩] := by
  have hsame : (⟨kind, text, p⟩ : Token).toCr p' = ⟨kind, text, p'⟩ := by
    rw [Token.toCr, withEnds_of_not_mem .cr hfeed, String.ofList_toList]
  rw [← hsame]
  exact singleton h

theorem kinds (h : Loses loss tokens tokens') :
    tokens'.map Token.kind = tokens.map Token.kind := by
  induction h with
  | nil => rfl
  | @cons _ token _ _ _ _ _ ih =>
    rw [List.map_cons, List.map_cons, ih]
    rfl

theorem dedents {p p' : Position} (h : loss.Places p p') (n : Nat) :
    Loses loss (List.replicate n (Scanner.dedent p)) (List.replicate n (Scanner.dedent p')) := by
  induction n with
  | zero => exact .nil loss
  | succ n ih => exact .cons h ih

end Loses

namespace Scanner

open Lexeme

/-! ### One step -/

/-- The machine before the text with a carriage return for every line feed, at another place. -/
def toCr (s : Scanner) (p : Position) : Scanner :=
  { s with rest := withEnds .cr s.rest, position := p }

/-- Two steps do the same but for what is lost, or both fail. -/
inductive StepsAlike (loss : Loss) : Except LexError Step → Except LexError Step → Prop
  | error (e e' : LexError) : StepsAlike loss (.error e) (.error e')
  | stop {last : Scanner} {p : Position} (hplace : loss.Stands last.position p) :
      StepsAlike loss (.ok (.stop last)) (.ok (.stop (last.toCr p)))
  | emit {tokens tokens' : List Token} {t : Scanner} {p : Position}
      (htokens : Loses loss tokens tokens')
      (hplace : (tokens.foldl Loss.behind loss).Stands t.position p) :
      StepsAlike loss (.ok (.emit tokens t)) (.ok (.emit tokens' (t.toCr p)))

/-- Two steps that emit one token. -/
theorem StepsAlike.emitOne {loss : Loss} {token : Token} {t : Scanner} {p q : Position}
    (hplace : loss.Places token.position p) (hnext : (loss.behind token).Stands t.position q) :
    StepsAlike loss (.ok (.emit [token] t)) (.ok (.emit [token.toCr p] (t.toCr q))) :=
  .emit (.singleton hplace) hnext

/-- Two steps that emit two tokens. -/
theorem StepsAlike.emitTwo {loss : Loss} {token token' : Token} {t : Scanner} {p p' q : Position}
    (hplace : loss.Places token.position p)
    (hplace' : (loss.behind token).Places token'.position p')
    (hnext : ((loss.behind token).behind token').Stands t.position q) :
    StepsAlike loss (.ok (.emit [token, token'] t))
      (.ok (.emit [token.toCr p, token'.toCr p'] (t.toCr q))) :=
  .emit (.cons hplace (.singleton hplace')) hnext

section ToCr

variable {s : Scanner} {loss : Loss} {p : Position}

@[simp] theorem toCr_rest : (s.toCr p).rest = withEnds .cr s.rest := rfl

@[simp] theorem toCr_position : (s.toCr p).position = p := rfl

@[simp] theorem toCr_depth : (s.toCr p).depth = s.depth := rfl

@[simp] theorem toCr_indents : (s.toCr p).indents = s.indents := rfl

@[simp] theorem toCr_width : (s.toCr p).width = s.width := rfl

@[simp] theorem toCr_fresh : (s.toCr p).fresh = s.fresh := rfl

theorem take_toCr (kind : TokenKind) {n m : Nat} (h : CutsAlike .cr s.rest n m) :
    (s.toCr p).take kind m
      = ((s.take kind n).1.toCr p,
        (s.take kind n).2.toCr (p.past (withEnds .cr (s.rest.take n)))) := by
  simp only [take, toCr, Token.toCr, String.toList_ofList, h.take, h.drop]

/-- A rule that ends with the line takes the same characters. -/
theorem take_rule_toCr (kind : TokenKind) {rule : List Char → Nat} (h : WithinLine rule) :
    (s.toCr p).take kind (rule s.rest)
      = ((s.take kind (rule s.rest)).1.toCr p,
        (s.take kind (rule s.rest)).2.toCr (p.past (withEnds .cr (s.rest.take (rule s.rest))))) :=
  take_toCr kind (cutsAlike_of_le_line .cr (h.le_line s.rest))

/-- A token of one line loses nothing more. -/
theorem stands_take (h : loss.Stands s.position p) (kind : TokenKind) {n : Nat}
    (hfeed : '\n' ∉ s.rest.take n) :
    (loss.behind (s.take kind n).1).Stands (s.take kind n).2.position
      (p.past (withEnds .cr (s.rest.take n))) := by
  have hsame : loss.behind (s.take kind n).1 = loss :=
    Loss.behind_of_not_mem (by rwa [take_text, String.toList_ofList])
  rw [hsame, withEnds_of_not_mem .cr hfeed]
  exact h.past hfeed

theorem takeBreak_toCr (hreturn : '\r' ∉ s.rest) (kind : TokenKind) :
    (s.toCr p).takeBreak kind
      = ((s.takeBreak kind).1.toCr p,
        (s.takeBreak kind).2.toCr (if lineBreak s.rest = 0 then p else p.nextLine)) := by
  obtain ⟨hcut, hzero⟩ := lineBreak_withEnds .cr hreturn
  simp only [takeBreak, toCr, Token.toCr, String.toList_ofList, hcut.take, hcut.drop, hzero]

/-- The line behind a line break is not shifted. -/
theorem stands_takeBreak (h : loss.Stands s.position p) (hreturn : '\r' ∉ s.rest)
    {kind : TokenKind} (hkind : kind ≠ .string) :
    (loss.behind (s.takeBreak kind).1).Stands (s.takeBreak kind).2.position
      (if lineBreak s.rest = 0 then p else p.nextLine) := by
  show (loss.behind (s.takeBreak kind).1).Stands
    (if lineBreak s.rest = 0 then s.position else s.position.nextLine) _
  have htext : (s.takeBreak kind).1.text.toList = s.rest.take (lineBreak s.rest) :=
    String.toList_ofList
  by_cases hnone : lineBreak s.rest = 0
  · have hfeed : '\n' ∉ (s.takeBreak kind).1.text.toList := by simp [hnone]
    rw [if_pos hnone, if_pos hnone, Loss.behind_of_not_mem hfeed]
    exact h
  · have hfeed : '\n' ∈ (s.takeBreak kind).1.text.toList := by
      rw [htext]
      exact ((lineBreak_cases s.rest).resolve_left hnone).resolve_right fun hmem =>
        hreturn (List.mem_of_mem_take hmem)
    rw [if_neg hnone, if_neg hnone, Loss.behind, if_pos hfeed, takeBreak_kind, if_neg hkind]
    exact h.nextLine

/-- **A lexeme** is cut at the same place. -/
theorem lexeme_toCr (h : loss.Stands s.position p) (hreturn : '\r' ∉ s.rest) (c : Char) :
    StepsAlike loss (s.lexeme c) ((s.toCr p).lexeme c) := by
  have hline : lineOf (s.toCr p).rest = lineOf s.rest := lineOf_withEnds .cr s.rest
  have hopener : opener? (s.toCr p).rest = opener? s.rest := opener?_congr hline
  cases hopens : opener? s.rest with
  | some o =>
    have hliteral := stringLiteral_withEnds .cr hopens hreturn
    rw [← toCr_rest (p := p)] at hliteral
    cases hn : stringLiteral o s.rest with
    | none =>
      simp only [lexeme, hopener, hopens, hliteral, hn, Option.map_none]
      exact .error _ _
    | some n =>
      simp only [lexeme, hopener, hopens, hliteral, hn, Option.map_some,
        take_toCr .string (cutsAlike_length .cr s.rest n)]
      refine .emitOne h.toPlaces ?_
      by_cases hfeed : '\n' ∈ s.rest.take n
      · -- A string over several lines.
        obtain ⟨front, q, hlast, hq⟩ := stringLiteral_last hopens hn
        have htext : (s.take .string n).1.text.toList = front ++ [q] := by
          rw [take_text, String.toList_ofList, hlast]
        rw [hlast] at hfeed
        rw [Loss.behind, htext, if_pos hfeed, take_kind, if_pos rfl, hlast]
        show Loss.Stands _ (s.position.past (s.rest.take n)) _
        rw [hlast]
        exact h.pastString hq
      · exact stands_take h .string hfeed
  | none =>
    have hnumber : number (s.toCr p).rest = number s.rest := number_withinLine.congr hline
    have hname : name (s.toCr p).rest = name s.rest := name_withinLine.congr hline
    have hoperator : operator (s.toCr p).rest = operator s.rest := operator_withinLine.congr hline
    have hinLine : ∀ {rule : List Char → Nat}, WithinLine rule →
        '\n' ∉ s.rest.take (rule s.rest) := fun hrule => lineFeed_not_mem_take (hrule.le_line _)
    have hop : (s.toCr p).rest.take (operator s.rest) = s.rest.take (operator s.rest) := by
      rw [toCr_rest, (cutsAlike_of_le_line .cr (operator_withinLine.le_line s.rest)).take,
        withEnds_of_not_mem .cr (hinLine operator_withinLine)]
    simp only [lexeme, hopener, hopens, hnumber, hname, hoperator, hop,
      take_rule_toCr _ number_withinLine, take_rule_toCr _ name_withinLine,
      take_rule_toCr _ operator_withinLine]
    split
    · exact .emitOne h.toPlaces (stands_take h .number (hinLine number_withinLine))
    · split
      · exact .emitOne h.toPlaces (stands_take h .name (hinLine name_withinLine))
      · split
        · have hplace := stands_take h (operatorKind (s.rest.take (operator s.rest)))
            (hinLine operator_withinLine)
          exact .emitOne h.toPlaces hplace
        · exact .error _ _

/-- **A step inside a line**, if no backslash joins it to the next one. -/
theorem inLine_toCr (h : loss.Stands s.position p) (hreturn : '\r' ∉ s.rest)
    (hjoin : continuation s.rest = 0) : StepsAlike loss s.inLine (s.toCr p).inLine := by
  cases hrest : s.rest with
  | nil =>
    have hrest' : (s.toCr p).rest = [] := by rw [toCr_rest, hrest, withEnds_nil]
    unfold inLine
    rw [hrest, hrest']
    exact .stop h
  | cons c rest =>
    cases hbreak : isLineBreak c with
    | true =>
      obtain rfl : c = '\n' := by
        refine (eq_of_isLineBreak hbreak).resolve_left ?_
        rintro rfl
        exact hreturn (hrest ▸ List.mem_cons_self)
      have hrest' : (s.toCr p).rest = '\r' :: withEnds .cr rest := by
        rw [toCr_rest, hrest, withEnds_lineFeed]
        rfl
      have hkind : (if s.depth = 0 then TokenKind.newline else TokenKind.blankLine) ≠ .string := by
        split <;> decide
      rw [inLine_of_break hrest hbreak, inLine_of_break hrest' rfl, toCr_depth,
        takeBreak_toCr hreturn]
      exact .emitOne h.toPlaces (stands_takeBreak h hreturn hkind)
    | false =>
      have hc : c ≠ '\n' := by
        rintro rfl
        cases hbreak
      have hrest' : (s.toCr p).rest = c :: withEnds .cr rest := by
        rw [toCr_rest, hrest, withEnds_cons .cr rest hc]
      have hjoin' : ¬ 0 < continuation (s.toCr p).rest := fun hpos =>
        lineFeed_not_mem_withEnds s.rest (List.mem_of_mem_take (lineFeed_mem_continuation hpos))
      have hcomment : Lexeme.comment (s.toCr p).rest = Lexeme.comment s.rest :=
        comment_withinLine.congr (lineOf_withEnds .cr s.rest)
      rw [inLine_of_not_break hrest hbreak, inLine_of_not_break hrest' hbreak, if_neg hjoin',
        if_neg (show ¬ 0 < continuation s.rest by omega), hcomment,
        take_rule_toCr _ comment_withinLine]
      split
      · have hplace : loss.Stands (s.position.past [c]) (p.past [c]) :=
          h.past (by simpa using hc.symm)
        exact .emit (.nil loss) hplace
      · split
        · exact .emitOne h.toPlaces
            (stands_take h .comment (lineFeed_not_mem_take (comment_withinLine.le_line _)))
        · exact lexeme_toCr h hreturn c

/-- **A backslash in front of a carriage return** joins no lines, and it starts no token. -/
theorem step_joined (hfresh : s.fresh = false) (hjoin : 0 < continuation s.rest) :
    (s.toCr p).step = .error (.unexpectedCharacter p '\\') := by
  obtain ⟨tail, hrest⟩ : ∃ tail, s.rest = '\\' :: tail := by
    unfold continuation at hjoin
    split at hjoin
    · next hrest => exact ⟨_, hrest⟩
    · next hrest => exact ⟨_, hrest⟩
    · exact absurd hjoin (Nat.lt_irrefl 0)
  have hrest' : (s.toCr p).rest = '\\' :: withEnds .cr tail := by
    rw [toCr_rest, hrest, withEnds_cons .cr tail (by decide)]
  have hjoin' : ¬ 0 < continuation (s.toCr p).rest := fun hpos =>
    lineFeed_not_mem_withEnds s.rest (List.mem_of_mem_take (lineFeed_mem_continuation hpos))
  have hstep : (s.toCr p).step = (s.toCr p).lexeme '\\' := by
    rw [step, toCr_fresh, hfresh, if_neg Bool.false_ne_true, inLine_of_not_break hrest' rfl,
      if_neg hjoin']
    rfl
  cases hlexeme : (s.toCr p).lexeme '\\' with
  | ok next => exact absurd hlexeme (lexeme_backslash hrest')
  | error e =>
    rw [hstep, hlexeme]
    have hfresh' : (s.toCr p).fresh = false := hfresh
    cases stuck_of_lexeme hfresh' hrest' hlexeme with
    | line hstart =>
      rw [hfresh'] at hstart
      cases hstart
    | string _ hopener =>
      rw [hrest'] at hopener
      exact absurd rfl (startsLexeme_of_opener? hopener).not_backslash
    | character _ hcharacter =>
      rw [hrest'] at hcharacter
      rw [(List.cons.inj hcharacter).1]
      rfl

theorem pastBlanks_toCr :
    (s.toCr p).blanks = s.blanks
      ∧ (s.toCr p).pastBlanks = s.pastBlanks.toCr (p.past s.blanks) := by
  have hblanks : (s.toCr p).blanks = s.blanks := takeWhile_withEnds .cr ⟨rfl, rfl⟩ s.rest
  refine ⟨hblanks, ?_⟩
  rw [pastBlanks, hblanks, toCr_rest, dropWhile_withEnds .cr ⟨rfl, rfl⟩]
  rfl

/-- **A line without code** may have a comment before its end. -/
theorem blankLine_toCr (h : loss.Stands s.position p) (hreturn : '\r' ∉ s.rest) :
    StepsAlike loss (.ok (Scanner.blankLine s)) (.ok (Scanner.blankLine (s.toCr p))) := by
  by_cases hmark : ∃ tail, s.rest = '#' :: tail
  · obtain ⟨tail, hrest⟩ := hmark
    have hrest' : (s.toCr p).rest = '#' :: withEnds .cr tail := by
      rw [toCr_rest, hrest, withEnds_cons .cr tail (by decide)]
    have hcomment : Lexeme.comment (s.toCr p).rest = Lexeme.comment s.rest :=
      comment_withinLine.congr (lineOf_withEnds .cr s.rest)
    have hplace :=
      stands_take h .comment (lineFeed_not_mem_take (comment_withinLine.le_line s.rest))
    have hreturn' : '\r' ∉ s.takeComment.2.rest := fun hmem => hreturn (List.mem_of_mem_drop hmem)
    have htake : (s.toCr p).takeComment = (s.takeComment.1.toCr p,
        s.takeComment.2.toCr (p.past (Text.toCr (s.rest.take (Lexeme.comment s.rest))))) := by
      rw [takeComment, hcomment]
      exact take_rule_toCr .comment comment_withinLine
    rw [blankLine_of_comment hrest, blankLine_of_comment hrest', htake, takeBreak_toCr hreturn']
    exact .emitTwo h.toPlaces hplace.toPlaces (stands_takeBreak hplace hreturn' (by decide))
  · have hnone : ∀ tail, s.rest ≠ '#' :: tail := fun tail hrest => hmark ⟨tail, hrest⟩
    have hnone' : ∀ tail, (s.toCr p).rest ≠ '#' :: tail := by
      intro tail hrest
      obtain ⟨-, rest, hsharp⟩ := eq_cons_of_withEnds .cr (by decide) hrest
      exact hnone rest hsharp
    rw [blankLine_of_not_comment hnone, blankLine_of_not_comment hnone', takeBreak_toCr hreturn]
    exact .emitOne h.toPlaces (stands_takeBreak h hreturn (by decide))

theorem openLine_toCr (h : loss.Stands s.position p) {blanks : List Char}
    (hblanks : '\n' ∉ blanks) :
    StepsAlike loss (openLine blanks s) (openLine blanks (s.toCr p)) := by
  unfold openLine
  dsimp only
  rw [toCr_width, toCr_indents, toCr_position]
  split
  · have hfeed : '\n' ∉ (String.ofList blanks).toList := by rwa [String.toList_ofList]
    have hsame : loss.behind ⟨.indent, String.ofList blanks, ⟨s.position.line, 0⟩⟩ = loss :=
      Loss.behind_of_not_mem hfeed
    refine .emit (Loses.ofLine hfeed ⟨h.line, fun _ => rfl⟩) ?_
    rw [List.foldl_cons, List.foldl_nil, hsame]
    exact h
  · split
    · refine .emit (Loses.dedents h.toPlaces _) ?_
      rw [Loss.behind_dedents]
      exact h
    · exact .error _ _

/-- **A step at the start of a line.** -/
theorem lineStart_toCr (h : loss.Stands s.position p) (hreturn : '\r' ∉ s.rest) :
    StepsAlike loss s.lineStart (s.toCr p).lineStart := by
  have hblanks : '\n' ∉ s.blanks := fun hmem =>
    Bool.false_ne_true (isIndentChar_of_mem_blanks hmem)
  have hpast : loss.Stands s.pastBlanks.position (p.past s.blanks) := h.past hblanks
  have hreturn' : '\r' ∉ s.pastBlanks.rest := by
    rw [← s.blanks_append_rest] at hreturn
    exact fun hmem => hreturn (List.mem_append_right _ hmem)
  rw [lineStart_eq, lineStart_eq, pastBlanks_toCr.1, pastBlanks_toCr.2, toCr_rest]
  cases hrest : s.pastBlanks.rest with
  | nil => exact .stop hpast
  | cons c tail =>
    by_cases hc : c = '\n'
    · subst hc
      exact blankLine_toCr hpast hreturn'
    · have hr : c ≠ '\r' := by
        rintro rfl
        exact hreturn' (hrest ▸ List.mem_cons_self)
      rw [withEnds_cons .cr tail hc]
      dsimp only
      split
      · exact blankLine_toCr hpast hreturn'
      · exact openLine_toCr hpast hblanks

/-- **A step on either text.** -/
theorem step_toCr (h : loss.Stands s.position p) (hreturn : '\r' ∉ s.rest)
    (hjoin : ¬ (s.fresh = false ∧ 0 < continuation s.rest)) :
    StepsAlike loss s.step (s.toCr p).step := by
  unfold step
  rw [toCr_fresh]
  cases hfresh : s.fresh with
  | true => exact lineStart_toCr h hreturn
  | false => exact inLine_toCr h hreturn (Nat.eq_zero_of_not_pos fun hpos => hjoin ⟨hfresh, hpos⟩)

/-! ### The whole run -/

/-- What closes the stream. -/
theorem finish_toCr (h : loss.Stands s.position p) {emitted emitted' : List Token}
    (hopen : emitted.head?.all Token.isLineEnd = emitted'.head?.all Token.isLineEnd) :
    Loses loss (s.finish emitted) ((s.toCr p).finish emitted') := by
  have hplace : loss.Places s.endPosition (s.toCr p).endPosition := Loss.Stands.endPosition h
  have hlast : Loses loss [⟨.endMarker, "", s.endPosition⟩]
      [⟨.endMarker, "", (s.toCr p).endPosition⟩] := .ofLine (by simp) hplace
  have hclosing : Loses loss
      (List.replicate s.indents.length (dedent s.endPosition) ++ [⟨.endMarker, "", s.endPosition⟩])
      (List.replicate s.indents.length (dedent (s.toCr p).endPosition)
        ++ [⟨.endMarker, "", (s.toCr p).endPosition⟩]) := by
    refine (Loses.dedents hplace _).append ?_
    rw [Loss.behind_dedents]
    exact hlast
  rw [finish_eq, finish_eq, hopen, toCr_indents, List.append_assoc, List.append_assoc]
  split
  · exact hclosing
  · have hend : Loses loss [⟨.newline, "", s.position⟩] [⟨.newline, "", p⟩] :=
      .ofLine (by simp) h.toPlaces
    exact hend.append hclosing

end ToCr

/-- A run from here comes to a backslash that joins two lines. -/
inductive Joins : Scanner → Prop
  | here {s : Scanner} (hfresh : s.fresh = false) (hjoin : 0 < continuation s.rest) : Joins s
  | later {s t : Scanner} {tokens : List Token} (hstep : s.step = .ok (.emit tokens t))
      (hjoins : Joins t) : Joins s

/-- **A run with joined lines** fails on the text with carriage returns. -/
theorem run_of_joins {s : Scanner} {loss : Loss} {p : Position} (hjoins : s.Joins)
    (h : loss.Stands s.position p) (hreturn : '\r' ∉ s.rest) (emitted : List Token) :
    ∃ q, (s.toCr p).run emitted = .error (.unexpectedCharacter q '\\') := by
  induction hjoins generalizing loss p emitted with
  | here hfresh hjoin => exact ⟨p, run_of_error (step_joined hfresh hjoin) emitted⟩
  | @later s t tokens hstep _ ih =>
    by_cases hhere : s.fresh = false ∧ 0 < continuation s.rest
    · exact ⟨p, run_of_error (step_joined hhere.1 hhere.2) emitted⟩
    · have halike := step_toCr h hreturn hhere
      rw [hstep] at halike
      generalize hstep' : (s.toCr p).step = result at halike
      cases halike with
      | emit _ hplace =>
        rw [run_of_emit hstep']
        exact ih hplace (not_mem_of_step hstep hreturn) _

/-- **A run without joined lines** fails on both texts, or its tokens lose the lines of strings. -/
theorem run_toCr {s : Scanner} {loss : Loss} {p : Position} {emitted emitted' : List Token}
    (hjoins : ¬ s.Joins) (h : loss.Stands s.position p) (hreturn : '\r' ∉ s.rest)
    (hopen : emitted.head?.all Token.isLineEnd = emitted'.head?.all Token.isLineEnd) :
    (∃ e e', s.run emitted = .error e ∧ (s.toCr p).run emitted' = .error e')
      ∨ ∃ later later', s.run emitted = .ok (emitted.reverse ++ later)
        ∧ (s.toCr p).run emitted' = .ok (emitted'.reverse ++ later') ∧ Loses loss later later' := by
  have halike := step_toCr h hreturn fun hhere => hjoins (.here hhere.1 hhere.2)
  generalize hstep' : (s.toCr p).step = result at halike
  -- The other machine follows this run state by state, with what is lost so far.
  fun_induction run s emitted generalizing loss p emitted' result with
  | case1 s emitted e hstep =>
    rw [hstep] at halike
    cases halike with
    | error _ e' => exact .inl ⟨e, e', rfl, run_of_error hstep' emitted'⟩
  | case2 s emitted last hstep =>
    rw [hstep] at halike
    cases halike with
    | stop hplace => exact .inr ⟨_, _, rfl, run_of_stop hstep' emitted', finish_toCr hplace hopen⟩
  | case3 s emitted tokens t hstep ih =>
    rw [hstep] at halike
    cases halike with
    | @emit _ tokens' _ q htokens hplace =>
      rw [run_of_emit hstep']
      have hjoins' : ¬ t.Joins := fun hlater => hjoins (.later hstep hlater)
      have hreturn' := not_mem_of_step hstep hreturn
      have halike' := step_toCr hplace hreturn' fun hhere => hjoins' (.here hhere.1 hhere.2)
      rcases ih hjoins' hplace hreturn' (openEnd_congr htokens.kinds hopen) _ rfl halike' with
        ⟨e, e', hrun, hrun'⟩ | ⟨later, later', hrun, hrun', hlater⟩
      · exact .inl ⟨e, e', hrun, hrun'⟩
      · refine .inr ⟨tokens ++ later, tokens' ++ later', ?_, ?_, htokens.append hlater⟩
        · rw [hrun]
          simp
        · rw [hrun']
          simp

end Scanner

/-! ### Where places differ -/

namespace Loss

theorem lines_le_behind (loss : Loss) (token : Token) :
    loss.lines ≤ (loss.behind token).lines := by
  unfold behind
  split
  · split <;> simp
  · exact Nat.le_refl _

theorem lines_le_foldl (loss : Loss) (tokens : List Token) :
    loss.lines ≤ (tokens.foldl behind loss).lines := by
  induction tokens generalizing loss with
  | nil => exact Nat.le_refl _
  | cons token tokens ih => exact (loss.lines_le_behind token).trans (ih _)

/-- Behind a string with a line feed some lines are lost. -/
theorem lines_lt_foldl {loss : Loss} {tokens : List Token} {token : Token} (htoken : token ∈ tokens)
    (hkind : token.kind = .string) (hfeed : '\n' ∈ token.text.toList) :
    loss.lines < (tokens.foldl behind loss).lines := by
  obtain ⟨front, back, rfl⟩ := List.append_of_mem htoken
  have hhere : ∀ loss : Loss, loss.lines < (loss.behind token).lines := by
    intro loss
    rw [behind, if_pos hfeed, if_pos hkind]
    have hpos : 0 < token.text.toList.count '\n' := List.count_pos_iff.mpr hfeed
    show loss.lines < loss.lines + _
    omega
  rw [List.foldl_append, List.foldl_cons]
  exact ((lines_le_foldl loss front).trans_lt (hhere _)).trans_le (lines_le_foldl _ back)

end Loss

namespace Loses

variable {loss : Loss} {tokens tokens' : List Token}

/-- Where no string has a line feed, nothing is lost. -/
theorem positions_eq (h : Loses .none tokens tokens')
    (hstrings : ∀ token ∈ tokens, token.kind = .string → '\n' ∉ token.text.toList) :
    tokens'.map Token.position = tokens.map Token.position := by
  generalize hloss : Loss.none = loss at h
  induction h with
  | nil => rfl
  | @cons loss token p tokens tokens' hplace hrest ih =>
    subst hloss
    have hsame : Loss.none = Loss.none.behind token := by
      unfold Loss.behind
      split
      · next hfeed =>
          rw [if_neg fun hkind => hstrings token List.mem_cons_self hkind hfeed]
          rfl
      · rfl
    rw [List.map_cons, List.map_cons, ih (fun other hother =>
      hstrings other (List.mem_cons_of_mem token hother)) hsame, ← hplace.eq_of_none]
    rfl

theorem last_place {front : List Token} {last : Token} (h : Loses loss (front ++ [last]) tokens') :
    ∃ front' p, tokens' = front' ++ [last.toCr p]
      ∧ (front.foldl Loss.behind loss).Places last.position p := by
  induction front generalizing loss tokens' with
  | nil =>
    cases h with
    | @cons _ _ p _ _ hplace hrest =>
      cases hrest
      exact ⟨[], p, rfl, hplace⟩
  | cons token front ih =>
    cases h with
    | cons _ hrest =>
      obtain ⟨front', p, rfl, hplace⟩ := ih hrest
      exact ⟨_ :: front', p, rfl, hplace⟩

/-- **The places are the same** as long as no string in front of the last token has a line feed. -/
theorem positions_iff {front : List Token} {last : Token}
    (h : Loses .none (front ++ [last]) tokens') (hlast : last.kind ≠ .string) :
    tokens'.map Token.position = (front ++ [last]).map Token.position
      ↔ ∀ token ∈ front ++ [last], token.kind = .string → '\n' ∉ token.text.toList := by
  refine ⟨fun hsame token htoken hkind hfeed => ?_, h.positions_eq⟩
  have hfront : token ∈ front := by
    rcases List.mem_append.mp htoken with hfront | hsingle
    · exact hfront
    · rw [List.mem_singleton.mp hsingle] at hkind
      exact absurd hkind hlast
  obtain ⟨front', p, rfl, hplace⟩ := h.last_place
  rw [List.map_append, List.map_append] at hsame
  have hp : p = last.position := by
    have hend := (List.append_inj' hsame rfl).2
    simpa [Token.toCr] using hend
  have hline := hplace.line
  have hlost : Loss.none.lines < (front.foldl Loss.behind .none).lines :=
    Loss.lines_lt_foldl hfront hkind hfeed
  rw [hp] at hline
  omega

end Loses

/-- What has tokens, ends with the end marker. -/
theorem endMarker_of_tokenize {source : String} {tokens : List Token}
    (h : tokenize source = .ok tokens) :
    ∃ front p, tokens = front ++ [⟨.endMarker, "", p⟩] := by
  obtain ⟨scanned, t, last, -, -, rfl⟩ := Scanner.scans_of_tokenize h
  rw [Scanner.finish_eq, ← List.append_assoc]
  exact ⟨_, _, rfl⟩

/-- **Carriage returns for line feeds.** With all its line feeds turned into carriage returns a text
has tokens just if it has some as it is and joins no lines by a backslash. They are of the same
kinds, with carriage returns in their texts, at places that lose the line feeds of strings: the same
ones just if no string has a line feed. -/
theorem tokenize_toCr (source : String) (h : '\r' ∉ source.toList) :
    ((∃ tokens', tokenize (String.ofList (Text.toCr source.toList)) = .ok tokens')
      ↔ (∃ tokens, tokenize source = .ok tokens) ∧ ¬ (Scanner.start source.toList).Joins)
    ∧ ∀ tokens tokens', tokenize source = .ok tokens →
        tokenize (String.ofList (Text.toCr source.toList)) = .ok tokens' →
        Loses .none tokens tokens'
        ∧ (tokens'.map Token.position = tokens.map Token.position
          ↔ ∀ token ∈ tokens, token.kind = .string → '\n' ∉ token.text.toList) := by
  have hplace : Loss.none.Stands (Scanner.start source.toList).position ⟨1, 0⟩ :=
    Loss.stands_none _
  have hrun : tokenize (String.ofList (Text.toCr source.toList))
      = ((Scanner.start source.toList).toCr ⟨1, 0⟩).run [] := by
    rw [tokenize, String.toList_ofList]
    rfl
  rw [hrun]
  by_cases hjoins : (Scanner.start source.toList).Joins
  · obtain ⟨q, herror⟩ := Scanner.run_of_joins hjoins hplace h []
    rw [herror]
    refine ⟨⟨?_, fun htokens => absurd hjoins htokens.2⟩, ?_⟩
    · rintro ⟨tokens', htokens'⟩
      cases htokens'
    · intro tokens tokens' _ htokens'
      cases htokens'
  · rcases Scanner.run_toCr hjoins hplace h rfl with
      ⟨e, e', herror, herror'⟩ | ⟨later, later', hok, hok', hloses⟩
    · rw [herror', tokenize, herror]
      refine ⟨⟨?_, ?_⟩, ?_⟩
      · rintro ⟨tokens', htokens'⟩
        cases htokens'
      · rintro ⟨⟨tokens, htokens⟩, -⟩
        cases htokens
      · intro tokens tokens' htokens
        cases htokens
    · refine ⟨⟨fun _ => ⟨⟨_, hok⟩, hjoins⟩, fun _ => ⟨_, hok'⟩⟩, ?_⟩
      intro tokens tokens' htokens htokens'
      have hlater : later = tokens := by
        rw [tokenize, hok] at htokens
        simpa using htokens
      have hlater' : later' = tokens' := by
        rw [hok'] at htokens'
        simpa using htokens'
      subst hlater hlater'
      obtain ⟨front, p, rfl⟩ := endMarker_of_tokenize htokens
      have hlast : TokenKind.endMarker ≠ .string := by decide
      exact ⟨hloses, hloses.positions_iff hlast⟩

/-- A string over two lines: its own line end and the line behind it come to other places. -/
theorem toCr_brokenString :
    Loses .none
      [⟨.name, "a", ⟨1, 0⟩⟩, ⟨.newline, "\n", ⟨1, 1⟩⟩, ⟨.string, "'''b\nc'''", ⟨2, 0⟩⟩,
        ⟨.newline, "\n", ⟨3, 4⟩⟩, ⟨.name, "d", ⟨4, 0⟩⟩, ⟨.newline, "", ⟨4, 1⟩⟩,
        ⟨.endMarker, "", ⟨5, 0⟩⟩]
      [⟨.name, "a", ⟨1, 0⟩⟩, ⟨.newline, "\r", ⟨1, 1⟩⟩, ⟨.string, "'''b\rc'''", ⟨2, 0⟩⟩,
        ⟨.newline, "\r", ⟨2, 9⟩⟩, ⟨.name, "d", ⟨3, 0⟩⟩, ⟨.newline, "", ⟨3, 1⟩⟩,
        ⟨.endMarker, "", ⟨4, 0⟩⟩] :=
  ((tokenize_toCr "a\n'''b\nc'''\nd" (by decide)).2 _ _ (by decide +kernel)
    (by decide +kernel)).1

/-- Two texts that have tokens, one with joined lines and one with a string over two lines: with
carriage returns the first one has none, and in the second one tokens are at other places. -/
theorem loneReturns_differ :
    (∃ tokens, tokenize "a + \\\n b" = .ok tokens
      ∧ tokenize (String.ofList (Text.toCr "a + \\\n b".toList))
        = .error (.unexpectedCharacter ⟨1, 4⟩ '\\'))
    ∧ ∃ tokens tokens', tokenize "'''a\n'''\nb" = .ok tokens
      ∧ tokenize (String.ofList (Text.toCr "'''a\n'''\nb".toList)) = .ok tokens'
      ∧ tokens'.map Token.position ≠ tokens.map Token.position := by
  constructor
  · exact ⟨[⟨.name, "a", ⟨1, 0⟩⟩, ⟨.op, "+", ⟨1, 2⟩⟩, ⟨.name, "b", ⟨2, 1⟩⟩,
      ⟨.newline, "", ⟨2, 2⟩⟩, ⟨.endMarker, "", ⟨3, 0⟩⟩], by decide +kernel, by decide +kernel⟩
  · exact ⟨[⟨.string, "'''a\n'''", ⟨1, 0⟩⟩, ⟨.newline, "\n", ⟨2, 3⟩⟩, ⟨.name, "b", ⟨3, 0⟩⟩,
        ⟨.newline, "", ⟨3, 1⟩⟩, ⟨.endMarker, "", ⟨4, 0⟩⟩],
      [⟨.string, "'''a\r'''", ⟨1, 0⟩⟩, ⟨.newline, "\r", ⟨1, 8⟩⟩, ⟨.name, "b", ⟨2, 0⟩⟩,
        ⟨.newline, "", ⟨2, 1⟩⟩, ⟨.endMarker, "", ⟨3, 0⟩⟩],
      by decide +kernel, by decide +kernel, by decide⟩

end PyStyle
