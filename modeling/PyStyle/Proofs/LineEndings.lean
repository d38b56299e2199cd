import PyStyle.Proofs.LineLexemes
import PyStyle.Proofs.TokenSpelling

/-!
# Two ways to end a line

A text whose lines end with line feeds, and the same text with a carriage return before each of
them, have the same tokens. Line breaks are found in many places of the scanner, each with its own
eye on carriage returns; a step on one text is matched by a step on the other in all of them.

- `Text.withEnds` — the text with another line end for every line feed;
- `Text.toCrlf` — the text with a carriage return before every line feed;
- `CutsAlike` — the two texts are cut at matching places;
- `stringBody_withEnds`, `lineBreak_withEnds` — the rules that see line breaks cut alike, whatever
  the line ends are, and by `LineLexemes` so do all others;
- `continuation_toCrlf` — so does the backslash that joins lines;
- `Scanner.step_toCrlf` — one step on either text;
- `tokenize_toCrlf` — the tokens of either text, or the error.
-/

namespace PyStyle

/-! ### Texts -/

namespace Text

/-- What a line can end with in place of a line feed. -/
inductive Ending where
  /-- A carriage return. -/
  | cr
  /-- A carriage return in front of the line feed. -/
  | crlf

/-- What stands behind the carriage return. -/
def Ending.tail : Ending → List Char
  | .cr => []
  | .crlf => ['\n']

/-- The text with another line end for every line feed. -/
def withEnds (e : Ending) (cs : List Char) : List Char :=
  cs.flatMap fun c => if c = '\n' then '\r' :: e.tail else [c]

/-- The text with a carriage return before every line feed. -/
def toCrlf (cs : List Char) : List Char :=
  withEnds .crlf cs

variable (e : Ending)

@[simp] theorem withEnds_nil : withEnds e [] = [] := rfl

@[simp] theorem withEnds_lineFeed (rest : List Char) :
    withEnds e ('\n' :: rest) = '\r' :: (e.tail ++ withEnds e rest) := rfl

theorem withEnds_cons {c : Char} (rest : List Char) (h : c ≠ '\n') :
    withEnds e (c :: rest) = c :: withEnds e rest := by
  simp [withEnds, h]

theorem withEnds_append (front back : List Char) :
    withEnds e (front ++ back) = withEnds e front ++ withEnds e back :=
  List.flatMap_append

/-- A text of one line stays as it is. -/
theorem withEnds_of_not_mem {cs : List Char} (h : '\n' ∉ cs) : withEnds e cs = cs := by
  induction cs with
  | nil => rfl
  | cons c rest ih =>
    have hc : '\n' ≠ c := List.ne_of_not_mem_cons h
    rw [withEnds_cons e rest hc.symm, ih (List.not_mem_of_not_mem_cons h)]

/-- Only a carriage return comes to stand in front of the text. -/
theorem eq_cons_of_withEnds {cs tail : List Char} {c : Char} (hc : c ≠ '\r')
    (h : withEnds e cs = c :: tail) : c ≠ '\n' ∧ ∃ rest, cs = c :: rest := by
  cases cs with
  | nil => cases h
  | cons d rest =>
    by_cases hd : d = '\n'
    · subst hd
      exact absurd (List.cons.inj h).1.symm hc
    · rw [withEnds_cons e rest hd] at h
      obtain rfl := (List.cons.inj h).1
      exact ⟨hd, rest, rfl⟩

/-- What a scan over characters of one line takes stays as it is. -/
theorem takeWhile_withEnds {p : Char → Bool} (h : Lexeme.AvoidsBreaks p) (cs : List Char) :
    (withEnds e cs).takeWhile p = cs.takeWhile p := by
  induction cs with
  | nil => rfl
  | cons c rest ih =>
    by_cases hc : c = '\n'
    · subst hc
      rw [withEnds_lineFeed, List.takeWhile_cons, List.takeWhile_cons, h.carriageReturn, h.lineFeed]
      rfl
    · rw [withEnds_cons e rest hc, List.takeWhile_cons, List.takeWhile_cons, ih]

theorem dropWhile_withEnds {p : Char → Bool} (h : Lexeme.AvoidsBreaks p) (cs : List Char) :
    (withEnds e cs).dropWhile p = withEnds e (cs.dropWhile p) := by
  induction cs with
  | nil => rfl
  | cons c rest ih =>
    by_cases hc : c = '\n'
    · subst hc
      rw [withEnds_lineFeed, List.dropWhile_cons, List.dropWhile_cons, h.carriageReturn, h.lineFeed]
      rfl
    · rw [withEnds_cons e rest hc, List.dropWhile_cons, List.dropWhile_cons, ih]
      split
      · rfl
      · rw [withEnds_cons e rest hc]

end Text

open Text

namespace Lexeme

variable (e : Ending)

/-- Every line end starts with a line break, so the first line is the same. -/
theorem lineOf_withEnds (cs : List Char) : lineOf (withEnds e cs) = lineOf cs :=
  takeWhile_withEnds e ⟨rfl, rfl⟩ cs

theorem lineFeed_not_mem_lineOf (cs : List Char) : '\n' ∉ lineOf cs := by
  intro h
  have hbreak := List.mem_takeWhile_imp h
  cases hbreak

/-- A rule that ends with the line says the same of both texts. -/
theorem WithinLine.withEnds {rule : List Char → Nat} (h : WithinLine rule) (cs : List Char) :
    rule (Text.withEnds e cs) = rule cs :=
  h.congr (lineOf_withEnds e cs)

/-! ### Cuts -/

/-- Cut at `n` and at `m`, the parts of one text are those of the other. -/
structure CutsAlike (cs : List Char) (n m : Nat) : Prop where
  take : (withEnds e cs).take m = withEnds e (cs.take n)
  drop : (withEnds e cs).drop m = withEnds e (cs.drop n)

/-- Any cut of one text has a cut of the other to match: behind what the part before it has become.
-/
theorem cutsAlike_length (cs : List Char) (n : Nat) :
    CutsAlike e cs n (withEnds e (cs.take n)).length := by
  have hsplit : withEnds e cs = withEnds e (cs.take n) ++ withEnds e (cs.drop n) := by
    rw [← withEnds_append, List.take_append_drop]
  constructor
  · rw [hsplit, List.take_left]
  · rw [hsplit, List.drop_left]

theorem cutsAlike_zero (cs : List Char) : CutsAlike e cs 0 0 :=
  ⟨rfl, by rw [List.drop_zero, List.drop_zero]⟩

/-- What is taken from the text stands on its first line. -/
theorem take_prefix_line {cs : List Char} {n : Nat} (h : n ≤ (lineOf cs).length) :
    cs.take n = (lineOf cs).take n := by
  have hprefix : lineOf cs <+: cs := List.takeWhile_prefix _
  obtain ⟨back, hback⟩ := hprefix
  conv_lhs => rw [← hback]
  rw [List.take_append_of_le_length h]

/-- What is taken from the line at the front has no line feed. -/
theorem lineFeed_not_mem_take {cs : List Char} {n : Nat} (h : n ≤ (lineOf cs).length) :
    '\n' ∉ cs.take n := by
  rw [take_prefix_line h]
  exact fun hmem => lineFeed_not_mem_lineOf cs (List.mem_of_mem_take hmem)

/-- A part of the first line is as long in both texts. -/
theorem length_withEnds_take {cs : List Char} {n : Nat} (h : n ≤ (lineOf cs).length) :
    (withEnds e (cs.take n)).length = n := by
  rw [withEnds_of_not_mem e (lineFeed_not_mem_take h), take_prefix_line h, List.length_take,
    Nat.min_eq_left h]

/-- Within the first line both texts are cut at the same place. -/
theorem cutsAlike_of_le_line {cs : List Char} {n : Nat} (h : n ≤ (lineOf cs).length) :
    CutsAlike e cs n n := by
  have hcut := cutsAlike_length e cs n
  rwa [length_withEnds_take e h] at hcut

/-! ### Rules that see line breaks -/

/-- A carriage return comes with what belongs to it, and no more. -/
theorem lineBreak_end (cs : List Char) :
    lineBreak ('\r' :: (e.tail ++ withEnds e cs)) = e.tail.length + 1 := by
  cases e with
  | cr =>
    have hnone : ∀ tail, withEnds .cr cs ≠ '\n' :: tail := fun tail h =>
      (eq_cons_of_withEnds .cr (by decide) h).1 rfl
    show lineBreak ('\r' :: withEnds .cr cs) = 1
    rw [lineBreak]
    exact hnone
  | crlf => rfl

/-- Where a line break is taken, it is taken whole. -/
theorem lineBreak_withEnds {cs : List Char} (h : '\r' ∉ cs) :
    CutsAlike e cs (lineBreak cs) (lineBreak (withEnds e cs))
      ∧ (lineBreak (withEnds e cs) = 0 ↔ lineBreak cs = 0) := by
  cases cs with
  | nil => exact ⟨⟨rfl, rfl⟩, Iff.rfl⟩
  | cons c rest =>
    by_cases hc : c = '\n'
    · subst hc
      have hone : lineBreak ('\n' :: rest) = 1 := by simp [lineBreak]
      have hlength : (withEnds e (('\n' :: rest).take 1)).length = e.tail.length + 1 := by simp
      rw [withEnds_lineFeed, lineBreak_end, hone, ← hlength]
      exact ⟨cutsAlike_length e _ 1, by simp⟩
    · have hr : c ≠ '\r' := Ne.symm (List.ne_of_not_mem_cons h)
      have hzero : ∀ tail, lineBreak (c :: tail) = 0 := fun tail => by simp [lineBreak, hc, hr]
      rw [show lineBreak (withEnds e (c :: rest)) = 0 by rw [withEnds_cons e rest hc, hzero], hzero]
      exact ⟨cutsAlike_zero e _, Iff.rfl⟩

/-- Closing quotes are found in both texts or in none. -/
theorem closes_withEnds {o : Opener} (hquote : isLineBreak o.quote = false) (cs : List Char) :
    closes o (withEnds e cs) = closes o cs := by
  rw [closes_lineOf hquote (withEnds e cs), lineOf_withEnds, ← closes_lineOf hquote cs]

/-- Closing quotes stand on one line. -/
theorem quotes_le_line {o : Opener} (hquote : isLineBreak o.quote = false) {cs : List Char}
    (h : closes o cs = true) : o.quotes ≤ (lineOf cs).length := by
  rw [closes_lineOf hquote, closes, List.isPrefixOf_iff_prefix] at h
  simpa using h.length_le

/-- A line break closes no string. -/
theorem closes_of_break {o : Opener} (hquote : isLineBreak o.quote = false) {c : Char}
    (hc : isLineBreak c = true) (rest : List Char) : closes o (c :: rest) = false := by
  by_contra hcloses
  have hle := quotes_le_line hquote (by simpa using hcloses)
  rw [lineOf_of_break rest hc, Opener.quotes] at hle
  split at hle <;> simp at hle

/-- Behind a backslash another character is skipped, if the two are not in front of a line feed that
belongs to them. -/
theorem stringBody_pair {o : Opener} {c : Char} {rest : List Char}
    (h : ∀ tail, c = '\r' → rest = '\n' :: tail → False) :
    stringBody o ('\\' :: c :: rest) = (stringBody o rest).map (· + 2) := by
  rw [stringBody]
  exact h

/-- Without a backslash at the front: the line may end the search, the quotes end the literal, and
any other character is passed over. -/
theorem stringBody_plain (o : Opener) {c : Char} (hc : c ≠ '\\') (rest : List Char) :
    stringBody o (c :: rest)
      = if (c == '\n' || c == '\r') && !o.triple then none
        else if closes o (c :: rest) then some o.quotes
        else (stringBody o rest).map (· + 1) := by
  rw [stringBody]
  · exact fun _ h => absurd h hc
  · exact fun _ _ h => absurd h hc
  · exact fun h => absurd h hc

/-- A backslash has something behind it or nothing, so a character that is neither is none. -/
theorem ne_backslash {c : Char} {rest : List Char}
    (hmore : ∀ head tail, c = '\\' → rest = head :: tail → False)
    (hlast : c = '\\' → rest = [] → False) : c ≠ '\\' := by
  intro hc
  cases rest with
  | nil => exact hlast hc rfl
  | cons head tail => exact hmore head tail hc rfl

/-- In a triple string a line break is text like any other. -/
theorem stringBody_break {o : Opener} (hquote : isLineBreak o.quote = false)
    (htriple : o.triple = true) {c : Char} (hc : isLineBreak c = true) (rest : List Char) :
    stringBody o (c :: rest) = (stringBody o rest).map (· + 1) := by
  have hplain : c ≠ '\\' := by
    rintro rfl
    cases hc
  rw [stringBody_plain o hplain, htriple, Bool.not_true, Bool.and_false,
    if_neg Bool.false_ne_true, closes_of_break hquote hc, if_neg Bool.false_ne_true]

/-- Behind a backslash a line end is skipped whole. -/
theorem stringBody_escapedEnd (o : Opener) (cs : List Char) :
    stringBody o ('\\' :: '\r' :: (e.tail ++ withEnds e cs))
      = (stringBody o (withEnds e cs)).map (· + (e.tail.length + 2)) := by
  cases e with
  | cr =>
    refine stringBody_pair fun tail _ h => ?_
    exact (eq_cons_of_withEnds .cr (by decide) h).1 rfl
  | crlf =>
    show stringBody o ('\\' :: '\r' :: '\n' :: withEnds .crlf cs) = _
    rw [stringBody]
    rfl

/-- In a triple string a line end is read character by character. -/
theorem stringBody_bareEnd {o : Opener} (hquote : isLineBreak o.quote = false)
    (htriple : o.triple = true) (cs : List Char) :
    stringBody o ('\r' :: (e.tail ++ cs)) = (stringBody o cs).map (· + (e.tail.length + 1)) := by
  rw [stringBody_break hquote htriple rfl]
  cases e with
  | cr => rfl
  | crlf =>
    show (stringBody o ('\n' :: cs)).map _ = _
    rw [stringBody_break hquote htriple rfl, Option.map_map]
    rfl

/-- **A string literal ends at matching places**: an escaped line break is skipped whole, a bare
one ends the search or not whatever it is made of, and quotes are no part of it. -/
theorem stringBody_withEnds {o : Opener} (hquote : isLineBreak o.quote = false) {cs : List Char}
    (h : '\r' ∉ cs) :
    stringBody o (withEnds e cs)
      = (stringBody o cs).map fun n => (withEnds e (cs.take n)).length := by
  fun_induction stringBody o cs with
  | case1 => rfl
  | case2 rest ih => simp at h
  | case3 c rest hc ih =>
    have hr : c ≠ '\r' := by
      rintro rfl
      simp at h
    have ih := ih fun hmem => h (by simp [hmem])
    by_cases hn : c = '\n'
    · subst hn
      rw [withEnds_cons e _ (by decide), withEnds_lineFeed, stringBody_escapedEnd, ih,
        Option.map_map, Option.map_map]
      congr 1
      funext n
      simp [withEnds_cons]
      omega
    · rw [withEnds_cons e _ (by decide), withEnds_cons e _ hn,
        stringBody_pair fun _ hreturn => absurd hreturn hr, ih, Option.map_map, Option.map_map]
      congr 1
      funext n
      simp [withEnds_cons e _ hn, withEnds_cons]
  | case4 => rfl
  | case5 c rest _ hmore hlast hends =>
    have hr : c ≠ '\r' := Ne.symm (List.ne_of_not_mem_cons h)
    obtain ⟨rfl, htriple⟩ : c = '\n' ∧ o.triple = false := by simpa [hr] using hends
    rw [withEnds_lineFeed, stringBody_plain o (by decide), htriple]
    rfl
  | case6 c rest _ hmore hlast hends hcloses =>
    have hc : c ≠ '\n' := by
      rintro rfl
      rw [closes_of_break hquote rfl] at hcloses
      cases hcloses
    have hcloses' : closes o (c :: withEnds e rest) = true := by
      rw [← withEnds_cons e rest hc, closes_withEnds e hquote, hcloses]
    rw [withEnds_cons e rest hc, stringBody_plain o (ne_backslash hmore hlast), if_neg hends,
      if_pos hcloses', Option.map_some, length_withEnds_take e (quotes_le_line hquote hcloses)]
  | case7 c rest _ hmore hlast hends hcloses ih =>
    have ih := ih (List.not_mem_of_not_mem_cons h)
    by_cases hc : c = '\n'
    · subst hc
      -- Only a triple string goes on here.
      have htriple : o.triple = true := by simpa using hends
      rw [withEnds_lineFeed, stringBody_bareEnd e hquote htriple, ih, Option.map_map,
        Option.map_map]
      congr 1
      funext n
      simp
      omega
    · have hcloses' : ¬ closes o (c :: withEnds e rest) = true := by
        rwa [← withEnds_cons e rest hc, closes_withEnds e hquote]
      rw [withEnds_cons e rest hc, stringBody_plain o (ne_backslash hmore hlast), if_neg hends,
        if_neg hcloses', ih, Option.map_map, Option.map_map]
      congr 1
      funext n
      simp [withEnds_cons e _ hc]

theorem opener?_withEnds (cs : List Char) : opener? (withEnds e cs) = opener? cs :=
  opener?_congr (lineOf_withEnds e cs)

/-- A whole literal, its opener included, ends at matching places. -/
theorem stringLiteral_withEnds {o : Opener} {cs : List Char} (hopener : opener? cs = some o)
    (h : '\r' ∉ cs) :
    stringLiteral o (withEnds e cs)
      = (stringLiteral o cs).map fun n => (withEnds e (cs.take n)).length := by
  obtain ⟨hquote, hlength⟩ := opener?_eq_some (opener?_lineOf cs ▸ hopener)
  have hbreak : isLineBreak o.quote = false := by
    rcases hquote with hquote | hquote <;> rw [hquote] <;> rfl
  have hbody : '\r' ∉ cs.drop o.length := fun hmem => h (List.mem_of_mem_drop hmem)
  rw [stringLiteral, stringLiteral, (cutsAlike_of_le_line e hlength).drop,
    stringBody_withEnds e hbreak hbody, Option.map_map, Option.map_map]
  congr 1
  funext n
  -- The opener stands on one line and so keeps its length.
  show (withEnds e ((cs.drop o.length).take n)).length + o.length
    = (withEnds e (cs.take (n + o.length))).length
  rw [Nat.add_comm n, List.take_add, withEnds_append, List.length_append,
    length_withEnds_take e hlength, Nat.add_comm]

end Lexeme

/-! ### One step -/

/-- The token with a carriage return before every line feed. -/
def Token.toCrlf (token : Token) : Token :=
  { token with text := String.ofList (withEnds .crlf token.text.toList) }

@[simp] theorem Token.toCrlf_kind (token : Token) : token.toCrlf.kind = token.kind := rfl

/-- A token of one line stays as it is. -/
theorem Token.toCrlf_of_not_mem {token : Token} (h : '\n' ∉ token.text.toList) :
    token.toCrlf = token := by
  rw [Token.toCrlf, Text.withEnds_of_not_mem .crlf h, String.ofList_toList]

/-- A carriage return in front of a line feed does not move the position. -/
theorem Position.past_toCrlf (p : Position) (text : List Char) :
    p.past (withEnds .crlf text) = p.past text := by
  induction text generalizing p with
  | nil => rfl
  | cons c rest ih =>
    by_cases hc : c = '\n'
    · subst hc
      exact ih _
    · rw [withEnds_cons .crlf rest hc]
      exact ih _

namespace Scanner

open Lexeme

/-- The machine before the text with carriage returns. -/
def toCrlf (s : Scanner) : Scanner :=
  { s with rest := withEnds .crlf s.rest }

@[simp] theorem toCrlf_rest (s : Scanner) : s.toCrlf.rest = withEnds .crlf s.rest := rfl

@[simp] theorem toCrlf_position (s : Scanner) : s.toCrlf.position = s.position := rfl

@[simp] theorem toCrlf_indents (s : Scanner) : s.toCrlf.indents = s.indents := rfl

@[simp] theorem toCrlf_width (s : Scanner) : s.toCrlf.width = s.width := rfl

@[simp] theorem toCrlf_fresh (s : Scanner) : s.toCrlf.fresh = s.fresh := rfl

/-- What the machine before the text with carriage returns does in the step. -/
def Step.toCrlf : Step → Step
  | .emit tokens next => .emit (tokens.map Token.toCrlf) next.toCrlf
  | .stop last => .stop last.toCrlf

/-- A token is taken alike where the cuts match: its text differs in the line ends only. -/
theorem take_toCrlf (s : Scanner) (kind : TokenKind) {n m : Nat} (h : CutsAlike .crlf s.rest n m) :
    s.toCrlf.take kind m = ((s.take kind n).1.toCrlf, (s.take kind n).2.toCrlf) := by
  simp only [take, toCrlf, Token.toCrlf, h.take, h.drop, Position.past_toCrlf,
    String.toList_ofList]

/-- A rule that ends with the line takes the same characters. -/
theorem take_rule_toCrlf (s : Scanner) (kind : TokenKind) {rule : List Char → Nat}
    (h : WithinLine rule) :
    s.toCrlf.take kind (rule s.rest)
      = ((s.take kind (rule s.rest)).1.toCrlf, (s.take kind (rule s.rest)).2.toCrlf) :=
  s.take_toCrlf kind (cutsAlike_of_le_line .crlf (h.le_line s.rest))

/-- A line break is taken as one token, whatever it is made of. -/
theorem takeBreak_toCrlf {s : Scanner} (h : '\r' ∉ s.rest) (kind : TokenKind) :
    s.toCrlf.takeBreak kind = ((s.takeBreak kind).1.toCrlf, (s.takeBreak kind).2.toCrlf) := by
  obtain ⟨hcut, hzero⟩ := lineBreak_withEnds .crlf h
  simp only [takeBreak, toCrlf, Token.toCrlf, hcut.take, hcut.drop, hzero, String.toList_ofList]

/-- Each lexeme of a line is taken alike. A string is the only one that sees line ends. -/
theorem lexeme_toCrlf {s : Scanner} (h : '\r' ∉ s.rest) (c : Char) :
    s.toCrlf.lexeme c = (s.lexeme c).map Step.toCrlf := by
  unfold lexeme
  rw [toCrlf_rest, opener?_withEnds]
  cases hopener : opener? s.rest with
  | some o =>
    dsimp only
    rw [stringLiteral_withEnds .crlf hopener h]
    cases stringLiteral o s.rest with
    | none => rfl
    | some n =>
      dsimp only [Option.map_some]
      rw [take_toCrlf s .string (cutsAlike_length .crlf s.rest n)]
      rfl
  | none =>
    -- The text of an operator says its kind and the new depth, so it has to be the same text.
    have hle := operator_withinLine.le_line s.rest
    have hoperator : (withEnds .crlf s.rest).take (operator s.rest)
        = s.rest.take (operator s.rest) := by
      rw [(cutsAlike_of_le_line .crlf hle).take,
        withEnds_of_not_mem .crlf (lineFeed_not_mem_take hle)]
    dsimp only
    rw [number_withinLine.withEnds, name_withinLine.withEnds, operator_withinLine.withEnds,
      s.take_rule_toCrlf .number number_withinLine, s.take_rule_toCrlf .name name_withinLine,
      s.take_rule_toCrlf _ operator_withinLine, hoperator]
    split
    · rfl
    · split
      · rfl
      · split <;> rfl

theorem continuation_of_ne {c : Char} (hc : c ≠ '\\') (rest : List Char) :
    continuation (c :: rest) = 0 := by
  simp [continuation, hc]

theorem continuation_of_ne_break {c : Char} (hn : c ≠ '\n') (hr : c ≠ '\r') (rest : List Char) :
    continuation ('\\' :: c :: rest) = 0 := by
  simp [continuation, hn, hr]

/-- A backslash joins the same two lines, whatever the first one ends with. -/
theorem continuation_toCrlf {cs : List Char} (h : '\r' ∉ cs) :
    CutsAlike .crlf cs (continuation cs) (continuation (withEnds .crlf cs))
      ∧ (0 < continuation (withEnds .crlf cs) ↔ 0 < continuation cs) := by
  -- Where neither text has lines to join, both cuts are at zero.
  have hnone : continuation cs = 0 → continuation (withEnds .crlf cs) = 0 →
      CutsAlike .crlf cs (continuation cs) (continuation (withEnds .crlf cs))
        ∧ (0 < continuation (withEnds .crlf cs) ↔ 0 < continuation cs) := by
    intro hleft hright
    rw [hleft, hright]
    exact ⟨cutsAlike_zero .crlf cs, Iff.rfl⟩
  cases cs with
  | nil => exact hnone rfl rfl
  | cons c rest =>
    by_cases hc : c = '\\'
    · subst hc
      cases rest with
      | nil => exact hnone rfl rfl
      | cons d rest =>
        by_cases hd : d = '\n'
        · subst hd
          exact ⟨⟨rfl, rfl⟩, ⟨fun _ => Nat.zero_lt_two, fun _ => Nat.zero_lt_succ 2⟩⟩
        · have hr : d ≠ '\r' := by
            rintro rfl
            simp at h
          refine hnone (continuation_of_ne_break hd hr rest) ?_
          rw [withEnds_cons .crlf _ (by decide), withEnds_cons .crlf _ hd]
          exact continuation_of_ne_break hd hr _
    · refine hnone (continuation_of_ne hc rest) ?_
      by_cases hn : c = '\n'
      · subst hn
        rfl
      · rw [withEnds_cons .crlf _ hn]
        exact continuation_of_ne hc _

/-- Where a line ends: inside brackets the line break is a blank line. -/
theorem inLine_of_break {s : Scanner} {c : Char} {rest : List Char} (hrest : s.rest = c :: rest)
    (hc : isLineBreak c = true) :
    s.inLine = .ok (.emit [(s.takeBreak (if s.depth = 0 then .newline else .blankLine)).1]
      (s.takeBreak (if s.depth = 0 then .newline else .blankLine)).2) := by
  unfold inLine
  rw [hrest]
  rcases eq_of_isLineBreak hc with rfl | rfl <;> rfl

/-- Elsewhere on a line, in the order in which the scanner tries: a blank, a joined line, a comment,
a lexeme. -/
theorem inLine_of_not_break {s : Scanner} {c : Char} {rest : List Char}
    (hrest : s.rest = c :: rest) (hc : isLineBreak c = false) :
    s.inLine = if isIndentChar c then
        .ok (.emit [] { s with rest := rest, position := s.position.pastChar c })
      else if 0 < continuation s.rest then
        .ok (.emit [] { s with
          rest := s.rest.drop (continuation s.rest)
          position := s.position.nextLine })
      else if c == '#' then
        .ok (.emit [(s.take .comment (Lexeme.comment s.rest)).1]
          (s.take .comment (Lexeme.comment s.rest)).2)
      else s.lexeme c := by
  unfold inLine
  rw [hrest]
  dsimp only
  rw [hc]
  rfl

/-- One step on a line, by what stands at the front of the text. -/
theorem inLine_toCrlf {s : Scanner} (h : '\r' ∉ s.rest) :
    s.toCrlf.inLine = s.inLine.map Step.toCrlf := by
  cases hrest : s.rest with
  | nil =>
    have hrest' : s.toCrlf.rest = [] := by rw [toCrlf_rest, hrest, withEnds_nil]
    unfold inLine
    rw [hrest, hrest']
    rfl
  | cons c rest =>
    have hr : c ≠ '\r' := by
      rintro rfl
      simp [hrest] at h
    by_cases hc : c = '\n'
    · subst hc
      have hrest' : s.toCrlf.rest = '\r' :: '\n' :: withEnds .crlf rest := by
        rw [toCrlf_rest, hrest, withEnds_lineFeed]
        rfl
      rw [inLine_of_break hrest rfl, inLine_of_break hrest' rfl, takeBreak_toCrlf h]
      rfl
    · have hbreak : isLineBreak c = false := by simp [isLineBreak, hr, hc]
      have hrest' : s.toCrlf.rest = c :: withEnds .crlf rest := by
        rw [toCrlf_rest, hrest, withEnds_cons .crlf rest hc]
      obtain ⟨hcut, hjoin⟩ := continuation_toCrlf h
      rw [inLine_of_not_break hrest hbreak, inLine_of_not_break hrest' hbreak, toCrlf_rest,
        comment_withinLine.withEnds, s.take_rule_toCrlf .comment comment_withinLine,
        lexeme_toCrlf h, hcut.drop]
      simp only [hjoin]
      split
      · rfl
      · split
        · rfl
        · split <;> rfl

/-! ### The start of a line -/

/-- The indentation is the same, as it has no line break in it. -/
theorem blanks_toCrlf (s : Scanner) : s.toCrlf.blanks = s.blanks :=
  takeWhile_withEnds .crlf ⟨rfl, rfl⟩ s.rest

theorem pastBlanks_toCrlf (s : Scanner) : s.toCrlf.pastBlanks = s.pastBlanks.toCrlf := by
  rw [pastBlanks, blanks_toCrlf, toCrlf, dropWhile_withEnds .crlf ⟨rfl, rfl⟩]
  rfl

/-- A comment on a line of its own is a token, and the end of its line another one. -/
theorem blankLine_of_comment {s : Scanner} {tail : List Char} (h : s.rest = '#' :: tail) :
    Scanner.blankLine s
      = .emit [s.takeComment.1, (s.takeComment.2.takeBreak .blankLine).1]
          { (s.takeComment.2.takeBreak .blankLine).2 with fresh := true } := by
  unfold Scanner.blankLine
  split
  · rfl
  · next hnone => exact absurd h (hnone tail)

theorem blankLine_of_not_comment {s : Scanner} (h : ∀ tail, s.rest ≠ '#' :: tail) :
    Scanner.blankLine s
      = .emit [(s.takeBreak .blankLine).1] { (s.takeBreak .blankLine).2 with fresh := true } := by
  unfold Scanner.blankLine
  split
  · next tail hrest => exact absurd hrest (h tail)
  · rfl

/-- A line without code is passed over alike, with a comment on it or without one. -/
theorem blankLine_toCrlf {s : Scanner} (h : '\r' ∉ s.rest) :
    Scanner.blankLine s.toCrlf = (Scanner.blankLine s).toCrlf := by
  by_cases hcomment : ∃ tail, s.rest = '#' :: tail
  · obtain ⟨tail, hrest⟩ := hcomment
    have hrest' : s.toCrlf.rest = '#' :: withEnds .crlf tail := by
      rw [toCrlf_rest, hrest, withEnds_cons .crlf tail (by decide)]
    have htake : s.toCrlf.takeComment = (s.takeComment.1.toCrlf, s.takeComment.2.toCrlf) := by
      rw [takeComment, toCrlf_rest, comment_withinLine.withEnds]
      exact s.take_rule_toCrlf .comment comment_withinLine
    have hbehind : '\r' ∉ s.takeComment.2.rest := fun hmem => h (List.mem_of_mem_drop hmem)
    rw [blankLine_of_comment hrest, blankLine_of_comment hrest', htake,
      takeBreak_toCrlf hbehind]
    rfl
  · have hnone : ∀ tail, s.rest ≠ '#' :: tail := fun tail hrest => hcomment ⟨tail, hrest⟩
    have hnone' : ∀ tail, s.toCrlf.rest ≠ '#' :: tail := by
      intro tail hrest
      exact hcomment ((eq_cons_of_withEnds .crlf (by decide) hrest).2)
    rw [blankLine_of_not_comment hnone, blankLine_of_not_comment hnone', takeBreak_toCrlf h]
    rfl

/-- The width of the indentation decides what is opened or closed, and both machines see the same
width. -/
theorem openLine_toCrlf {blanks : List Char} (hblanks : '\n' ∉ blanks) (s : Scanner) :
    openLine blanks s.toCrlf = (openLine blanks s).map Step.toCrlf := by
  unfold openLine
  dsimp only
  rw [toCrlf_width, toCrlf_indents, toCrlf_position]
  split
  · -- The indentation is part of one line, and so is the token.
    have hindent : (⟨.indent, String.ofList blanks, ⟨s.position.line, 0⟩⟩ : Token).toCrlf
        = ⟨.indent, String.ofList blanks, ⟨s.position.line, 0⟩⟩ :=
      Token.toCrlf_of_not_mem (by rwa [String.toList_ofList])
    show _ = Except.ok (Step.emit [Token.toCrlf _] _)
    rw [hindent]
    rfl
  · split
    · show _ = Except.ok (Step.emit (List.map Token.toCrlf _) _)
      rw [List.map_replicate]
      rfl
    · rfl

/-- One step at the start of a line: a blank line, the end of the text, or a line with code. -/
theorem lineStart_toCrlf {s : Scanner} (h : '\r' ∉ s.rest) :
    s.toCrlf.lineStart = s.lineStart.map Step.toCrlf := by
  have hinner : '\r' ∉ s.pastBlanks.rest := by
    rw [← s.blanks_append_rest] at h
    exact fun hmem => h (List.mem_append_right _ hmem)
  have hblanks : '\n' ∉ s.blanks := fun hmem =>
    Bool.false_ne_true (isIndentChar_of_mem_blanks hmem)
  rw [lineStart_eq, lineStart_eq, pastBlanks_toCrlf, blanks_toCrlf, blankLine_toCrlf hinner,
    openLine_toCrlf hblanks]
  cases hrest : s.pastBlanks.rest with
  | nil =>
    rw [toCrlf_rest, hrest]
    rfl
  | cons c rest =>
    by_cases hc : c = '\n'
    · subst hc
      rw [toCrlf_rest, hrest]
      rfl
    · rw [toCrlf_rest, hrest, withEnds_cons .crlf rest hc]
      dsimp only
      split <;> rfl

/-- **One step on either text**: the same tokens up to line ends, and machines that match again. -/
theorem step_toCrlf {s : Scanner} (h : '\r' ∉ s.rest) :
    s.toCrlf.step = s.step.map Step.toCrlf := by
  unfold step
  rw [toCrlf_fresh]
  split
  · exact lineStart_toCrlf h
  · exact inLine_toCrlf h

/-! ### The whole run -/

/-- What is added at the end depends on the kind of the last token. -/
theorem finish_toCrlf (s : Scanner) (emitted : List Token) :
    s.toCrlf.finish (emitted.map Token.toCrlf) = (s.finish emitted).map Token.toCrlf := by
  unfold finish
  dsimp only
  rw [List.map_append, List.map_append, List.map_replicate]
  cases emitted with
  | nil => rfl
  | cons token emitted =>
    rw [List.map_cons]
    dsimp only
    rw [Token.toCrlf_kind]
    split <;> rfl

/-- What a step leaves is the back of what it had. -/
theorem not_mem_of_step {s t : Scanner} {tokens : List Token} {c : Char}
    (hstep : s.step = .ok (.emit tokens t)) (h : c ∉ s.rest) : c ∉ t.rest := by
  obtain ⟨text, hrest, -⟩ := spells_of_move (move_of_step hstep)
  rw [hrest] at h
  exact fun hmem => h (List.mem_append_right _ hmem)

/-- **A whole run on either text**, from any two machines that match. -/
theorem run_toCrlf {s : Scanner} (emitted : List Token) (h : '\r' ∉ s.rest) :
    s.toCrlf.run (emitted.map Token.toCrlf)
      = (s.run emitted).map (List.map Token.toCrlf) := by
  -- The two machines go through matching states, so the induction is on one of the runs.
  fun_induction run s emitted with
  | case1 s emitted e hstep =>
    have hstep' : s.toCrlf.step = .error e := by
      rw [step_toCrlf h, hstep]
      rfl
    rw [run_of_error hstep']
    rfl
  | case2 s emitted last hstep =>
    have hstep' : s.toCrlf.step = .ok (.stop last.toCrlf) := by
      rw [step_toCrlf h, hstep]
      rfl
    rw [run_of_stop hstep', finish_toCrlf, ← List.map_reverse, ← List.map_append]
    rfl
  | case3 s emitted tokens next hstep ih =>
    have hstep' : s.toCrlf.step = .ok (.emit (tokens.map Token.toCrlf) next.toCrlf) := by
      rw [step_toCrlf h, hstep]
      rfl
    rw [run_of_emit hstep', ← List.map_reverse, ← List.map_append, ih (not_mem_of_step hstep h)]

end Scanner

/-- **Line endings do not matter**: a text without carriage returns and the same text with one
before every line feed have the same tokens, of the same kinds and in the same places, and their
texts differ in the line endings only; or neither has tokens, for the same reason. -/
theorem tokenize_toCrlf (source : String) (h : '\r' ∉ source.toList) :
    tokenize (String.ofList (toCrlf source.toList))
      = (tokenize source).map (List.map Token.toCrlf) := by
  rw [tokenize, String.toList_ofList]
  exact (Scanner.start source.toList).run_toCrlf [] h

/-- A call over three lines: an escaped line break in a string, one inside the bracket, one that
joins two lines. -/
theorem tokenize_brokenCall_toCrlf :
    tokenize "f('a\\\r\nb',\r\n  c \\\r\n)"
      = .ok [⟨.name, "f", ⟨1, 0⟩⟩, ⟨.op, "(", ⟨1, 1⟩⟩, ⟨.string, "'a\\\r\nb'", ⟨1, 2⟩⟩,
          ⟨.op, ",", ⟨2, 2⟩⟩, ⟨.blankLine, "\r\n", ⟨2, 3⟩⟩, ⟨.name, "c", ⟨3, 2⟩⟩,
          ⟨.op, ")", ⟨4, 0⟩⟩, ⟨.newline, "", ⟨4, 1⟩⟩, ⟨.endMarker, "", ⟨5, 0⟩⟩] := by
  have hplain : tokenize "f('a\\\nb',\n  c \\\n)"
      = .ok [⟨.name, "f", ⟨1, 0⟩⟩, ⟨.op, "(", ⟨1, 1⟩⟩, ⟨.string, "'a\\\nb'", ⟨1, 2⟩⟩,
          ⟨.op, ",", ⟨2, 2⟩⟩, ⟨.blankLine, "\n", ⟨2, 3⟩⟩, ⟨.name, "c", ⟨3, 2⟩⟩,
          ⟨.op, ")", ⟨4, 0⟩⟩, ⟨.newline, "", ⟨4, 1⟩⟩, ⟨.endMarker, "", ⟨5, 0⟩⟩] := by
    decide +kernel
  have hcrlf := tokenize_toCrlf "f('a\\\nb',\n  c \\\n)" (by decide)
  rw [hplain] at hcrlf
  exact hcrlf

end PyStyle
