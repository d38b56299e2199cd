import PyStyle.Proofs.LineIndents
import PyStyle.Proofs.StringLiterals

/-!
# Tokens come in reading order

A carriage return of its own ends a line or not, depending on where it stands, so it takes more
than the text to say which line a token is on. Whatever the line ends are, the tokens of a text come
one behind the other.

- `Position.Leads` — a text takes one from one place to another;
- `Ascends` — tokens spell a text, each at the place to which the text before it leads;
- `Scanner.ascends_of_move`, `Scanner.ascends_of_scans` — what a step, and what a run, emits;
- `tokenize_ordered` — **the tokens of a text come in reading order**.
-/

namespace PyStyle

/-! ### From one place to another -/

namespace Position

/-- The text leads from the place `p` to `q`: further on, if there is any text, and not to another
line without a line break. -/
structure Leads (p : Position) (text : List Char) (q : Position) : Prop where
  empty : text = [] → q = p
  later : text ≠ [] → p.before q
  line : '\n' ∉ text → '\r' ∉ text → q.line = p.line

theorem before_iff {p q : Position} :
    p.before q ↔ p.line < q.line ∨ p.line = q.line ∧ p.column < q.column := by
  simp [before]

theorem before_trans_upTo {p q r : Position} (h : p.before q) (h' : q.UpTo r) : p.before r := by
  rw [before_iff] at *
  unfold UpTo at h'
  omega

theorem upTo_of_before {p q : Position} (h : p.before q) : p.UpTo q := by
  rw [before_iff] at h
  unfold UpTo
  omega

/-- Any character leads on: a line feed to the next line, the others to the next column. -/
theorem before_pastChar (p : Position) (c : Char) : p.before (p.pastChar c) := by
  rw [before_iff, pastChar]
  split <;> simp

namespace Leads

theorem refl (p : Position) : p.Leads [] p :=
  ⟨fun _ => rfl, fun h => absurd rfl h, fun _ _ => rfl⟩

variable {p q r : Position} {text text' : List Char}

theorem upTo (h : p.Leads text q) : p.UpTo q := by
  by_cases htext : text = []
  · rw [h.empty htext]
    exact .refl p
  · exact upTo_of_before (h.later htext)

/-- Ways are put together, with the texts that they are made of. -/
theorem append (h : p.Leads text q) (h' : q.Leads text' r) : p.Leads (text ++ text') r where
  empty hnil := by
    obtain ⟨htext, htext'⟩ := List.append_eq_nil_iff.mp hnil
    rw [h'.empty htext', h.empty htext]
  later hne := by
    by_cases htext : text = []
    · have hq : q = p := h.empty htext
      rw [htext, List.nil_append] at hne
      exact hq ▸ h'.later hne
    · exact before_trans_upTo (h.later htext) h'.upTo
  line hfeed hreturn := by
    rw [List.mem_append, not_or] at hfeed hreturn
    rw [h'.line hfeed.2 hreturn.2, h.line hfeed.1 hreturn.1]

end Leads

/-- Counting characters leads on. -/
theorem leads_past (p : Position) (text : List Char) : p.Leads text (p.past text) := by
  induction text generalizing p with
  | nil => exact .refl p
  | cons c text ih =>
    have hchar : p.Leads [c] (p.pastChar c) := by
      refine ⟨nofun, fun _ => p.before_pastChar c, fun hfeed _ => ?_⟩
      rw [pastChar, if_neg (by simpa using Ne.symm (List.ne_of_not_mem_cons hfeed))]
    exact hchar.append (ih (p.pastChar c))

theorem past_append (p : Position) (front back : List Char) :
    p.past (front ++ back) = (p.past front).past back :=
  List.foldl_append

/-- Inside a line each character leads one column on. -/
theorem past_column_of_line (p : Position) {text : List Char} (h : '\n' ∉ text) :
    (p.past text).column = p.column + text.length := by
  induction text generalizing p with
  | nil => rfl
  | cons c text ih =>
    rw [List.mem_cons, not_or] at h
    have hchar : (p.pastChar c).column = p.column + 1 := by
      simp [pastChar, Ne.symm h.1]
    show ((p.pastChar c).past text).column = _
    rw [ih _ h.2, hchar, List.length_cons]
    omega

/-- So does the next line, behind a line break. -/
theorem leads_nextLine (p : Position) {text : List Char} (h : '\n' ∈ text ∨ '\r' ∈ text) :
    p.Leads text p.nextLine := by
  refine ⟨?_, fun _ => before_iff.mpr (.inl (Nat.lt_succ_self _)), fun hfeed hreturn => ?_⟩
  · rintro rfl
    simp at h
  · exact absurd h (not_or.mpr ⟨hfeed, hreturn⟩)

end Position

/-! ### Tokens in reading order -/

/-- From the place `p` to `q` the tokens spell the text as in `Spells`, and each of them stands at
the place to which the text before it leads. -/
inductive Ascends : Position → List Token → List Char → Position → Prop
  | nil {p q : Position} {gap : List Char} (hgap : Gap gap) (hplace : p.Leads gap q) :
      Ascends p [] gap q
  | cons {p q r : Position} {gap rest : List Char} {token : Token} {tokens : List Token}
      (hgap : Gap gap) (hplace : p.Leads gap token.position)
      (htoken : token.position.Leads token.text.toList q) (hrest : Ascends q tokens rest r) :
      Ascends p (token :: tokens) (gap ++ (token.text.toList ++ rest)) r

namespace Ascends

variable {p q r : Position} {text text' gap : List Char} {token : Token}
  {tokens tokens' : List Token}

/-- Blanks and joined lines in front leave the order of the tokens as it is. -/
theorem gap_append (hgap : Gap gap) (hplace : p.Leads gap q) (h : Ascends q tokens text r) :
    Ascends p tokens (gap ++ text) r := by
  cases h with
  | nil hrest hend => exact .nil (hgap.append hrest) (hplace.append hend)
  | cons hrest hfirst htoken htail =>
    rw [← List.append_assoc]
    exact .cons (hgap.append hrest) (hplace.append hfirst) htoken htail

theorem append (h : Ascends p tokens text q) (h' : Ascends q tokens' text' r) :
    Ascends p (tokens ++ tokens') (text ++ text') r := by
  induction h with
  | nil hgap hplace => exact h'.gap_append hgap hplace
  | cons hgap hplace htoken _ ih =>
    rw [List.append_assoc, List.append_assoc]
    exact .cons hgap hplace htoken (ih h')

theorem singleton (h : token.position.Leads token.text.toList q) :
    Ascends token.position [token] token.text.toList q := by
  have htoken : Ascends token.position [token] ([] ++ (token.text.toList ++ [])) q :=
    .cons .nil (.refl _) h (.nil .nil (.refl q))
  simpa using htoken

/-- Tokens without text that stand at one place lead nowhere. -/
theorem silent (h : ∀ token ∈ tokens, token.text = "" ∧ token.position = p) :
    Ascends p tokens [] p := by
  induction tokens with
  | nil => exact .nil .nil (.refl p)
  | cons token tokens ih =>
    obtain ⟨⟨htext, rfl⟩, htokens⟩ := List.forall_mem_cons.mp h
    have htoken : token.position.Leads token.text.toList token.position := by
      simpa [htext] using Position.Leads.refl token.position
    simpa [htext] using (singleton htoken).append (ih htokens)

theorem upTo (h : Ascends p tokens text q) : p.UpTo q := by
  induction h with
  | nil _ hplace => exact hplace.upTo
  | cons _ hplace htoken _ ih => exact (hplace.upTo.trans htoken.upTo).trans ih

/-- The tokens stand between the two places, those with text before the second one. -/
theorem between (h : Ascends p tokens text q) :
    ∀ token ∈ tokens, p.UpTo token.position ∧ token.position.UpTo q
      ∧ (token.text ≠ "" → token.position.before q) := by
  induction h with
  | nil => simp
  | @cons p q r gap rest token tokens _ hplace htoken hrest ih =>
    refine List.forall_mem_cons.mpr
      ⟨⟨hplace.upTo, htoken.upTo.trans hrest.upTo, fun htext => ?_⟩, ?_⟩
    · have hne : token.text.toList ≠ [] := by simpa using htext
      exact Position.before_trans_upTo (htoken.later hne) hrest.upTo
    · intro later hlater
      obtain ⟨hfirst, hlast⟩ := ih later hlater
      exact ⟨(hplace.upTo.trans htoken.upTo).trans hfirst, hlast⟩

/-- A token stands before all that come behind its text. -/
theorem pairwise (h : Ascends p tokens text q) :
    tokens.Pairwise fun token later => token.position.UpTo later.position
      ∧ (token.text ≠ "" → token.position.before later.position) := by
  induction h with
  | nil => exact .nil
  | @cons p q r gap rest token tokens _ _ htoken hrest ih =>
    refine List.pairwise_cons.mpr ⟨fun later hlater => ?_, ih⟩
    have hfirst := (hrest.between later hlater).1
    refine ⟨htoken.upTo.trans hfirst, fun htext => ?_⟩
    have hne : token.text.toList ≠ [] := by simpa using htext
    exact Position.before_trans_upTo (htoken.later hne) hfirst

/-- The text before a token leads to it. -/
theorem spellsAt {start : Position} {before : List Char} (h : Ascends p tokens text q)
    (hstart : start.Leads before p) :
    SpellsAt (fun before token => start.Leads before token.position) before tokens text := by
  induction h generalizing before with
  | nil hgap _ => exact .nil hgap
  | cons hgap hplace htoken _ ih =>
    have hfits := hstart.append hplace
    exact .cons hgap hfits (ih (hfits.append htoken))

end Ascends

/-- What fits by one measure fits by any weaker one. -/
theorem SpellsAt.mono {Fits Fits' : List Char → Token → Prop} {before text : List Char}
    {tokens : List Token} (h : SpellsAt Fits before tokens text)
    (himp : ∀ before token, Fits before token → Fits' before token) :
    SpellsAt Fits' before tokens text := by
  induction h with
  | nil hgap => exact .nil hgap
  | cons hgap hfits _ ih => exact .cons hgap (himp _ _ hfits) ih

namespace Scanner

/-! ### Steps -/

theorem leads_pastBlanks (s : Scanner) : s.position.Leads s.blanks s.pastBlanks.position :=
  s.position.leads_past s.blanks

/-- A token that is taken starts where the machine stands. -/
theorem ascends_take (s : Scanner) (kind : TokenKind) (n : Nat) :
    Ascends s.position [(s.take kind n).1] (s.rest.take n) (s.take kind n).2.position := by
  have h : Ascends (s.take kind n).1.position [(s.take kind n).1]
      (s.take kind n).1.text.toList (s.take kind n).2.position := by
    refine .singleton ?_
    rw [take_text, String.toList_ofList]
    exact s.position.leads_past _
  rwa [take_text, String.toList_ofList] at h

/-- What is taken as a line break is one, or nothing. -/
theorem lineBreak_cases (cs : List Char) :
    Lexeme.lineBreak cs = 0
      ∨ '\n' ∈ cs.take (Lexeme.lineBreak cs) ∨ '\r' ∈ cs.take (Lexeme.lineBreak cs) := by
  unfold Lexeme.lineBreak
  split <;> simp

/-- So does a line break, behind which the machine stands on the next line. -/
theorem ascends_takeBreak (s : Scanner) (kind : TokenKind) :
    Ascends s.position [(s.takeBreak kind).1] (s.rest.take (Lexeme.lineBreak s.rest))
      (s.takeBreak kind).2.position := by
  have hplace : s.position.Leads (s.rest.take (Lexeme.lineBreak s.rest))
      (if Lexeme.lineBreak s.rest = 0 then s.position else s.position.nextLine) := by
    split
    · next hzero =>
      rw [hzero]
      exact .refl _
    · next hzero => exact s.position.leads_nextLine ((lineBreak_cases s.rest).resolve_left hzero)
  have h : Ascends (s.takeBreak kind).1.position [(s.takeBreak kind).1]
      (s.takeBreak kind).1.text.toList (s.takeBreak kind).2.position := by
    refine .singleton ?_
    rw [takeBreak_text, String.toList_ofList]
    exact hplace
  rwa [takeBreak_text, String.toList_ofList] at h

/-- What joins two lines has a line feed in it. -/
theorem lineFeed_mem_continuation {cs : List Char} (h : 0 < continuation cs) :
    '\n' ∈ cs.take (continuation cs) := by
  unfold continuation at h ⊢
  split at h
  · simp
  · simp
  · exact absurd h (Nat.lt_irrefl 0)

/-- An indentation is read from the start of its line. -/
def AtMargin (s : Scanner) : Prop :=
  s.fresh = true → s.rest ≠ [] → s.position.column = 0

theorem atMargin_start (source : List Char) : (start source).AtMargin :=
  fun _ _ => rfl

/-- A step that ends a line leaves the machine at the margin of the next one. -/
theorem atMargin_of_move {s t : Scanner} {tokens : List Token} (h : Move s tokens t) :
    t.AtMargin :=
  fun hfresh hrest => (startsLine_of_move h hfresh hrest).column

/-- **What a step emits comes in order**, between the places before it and behind it. -/
theorem ascends_of_move {s t : Scanner} {tokens : List Token} (h : Move s tokens t)
    (hs : s.AtMargin) :
    ∃ text, s.rest = text ++ t.rest ∧ Ascends s.position tokens text t.position := by
  cases h with
  | blankLine =>
    refine ⟨_, ?_, (s.pastBlanks.ascends_takeBreak .blankLine).gap_append s.gap_blanks
      s.leads_pastBlanks⟩
    simp [blanks_append_rest]
  | commentLine =>
    have hcomment := s.pastBlanks.ascends_take .comment (Lexeme.comment s.pastBlanks.rest)
    have hbreak := s.pastBlanks.takeComment.2.ascends_takeBreak .blankLine
    refine ⟨_, ?_, (hcomment.append hbreak).gap_append s.gap_blanks s.leads_pastBlanks⟩
    rw [takeBreak_rest, List.append_assoc, List.append_assoc, List.take_append_drop, take_rest,
      List.take_append_drop, blanks_append_rest]
  | @openBlock c tail hfresh hrest =>
    -- The indent is said to start its line, and that is where the machine stands.
    have hne : s.rest ≠ [] := by
      rw [← s.blanks_append_rest, hrest]
      exact List.append_ne_nil_of_right_ne_nil _ (List.cons_ne_nil c tail)
    have hposition : (⟨s.pastBlanks.position.line, 0⟩ : Position) = s.position := by
      rw [pastBlanks_line, ← hs hfresh hne]
    refine ⟨s.blanks, s.blanks_append_rest.symm, ?_⟩
    have hblanks : s.position.Leads (String.ofList s.blanks).toList s.pastBlanks.position := by
      rw [String.toList_ofList]
      exact s.leads_pastBlanks
    have hindent := @Ascends.singleton _ ⟨.indent, String.ofList s.blanks, s.position⟩ hblanks
    rw [hposition]
    simpa using hindent
  | closeBlocks =>
    have hdedents : Ascends s.pastBlanks.position
        (List.replicate (closedBlocks (indentWidth s.blanks) s.indents)
          (dedent s.pastBlanks.position)) [] s.pastBlanks.position := by
      refine .silent fun token htoken => ?_
      rw [List.eq_of_mem_replicate htoken]
      exact ⟨rfl, rfl⟩
    refine ⟨s.blanks, s.blanks_append_rest.symm, ?_⟩
    simpa using hdedents.gap_append s.gap_blanks s.leads_pastBlanks
  | @skip c tail hfresh hrest hblank =>
    exact ⟨[c], hrest, .nil (.blank (isIndentChar_iff.mp hblank) .nil) (s.position.leads_past [c])⟩
  | join hfresh hjoin =>
    refine ⟨_, (List.take_append_drop _ s.rest).symm, .nil (gap_of_continuation s.rest) ?_⟩
    exact s.position.leads_nextLine (.inl (lineFeed_mem_continuation hjoin))
  | lineBreak => exact ⟨_, (List.take_append_drop _ s.rest).symm, s.ascends_takeBreak _⟩
  | comment => exact ⟨_, (List.take_append_drop _ s.rest).symm, s.ascends_take .comment _⟩
  | @word c tail kind n => exact ⟨_, (List.take_append_drop n s.rest).symm, s.ascends_take kind n⟩
  | @operator c tail n => exact ⟨_, (List.take_append_drop n s.rest).symm, s.ascends_take _ n⟩

/-- **What a run emits comes in order.** -/
theorem ascends_of_scans {s t : Scanner} {tokens : List Token} (h : Scans s tokens t)
    (hs : s.AtMargin) :
    ∃ text, s.rest = text ++ t.rest ∧ Ascends s.position tokens text t.position := by
  induction h with
  | refl s => exact ⟨[], rfl, .nil .nil (.refl _)⟩
  | move hmove _ ih =>
    obtain ⟨text, hrest, htext⟩ := ascends_of_move hmove hs
    obtain ⟨more, hmore, hascends⟩ := ih (atMargin_of_move hmove)
    exact ⟨text ++ more, by rw [hrest, hmore, List.append_assoc], htext.append hascends⟩

/-- A step that stops has only blanks before the end of the text, and they lead there. -/
theorem leads_of_stop {t last : Scanner} (h : t.step = .ok (.stop last)) :
    Gap t.rest ∧ t.position.Leads t.rest last.position := by
  have hblanks := (stop_of_step h).1
  refine ⟨gap_of_blanks hblanks, ?_⟩
  cases hfresh : t.fresh with
  | false =>
    rw [step, hfresh, if_neg Bool.false_ne_true] at h
    obtain ⟨hrest, rfl⟩ := inLine_eq_stop h
    rw [hrest]
    exact .refl _
  | true =>
    have hpast : t.pastBlanks.rest = [] := List.dropWhile_eq_nil_iff.mpr hblanks
    have hall : t.blanks = t.rest := by simpa [hpast] using t.blanks_append_rest
    rw [step, hfresh, if_pos rfl, lineStart_eq, hpast] at h
    cases h
    rw [← hall]
    exact t.leads_pastBlanks

theorem upTo_endPosition (s : Scanner) : s.position.UpTo s.endPosition := by
  unfold endPosition
  split
  · exact .refl _
  · exact s.position.upTo_nextLine

end Scanner

/-- The stream `body ++ closing` comes in reading order. What the end of the input calls for is
`closing`: the dedents and the end marker. -/
structure Ordered (source : List Char) (body closing : List Token) : Prop where
  silent : ∀ token ∈ closing, token.text = ""
  /-- No token stands before one that comes earlier in the stream. -/
  upTo : (body ++ closing).Pairwise fun token later => token.position.UpTo later.position
  /-- Behind a token with text all others stand further on, so those with text do. -/
  before : (body ++ closing).Pairwise fun token later =>
    token.text ≠ "" → token.position.before later.position
  line_pos : ∀ token ∈ body ++ closing, 1 ≤ token.position.line
  /-- What comes before the first line break stands on line one. -/
  first_line : SpellsAt
    (fun before token => '\n' ∉ before → '\r' ∉ before → token.position.line = 1) [] body source

/-- **Positions are monotone**, whatever the lines of the text end with. -/
theorem tokenize_ordered {source : String} {tokens : List Token}
    (h : tokenize source = .ok tokens) :
    ∃ body closing, tokens = body ++ closing ∧ Ordered source.toList body closing := by
  obtain ⟨scanned, t, last, hscans, hstop, rfl⟩ := Scanner.scans_of_tokenize h
  obtain ⟨lineEnd, hfinish, hlineEnd⟩ := Scanner.finish_cases last scanned.reverse
  obtain ⟨text, hsource, hscanned⟩ :=
    Scanner.ascends_of_scans hscans (Scanner.atMargin_start source.toList)
  obtain ⟨hgap, hend⟩ := Scanner.leads_of_stop hstop
  have hlast : ∀ token ∈ lineEnd, token.text = "" ∧ token.position = last.position := by
    rcases hlineEnd with ⟨rfl, _⟩ | rfl <;> simp
  -- All but what closes the stream spells the source, place by place.
  have hbody : Ascends ⟨1, 0⟩ (scanned ++ lineEnd) source.toList last.position := by
    have hwhole := hscanned.append ((Ascends.silent hlast).gap_append hgap hend)
    rwa [List.append_nil, ← show source.toList = text ++ t.rest from hsource] at hwhole
  have hclosing : ∀ token ∈ List.replicate last.indents.length (Scanner.dedent last.endPosition)
      ++ [⟨.endMarker, "", last.endPosition⟩],
      token.text = "" ∧ token.position = last.endPosition := by
    intro token htoken
    rcases List.mem_append.mp htoken with htoken | htoken
    · rw [List.eq_of_mem_replicate htoken]
      exact ⟨rfl, rfl⟩
    · rw [List.mem_singleton.mp htoken]
      exact ⟨rfl, rfl⟩
  refine ⟨scanned ++ lineEnd, _, by rw [hfinish, List.append_assoc, List.append_assoc], ?_⟩
  generalize List.replicate last.indents.length (Scanner.dedent last.endPosition)
    ++ [⟨.endMarker, "", last.endPosition⟩] = closing at hclosing
  have hpairwise : (scanned ++ lineEnd ++ closing).Pairwise fun token later =>
      token.position.UpTo later.position
        ∧ (token.text ≠ "" → token.position.before later.position) := by
    refine List.pairwise_append.mpr ⟨hbody.pairwise, ?_, ?_⟩
    · refine List.pairwise_of_forall_mem_list fun token htoken later hlater => ?_
      obtain ⟨htext, hplace⟩ := hclosing token htoken
      rw [hplace, (hclosing later hlater).2]
      exact ⟨.refl _, fun hne => absurd htext hne⟩
    · intro token htoken later hlater
      obtain ⟨-, hupTo, hbefore⟩ := hbody.between token htoken
      rw [(hclosing later hlater).2]
      exact ⟨hupTo.trans last.upTo_endPosition,
        fun htext => Position.before_trans_upTo (hbefore htext) last.upTo_endPosition⟩
  constructor
  case silent => exact fun token htoken => (hclosing token htoken).1
  case upTo => exact hpairwise.imp And.left
  case before => exact hpairwise.imp And.right
  case line_pos =>
    have hfirst : ∀ q : Position, Position.UpTo ⟨1, 0⟩ q → 1 ≤ q.line := by
      intro q hq
      unfold Position.UpTo at hq
      dsimp only at hq
      omega
    intro token htoken
    rcases List.mem_append.mp htoken with htoken | htoken
    · exact hfirst _ (hbody.between token htoken).1
    · rw [(hclosing token htoken).2]
      exact hfirst _ (hbody.upTo.trans last.upTo_endPosition)
  case first_line =>
    exact (hbody.spellsAt (.refl ⟨1, 0⟩)).mono fun _ _ hleads => hleads.line

/-- A lone carriage return that ends the first line, and one in a string that ends none; behind the
string a line is joined to it, and the block that the second line opens ends with the text. -/
theorem ordered_loneReturns :
    ∃ body closing,
      [⟨.name, "if", ⟨1, 0⟩⟩, ⟨.name, "a", ⟨1, 3⟩⟩, ⟨.colon, ":", ⟨1, 4⟩⟩,
        ⟨.newline, "\r", ⟨1, 5⟩⟩, ⟨.indent, " ", ⟨2, 0⟩⟩,
        ⟨.string, "'''b\rc\nd'''", ⟨2, 1⟩⟩, ⟨.op, "+", ⟨4, 0⟩⟩, ⟨.name, "e", ⟨4, 1⟩⟩,
        ⟨.newline, "", ⟨4, 2⟩⟩, ⟨.dedent, "", ⟨5, 0⟩⟩, ⟨.endMarker, "", ⟨5, 0⟩⟩]
          = body ++ closing
      ∧ Ordered "if a:\r '''b\rc\nd'''\\\n+e".toList body closing :=
  tokenize_ordered (by decide +kernel)

end PyStyle
