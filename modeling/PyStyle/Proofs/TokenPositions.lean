import PyStyle.Proofs.TokenSpelling

/-!
# Tokens stand where they say

The scanner counts lines and columns as it goes, and a line break, a joined line and a string over
several lines each have their own way of counting. What they arrive at is what one finds by counting
the line feeds of the source.

- `Position.behind` — the place behind a text, counted in the text;
- `SpellsAt` — tokens spell a text, and each fits to what stands before it;
- `Scanner.Tracks` — the invariant: the machine knows how much it has read;
- `Scanner.Stuck` — the steps that fail, and why;
- `Scanner.Tracks.move`, `Scanner.Tracks.scans` — a step, and a run, keeps the invariant and
  places its tokens;
- `tokenize_positions` — the places of tokens and of errors.
-/

namespace PyStyle

/-! ### Places in a text -/

/-- The place behind a text: on the first line, or as many lines further as there are line feeds,
and behind as many characters as follow the last of them. -/
def Position.behind (before : List Char) : Position :=
  { line := 1 + before.count '\n'
    column := (before.reverse.takeWhile (· ≠ '\n')).length }

theorem Position.behind_concat (before : List Char) (c : Char) :
    Position.behind (before ++ [c]) = (Position.behind before).pastChar c := by
  by_cases hc : c = '\n'
  · subst hc
    simp [Position.behind, Position.pastChar, Nat.add_assoc]
  · simp [Position.behind, Position.pastChar, hc]

/-- Counting on is counting again. -/
theorem Position.behind_append (before text : List Char) :
    Position.behind (before ++ text) = (Position.behind before).past text := by
  induction text generalizing before with
  | nil => simp [Position.past]
  | cons c text ih =>
    have hcons : before ++ c :: text = (before ++ [c]) ++ text := by simp
    rw [hcons, ih, Position.behind_concat]
    rfl

/-- In the text every carriage return has a line feed behind it. -/
def Text.ReturnsPaired (cs : List Char) : Prop :=
  ∀ i < cs.length, cs[i]? = some '\r' → cs[i + 1]? = some '\n'

instance (cs : List Char) : Decidable (Text.ReturnsPaired cs) :=
  inferInstanceAs (Decidable (∀ i < cs.length, cs[i]? = some '\r' → cs[i + 1]? = some '\n'))

theorem Text.ReturnsPaired.lineFeed {source before back : List Char}
    (h : Text.ReturnsPaired source) (hsource : source = before ++ '\r' :: back) :
    ∃ tail, back = '\n' :: tail := by
  subst hsource
  have hnext := h before.length (by simp) (by simp)
  cases back with
  | nil => simp at hnext
  | cons c tail => exact ⟨tail, by simpa using hnext⟩

/-- A line starts behind the text. -/
def EndsLine (before : List Char) : Prop :=
  before = [] ∨ ∃ lines, before = lines ++ ['\n']

/-- What comes behind `before` in the source is the first character of its line that is no blank. -/
def FirstOfLine (source before : List Char) : Prop :=
  ∃ lines blanks c tail, before = lines ++ blanks ∧ EndsLine lines
    ∧ (∀ b ∈ blanks, b = ' ' ∨ b = '\t' ∨ b = '\x0c')
    ∧ source = before ++ c :: tail ∧ c ∉ [' ', '\t', '\x0c']

/-! ### Placed spellings -/

/-- Behind the text `before`, the tokens spell a text as in `Spells`, and each of them fits to all
the text before it. -/
inductive SpellsAt (Fits : List Char → Token → Prop) :
    List Char → List Token → List Char → Prop
  | nil {before gap : List Char} (hgap : Gap gap) : SpellsAt Fits before [] gap
  | cons {before gap rest : List Char} {token : Token} {tokens : List Token} (hgap : Gap gap)
      (hfits : Fits (before ++ gap) token)
      (hrest : SpellsAt Fits (before ++ gap ++ token.text.toList) tokens rest) :
      SpellsAt Fits before (token :: tokens) (gap ++ (token.text.toList ++ rest))

namespace SpellsAt

variable {Fits : List Char → Token → Prop} {before gap text text' : List Char}
  {tokens tokens' : List Token} {token : Token}

theorem gap_append (hgap : Gap gap) (h : SpellsAt Fits (before ++ gap) tokens text) :
    SpellsAt Fits before tokens (gap ++ text) := by
  cases h with
  | nil hrest => exact .nil (hgap.append hrest)
  | cons hrest hfits htail =>
    rw [List.append_assoc] at hfits htail
    rw [← List.append_assoc]
    exact .cons (hgap.append hrest) hfits (by simpa using htail)

theorem append (h : SpellsAt Fits before tokens text)
    (h' : SpellsAt Fits (before ++ text) tokens' text') :
    SpellsAt Fits before (tokens ++ tokens') (text ++ text') := by
  induction h with
  | nil hgap => exact h'.gap_append hgap
  | cons hgap hfits _ ih =>
    rw [List.append_assoc, List.append_assoc]
    exact .cons hgap hfits (ih (by simpa using h'))

theorem singleton (hfits : Fits before token) :
    SpellsAt Fits before [token] token.text.toList := by
  have h : SpellsAt Fits before [token] ([] ++ (token.text.toList ++ [])) :=
    .cons .nil (by simpa using hfits) (.nil .nil)
  simpa using h

/-- Tokens without text all stand at the same place. -/
theorem silent (h : ∀ token ∈ tokens, token.text = "" ∧ Fits before token) :
    SpellsAt Fits before tokens [] := by
  induction tokens with
  | nil => exact .nil .nil
  | cons token tokens ih =>
    obtain ⟨⟨htext, hfits⟩, htokens⟩ := List.forall_mem_cons.mp h
    have hcons : SpellsAt Fits before (token :: tokens) ([] ++ (token.text.toList ++ [])) :=
      .cons .nil (by simpa using hfits) (by simpa [htext] using ih htokens)
    simpa [htext] using hcons

end SpellsAt

/-- The token stands behind `before` and says so, if it has text or closes a block; a block closes
in front of the first character of a line. -/
structure Token.StandsBehind (source before : List Char) (token : Token) : Prop where
  text : token.text ≠ "" → token.position = Position.behind before
  dedent : token.kind = .dedent →
    token.position = Position.behind before ∧ FirstOfLine source before

namespace Scanner

/-! ### What the machine has read -/

/-- The machine has read `before` and is where it says. -/
structure HasRead (source before : List Char) (s : Scanner) : Prop where
  source_eq : source = before ++ s.rest
  position : s.position = Position.behind before

/-- The machine has read `before`; where it is about to read an indentation, a line starts. -/
structure Tracks (source before : List Char) (s : Scanner) : Prop extends
    HasRead source before s where
  fresh : s.fresh = true → s.rest ≠ [] → EndsLine before

theorem tracks_start (source : List Char) : Tracks source [] (start source) :=
  ⟨⟨rfl, rfl⟩, fun _ _ => .inl rfl⟩

/-- A line break takes the machine to the start of the next line. -/
theorem past_lineBreak {rest : List Char}
    (hpaired : ∀ back, rest = '\r' :: back → ∃ tail, back = '\n' :: tail)
    (hbreak : Lexeme.lineBreak rest ≠ 0) (p : Position) :
    p.past (rest.take (Lexeme.lineBreak rest)) = p.nextLine
      ∧ ∃ front, rest.take (Lexeme.lineBreak rest) = front ++ ['\n'] := by
  unfold Lexeme.lineBreak at hbreak ⊢
  split at hbreak
  · exact ⟨rfl, ['\r'], rfl⟩
  · next back hpair =>
    obtain ⟨tail, rfl⟩ := hpaired back rfl
    exact absurd rfl (hpair tail)
  · exact ⟨rfl, [], rfl⟩
  · exact absurd rfl hbreak

/-- So does a backslash that joins two lines. -/
theorem past_continuation {rest : List Char} (hjoin : 0 < continuation rest) (p : Position) :
    p.past (rest.take (continuation rest)) = p.nextLine := by
  unfold continuation at hjoin ⊢
  split at hjoin
  · rfl
  · rfl
  · exact absurd hjoin (Nat.lt_irrefl 0)

namespace HasRead

variable {source before : List Char} {s : Scanner}

/-- Reading on, the machine counts on. -/
theorem advance {t : Scanner} {text : List Char} (hs : HasRead source before s)
    (hrest : s.rest = text ++ t.rest) (hposition : t.position = s.position.past text) :
    HasRead source (before ++ text) t where
  source_eq := by rw [hs.source_eq, hrest, List.append_assoc]
  position := by rw [hposition, hs.position, Position.behind_append]

theorem pastBlanks (hs : HasRead source before s) :
    HasRead source (before ++ s.blanks) s.pastBlanks :=
  hs.advance s.blanks_append_rest.symm rfl

theorem take (hs : HasRead source before s) (kind : TokenKind) (n : Nat) :
    HasRead source (before ++ s.rest.take n) (s.take kind n).2 :=
  hs.advance (List.take_append_drop n s.rest).symm rfl

theorem lineFeed (hs : HasRead source before s) (hsource : Text.ReturnsPaired source) :
    ∀ back, s.rest = '\r' :: back → ∃ tail, back = '\n' :: tail := by
  intro back hback
  exact hsource.lineFeed (hback ▸ hs.source_eq)

theorem takeBreak (hs : HasRead source before s) (hsource : Text.ReturnsPaired source)
    (kind : TokenKind) :
    HasRead source (before ++ s.rest.take (Lexeme.lineBreak s.rest)) (s.takeBreak kind).2 := by
  refine hs.advance (List.take_append_drop _ s.rest).symm ?_
  show (if Lexeme.lineBreak s.rest = 0 then s.position else s.position.nextLine) = _
  by_cases hbreak : Lexeme.lineBreak s.rest = 0
  · rw [if_pos hbreak, hbreak]
    rfl
  · rw [if_neg hbreak, (past_lineBreak (hs.lineFeed hsource) hbreak s.position).1]

/-- Behind a line break a line starts. -/
theorem endsLine (hs : HasRead source before s) (hsource : Text.ReturnsPaired source)
    (hbreak : Lexeme.lineBreak s.rest ≠ 0) :
    EndsLine (before ++ s.rest.take (Lexeme.lineBreak s.rest)) := by
  obtain ⟨-, front, hfront⟩ := past_lineBreak (hs.lineFeed hsource) hbreak s.position
  exact .inr ⟨before ++ front, by rw [hfront, List.append_assoc]⟩

/-- A token that is made of the text at the front stands where the machine stands. -/
theorem spellsAt (hs : HasRead source before s) {kind : TokenKind} (hkind : kind ≠ .dedent)
    (text : List Char) :
    SpellsAt (Token.StandsBehind source) before [⟨kind, String.ofList text, s.position⟩] text := by
  have hfits : Token.StandsBehind source before ⟨kind, String.ofList text, s.position⟩ :=
    ⟨fun _ => hs.position, fun h => absurd h hkind⟩
  simpa using SpellsAt.singleton hfits

end HasRead

/-! ### The start of a line -/

section LineStart

variable {source before : List Char} {s : Scanner}

/-- Where a line starts, its first place is in front of it. -/
theorem behind_of_endsLine (h : EndsLine before) : (Position.behind before).column = 0 := by
  rcases h with rfl | ⟨lines, rfl⟩
  · rfl
  · simp [Position.behind]

/-- Indentation stays on its line. -/
theorem pastBlanks_line (s : Scanner) : s.pastBlanks.position.line = s.position.line := by
  have hblanks : ∀ c ∈ s.blanks, isIndentChar c = true :=
    fun c hc => isIndentChar_of_mem_blanks hc
  show (s.position.past s.blanks).line = s.position.line
  generalize s.blanks = blanks at hblanks
  generalize s.position = p
  induction blanks generalizing p with
  | nil => rfl
  | cons c blanks ih =>
    obtain ⟨hc, hblanks⟩ := List.forall_mem_cons.mp hblanks
    have hnext : (p.pastChar c).line = p.line := by
      rcases isIndentChar_iff.mp hc with rfl | rfl | rfl <;> rfl
    exact (ih hblanks (p.pastChar c)).trans hnext

theorem Tracks.endsLine (hs : Tracks source before s) (hfresh : s.fresh = true) {c : Char}
    {tail : List Char} (hrest : s.pastBlanks.rest = c :: tail) : EndsLine before := by
  refine hs.fresh hfresh ?_
  rw [← s.blanks_append_rest, hrest]
  exact List.append_ne_nil_of_right_ne_nil _ (List.cons_ne_nil c tail)

/-- Behind the indentation of a line comes its first character. -/
theorem Tracks.firstOfLine (hs : Tracks source before s) (hfresh : s.fresh = true) {c : Char}
    {tail : List Char} (hrest : s.pastBlanks.rest = c :: tail) :
    FirstOfLine source (before ++ s.blanks) := by
  have hblank := not_blank_of_pastBlanks hrest
  refine ⟨before, s.blanks, c, tail, rfl, hs.endsLine hfresh hrest, ?_, ?_, ?_⟩
  · exact fun b hb => isIndentChar_iff.mp (isIndentChar_of_mem_blanks hb)
  · rw [← hrest]
    exact hs.pastBlanks.source_eq
  · intro hc
    rw [isIndentChar_iff.mpr (by simpa using hc)] at hblank
    cases hblank

/-- An indent starts where its line starts. -/
theorem Tracks.spellsAt_indent (hs : Tracks source before s) (hfresh : s.fresh = true) {c : Char}
    {tail : List Char} (hrest : s.pastBlanks.rest = c :: tail) :
    SpellsAt (Token.StandsBehind source) before
      [⟨.indent, String.ofList s.blanks, ⟨s.pastBlanks.position.line, 0⟩⟩] s.blanks := by
  have hposition : (⟨s.pastBlanks.position.line, 0⟩ : Position) = s.position := by
    rw [pastBlanks_line, ← behind_of_endsLine (hs.endsLine hfresh hrest), ← hs.position]
  rw [hposition]
  exact hs.spellsAt (by decide) s.blanks

/-- Dedents stand in front of the first character of their line. -/
theorem Tracks.spellsAt_dedents (hs : Tracks source before s) (hfresh : s.fresh = true) {c : Char}
    {tail : List Char} (hrest : s.pastBlanks.rest = c :: tail) (n : Nat) :
    SpellsAt (Token.StandsBehind source) before
      (List.replicate n (dedent s.pastBlanks.position)) s.blanks := by
  have hsilent : SpellsAt (Token.StandsBehind source) (before ++ s.blanks)
      (List.replicate n (dedent s.pastBlanks.position)) [] := by
    refine SpellsAt.silent fun token htoken => ?_
    obtain rfl := List.eq_of_mem_replicate htoken
    exact ⟨rfl, fun h => absurd rfl h,
      fun _ => ⟨hs.pastBlanks.position, hs.firstOfLine hfresh hrest⟩⟩
  simpa using hsilent.gap_append s.gap_blanks

end LineStart

/-! ### Runs -/

theorem operatorKind_ne_dedent (op : List Char) : operatorKind op ≠ .dedent := by
  have h := operatorKind_not_layout op
  simp only [List.mem_cons, not_or] at h
  exact h.2.1

/-- **A step keeps track of its place**, and its tokens stand where they say. -/
theorem Tracks.move {source before : List Char} {s t : Scanner} {tokens : List Token}
    (hs : Tracks source before s) (hsource : Text.ReturnsPaired source) (h : Move s tokens t) :
    ∃ text, Tracks source (before ++ text) t
      ∧ SpellsAt (Token.StandsBehind source) before tokens text := by
  have hpast := hs.pastBlanks
  cases h with
  | @blankLine c tail hfresh hrest hbreak =>
    have hn : Lexeme.lineBreak s.pastBlanks.rest ≠ 0 := by
      rw [hrest]
      exact (lineBreak_pos tail hbreak).ne'
    have hnext := hpast.takeBreak hsource .blankLine
    refine ⟨s.blanks ++ s.pastBlanks.rest.take (Lexeme.lineBreak s.pastBlanks.rest), ?_,
      (hpast.spellsAt (by decide) _).gap_append s.gap_blanks⟩
    rw [← List.append_assoc]
    exact ⟨⟨hnext.source_eq, hnext.position⟩, fun _ _ => hpast.endsLine hsource hn⟩
  | @commentLine tail hfresh hrest =>
    have hcomment := hpast.take .comment (Lexeme.comment s.pastBlanks.rest)
    have hnext := hcomment.takeBreak hsource .blankLine
    refine ⟨s.blanks ++ (s.pastBlanks.rest.take (Lexeme.comment s.pastBlanks.rest)
        ++ s.pastBlanks.takeComment.2.rest.take
          (Lexeme.lineBreak s.pastBlanks.takeComment.2.rest)), ?_,
      ((hpast.spellsAt (by decide) _).append (hcomment.spellsAt (by decide) _)).gap_append
        s.gap_blanks⟩
    rw [← List.append_assoc, ← List.append_assoc]
    refine ⟨⟨hnext.source_eq, hnext.position⟩, fun _ hne => hcomment.endsLine hsource ?_⟩
    -- Without a line break the comment ends with the text.
    intro hn
    rcases drop_comment_cases s.pastBlanks.rest with hend | ⟨c, tail', hend, hbreak⟩
    · exact hne (by simp [hend])
    · have hpos := lineBreak_pos tail' hbreak
      rw [← hend] at hpos
      exact hpos.ne' hn
  | openBlock hfresh hrest _ _ =>
    exact ⟨s.blanks, ⟨⟨hpast.source_eq, hpast.position⟩, fun h => absurd h (by simp)⟩,
      hs.spellsAt_indent hfresh hrest⟩
  | closeBlocks hfresh hrest _ _ =>
    exact ⟨s.blanks, ⟨⟨hpast.source_eq, hpast.position⟩, fun h => absurd h (by simp)⟩,
      hs.spellsAt_dedents hfresh hrest _⟩
  | @skip c tail hfresh hrest hblank =>
    refine ⟨[c], ⟨hs.advance hrest rfl, fun h => ?_⟩,
      .nil (.blank (isIndentChar_iff.mp hblank) .nil)⟩
    simp [hfresh] at h
  | join hfresh hjoin =>
    refine ⟨s.rest.take (continuation s.rest),
      ⟨hs.advance (List.take_append_drop _ s.rest).symm ?_, fun h => ?_⟩,
      .nil (gap_of_continuation s.rest)⟩
    · exact (past_continuation hjoin s.position).symm
    · simp [hfresh] at h
  | @lineBreak c tail hfresh hrest hbreak =>
    have hn : Lexeme.lineBreak s.rest ≠ 0 := by
      rw [hrest]
      exact (lineBreak_pos tail hbreak).ne'
    exact ⟨_, ⟨hs.takeBreak hsource _, fun _ _ => hs.toHasRead.endsLine hsource hn⟩,
      hs.spellsAt (by split <;> decide) _⟩
  | comment hfresh hrest =>
    exact ⟨_, ⟨hs.take .comment _, fun h => absurd h (by simp [hfresh])⟩,
      hs.spellsAt (by decide) _⟩
  | @word c tail kind n hfresh hrest hc hn hkind =>
    have hdedent : kind ≠ .dedent := by
      rcases hkind with rfl | rfl | rfl <;> decide
    exact ⟨_, ⟨hs.take kind n, fun h => absurd h (by simp [hfresh])⟩, hs.spellsAt hdedent _⟩
  | @operator c tail n hfresh hrest hc hn =>
    have hnext := hs.take (operatorKind (s.rest.take n)) n
    exact ⟨_, ⟨⟨hnext.source_eq, hnext.position⟩, fun h => absurd h (by simp [hfresh])⟩,
      hs.spellsAt (operatorKind_ne_dedent _) _⟩

/-- **A run keeps track of its place**, and its tokens stand where they say. -/
theorem Tracks.scans {source before : List Char} {s t : Scanner} {tokens : List Token}
    (hs : Tracks source before s) (hsource : Text.ReturnsPaired source) (h : Scans s tokens t) :
    ∃ text, Tracks source (before ++ text) t
      ∧ SpellsAt (Token.StandsBehind source) before tokens text := by
  induction h generalizing before with
  | refl s => exact ⟨[], by simpa using hs, .nil .nil⟩
  | move hmove _ ih =>
    obtain ⟨text, hnext, htext⟩ := hs.move hsource hmove
    obtain ⟨more, hlast, hmore⟩ := ih hnext
    exact ⟨text ++ more, by simpa using hlast, htext.append hmore⟩

/-! ### Steps that fail -/

/-- No token starts in front of the text. -/
structure StartsNothing (cs : List Char) : Prop where
  string : Lexeme.opener? cs = none
  number : Lexeme.number cs = 0
  name : Lexeme.name cs = 0
  operator : Lexeme.operator cs = 0

/-- Why a step fails. -/
inductive Stuck (s : Scanner) : LexError → Prop
  | line {c : Char} {tail : List Char} (hfresh : s.fresh = true)
      (hrest : s.pastBlanks.rest = c :: tail)
      (hkept : (keptBlocks (indentWidth s.blanks) s.indents).headD 0 ≠ indentWidth s.blanks) :
      Stuck s (.inconsistentDedent s.pastBlanks.position)
  | string {opener : Lexeme.Opener} (hfresh : s.fresh = false)
      (hopener : Lexeme.opener? s.rest = some opener)
      (hopen : Lexeme.stringLiteral opener s.rest = none) :
      Stuck s (.unterminatedString s.position)
  | character {c : Char} {tail : List Char} (hfresh : s.fresh = false)
      (hrest : s.rest = c :: tail) (hnone : StartsNothing s.rest) :
      Stuck s (.unexpectedCharacter s.position c)

theorem stuck_of_lexeme {s : Scanner} {c : Char} {tail : List Char} {e : LexError}
    (hfresh : s.fresh = false) (hrest : s.rest = c :: tail) (h : s.lexeme c = .error e) :
    Stuck s e := by
  unfold lexeme at h
  split at h
  · next opener hopener =>
    split at h
    · cases h
    · next hopen =>
      cases h
      exact .string hfresh hopener hopen
  · next hopener =>
    split at h
    · cases h
    · next hnumber =>
      split at h
      · cases h
      · next hname =>
        split at h
        · cases h
        · next hoperator =>
          cases h
          exact .character hfresh hrest
            ⟨hopener, by simpa using hnumber, by simpa using hname, by simpa using hoperator⟩

theorem stuck_of_inLine {s : Scanner} {e : LexError} (hfresh : s.fresh = false)
    (h : s.inLine = .error e) : Stuck s e := by
  unfold inLine at h
  split at h
  · cases h
  · next c tail hrest =>
    split at h
    · cases h
    · split at h
      · cases h
      · split at h
        · cases h
        · split at h
          · cases h
          · exact stuck_of_lexeme hfresh hrest h

theorem stuck_of_openLine {s : Scanner} {c : Char} {tail : List Char} {e : LexError}
    (hfresh : s.fresh = true) (hrest : s.pastBlanks.rest = c :: tail)
    (h : openLine s.blanks s.pastBlanks = .error e) : Stuck s e := by
  unfold openLine at h
  dsimp only at h
  split at h
  · cases h
  · split at h
    · cases h
    · next hkept =>
      cases h
      exact .line hfresh hrest hkept

/-- **Every step that fails is stuck** at a line, a string or a character. -/
theorem stuck_of_step {s : Scanner} {e : LexError} (h : s.step = .error e) : Stuck s e := by
  unfold step at h
  split at h
  · next hfresh =>
    rw [lineStart_eq] at h
    cases hrest : s.pastBlanks.rest with
    | nil =>
      rw [hrest] at h
      cases h
    | cons c tail =>
      rw [hrest] at h
      dsimp only at h
      split at h
      · cases h
      · exact stuck_of_openLine hfresh hrest h
  · next hfresh => exact stuck_of_inLine (by simpa using hfresh) h

/-- From one state the machine gets to another, and its step fails there. -/
inductive FailsAt : Scanner → Scanner → LexError → Prop
  | here {s : Scanner} {e : LexError} (hstep : s.step = .error e) : FailsAt s s e
  | later {s t u : Scanner} {tokens : List Token} {e : LexError}
      (hstep : s.step = .ok (.emit tokens t)) (hfails : FailsAt t u e) : FailsAt s u e

theorem failsAt_of_run {s : Scanner} {emitted : List Token} {e : LexError}
    (h : s.run emitted = .error e) : ∃ t, FailsAt s t e := by
  fun_induction run s emitted with
  | case1 s emitted e' hstep =>
    cases h
    exact ⟨s, .here hstep⟩
  | case2 s emitted last hstep => cases h
  | case3 s emitted tokens next hstep ih =>
    obtain ⟨t, hfails⟩ := ih h
    exact ⟨t, .later hstep hfails⟩

/-- A run that fails keeps track of its place up to the state where it does. -/
theorem Tracks.failsAt {source before : List Char} {s t : Scanner} {e : LexError}
    (hs : Tracks source before s) (hsource : Text.ReturnsPaired source) (h : FailsAt s t e) :
    ∃ text, Tracks source (before ++ text) t ∧ Stuck t e := by
  induction h generalizing before with
  | here hstep => exact ⟨[], by simpa using hs, stuck_of_step hstep⟩
  | later hstep _ ih =>
    obtain ⟨text, hnext, -⟩ := hs.move hsource (move_of_step hstep)
    obtain ⟨more, hlast, hstuck⟩ := ih hnext
    exact ⟨text ++ more, by simpa using hlast, hstuck⟩

/-- What an error is about comes behind `before`: the character that the machine could not read, the
prefix or the quote of the string that has no end, or the first character of the line whose
indentation fits to no block. -/
inductive Concerns (source before : List Char) (s : Scanner) : LexError → Prop
  | character {p : Position} {c : Char} {tail : List Char} (hsource : source = before ++ c :: tail)
      (hrest : s.rest = c :: tail) (hnone : StartsNothing s.rest) :
      Concerns source before s (.unexpectedCharacter p c)
  | string {p : Position} {opener : Lexeme.Opener} (hsource : source = before ++ s.rest)
      (hopener : Lexeme.opener? s.rest = some opener)
      (hopen : Lexeme.stringLiteral opener s.rest = none) :
      Concerns source before s (.unterminatedString p)
  | line {p : Position} (hsource : source = before ++ s.pastBlanks.rest)
      (hfirst : FirstOfLine source before) :
      Concerns source before s (.inconsistentDedent p)

theorem Tracks.concerns {source before : List Char} {s : Scanner} {e : LexError}
    (hs : Tracks source before s) (h : Stuck s e) :
    ∃ text, Concerns source text s e ∧ e.position = Position.behind text := by
  cases h with
  | line hfresh hrest _ =>
    exact ⟨before ++ s.blanks, .line hs.pastBlanks.source_eq (hs.firstOfLine hfresh hrest),
      hs.pastBlanks.position⟩
  | string _ hopener hopen => exact ⟨before, .string hs.source_eq hopener hopen, hs.position⟩
  | character _ hrest hnone =>
    exact ⟨before, .character (hrest ▸ hs.source_eq) hrest hnone, hs.position⟩

end Scanner

/-! ### The whole text -/

/-- A stream `body ++ closing ++ [last]` whose tokens stand where they say. The dedents that the end
of the input calls for are `closing`, all those in front of the end marker. -/
structure Placed (source : List Char) (body closing : List Token) (last : Token) : Prop where
  last_kind : last.kind = .endMarker
  closing_kind : ∀ token ∈ closing, token.kind = .dedent
  body_last : ∀ token ∈ body.getLast?, token.kind ≠ .dedent
  /-- What closes the stream stands for no text. -/
  silent : ∀ token ∈ closing ++ [last], token.text = ""
  /-- The rest spells the source, token by token at its place. -/
  places : SpellsAt (Token.StandsBehind source) [] body source

theorem Scanner.placed_of_scans {source : List Char} {scanned : List Token} {t last : Scanner}
    (hsource : Text.ReturnsPaired source) (hscans : Scans (start source) scanned t)
    (hstop : t.step = .ok (.stop last)) :
    ∃ body closing marker, scanned ++ last.finish scanned.reverse = body ++ closing ++ [marker]
      ∧ Placed source body closing marker := by
  obtain ⟨text, htracks, hplaces⟩ := (tracks_start source).scans hsource hscans
  obtain ⟨lineEnd, hfinish, hlineEnd⟩ := finish_cases last scanned.reverse
  have hsilent : ∀ token ∈ lineEnd, token.kind = .newline ∧ token.text = "" := by
    rcases hlineEnd with ⟨rfl, _⟩ | rfl <;> simp
  refine ⟨scanned ++ lineEnd, List.replicate last.indents.length (dedent last.endPosition),
    ⟨.endMarker, "", last.endPosition⟩, by simp [hfinish], ?_⟩
  constructor
  case last_kind => rfl
  case closing_kind =>
    intro token htoken
    rw [List.eq_of_mem_replicate htoken]
    rfl
  case body_last =>
    intro token htoken
    rcases hlineEnd with ⟨rfl, hlast⟩ | rfl
    · rw [List.append_nil, ← List.head?_reverse] at htoken
      rcases hlast token htoken with hkind | hkind <;> simp [hkind]
    · rw [List.getLast?_concat, Option.mem_some_iff] at htoken
      rw [← htoken]
      exact nofun
  case silent =>
    intro token htoken
    rcases List.mem_append.mp htoken with htoken | htoken
    · exact text_of_mem_dedents token htoken
    · rw [List.mem_singleton.mp htoken]
  case places =>
    -- Behind the last token there are only blanks.
    have hend : SpellsAt (Token.StandsBehind source) ([] ++ text) lineEnd t.rest := by
      have hfits : ∀ token ∈ lineEnd, token.text = ""
          ∧ Token.StandsBehind source ([] ++ text ++ t.rest) token := by
        intro token htoken
        obtain ⟨hkind, htext⟩ := hsilent token htoken
        exact ⟨htext, fun h => absurd htext h, fun h => absurd h (by simp [hkind])⟩
      simpa using (SpellsAt.silent hfits).gap_append (gap_of_blanks (stop_of_step hstop).1)
    have hwhole := hplaces.append hend
    rwa [← List.nil_append text, ← htracks.source_eq] at hwhole

/-- **Positions are exact.** In a text without lone carriage returns every token with text stands
where the line feeds before it say; so do a dedent, in front of the first character of its line, and
the place of every error. -/
theorem tokenize_positions (source : String) (h : Text.ReturnsPaired source.toList) :
    (∀ tokens, tokenize source = .ok tokens →
      ∃ body closing last, tokens = body ++ closing ++ [last]
        ∧ Placed source.toList body closing last)
    ∧ ∀ e, tokenize source = .error e →
      ∃ s before, Scanner.FailsAt (Scanner.start source.toList) s e
        ∧ Scanner.Concerns source.toList before s e ∧ e.position = Position.behind before := by
  constructor
  · intro tokens htokens
    obtain ⟨scanned, t, last, hscans, hstop, rfl⟩ := Scanner.scans_of_tokenize htokens
    exact Scanner.placed_of_scans h hscans hstop
  · intro e he
    obtain ⟨s, hfails⟩ := Scanner.failsAt_of_run he
    obtain ⟨text, htracks, hstuck⟩ := (Scanner.tracks_start source.toList).failsAt h hfails
    obtain ⟨before, hconcerns, hposition⟩ := htracks.concerns hstuck
    exact ⟨s, before, hfails, hconcerns, hposition⟩

/-- A string over three lines, with a line break that is escaped; a joined line; a tab; and a block
that closes. In the second text a string does not end. -/
theorem positions_brokenLines :
    (∃ body closing last,
      [⟨.name, "if", ⟨1, 0⟩⟩, ⟨.name, "é", ⟨1, 3⟩⟩, ⟨.colon, ":", ⟨1, 4⟩⟩,
        ⟨.newline, "\r\n", ⟨1, 5⟩⟩, ⟨.indent, "\t", ⟨2, 0⟩⟩,
        ⟨.string, "'''ä\nb\\\r\n'''", ⟨2, 1⟩⟩, ⟨.op, "+", ⟨5, 1⟩⟩, ⟨.name, "c", ⟨5, 3⟩⟩,
        ⟨.newline, "\n", ⟨5, 4⟩⟩, ⟨.dedent, "", ⟨6, 0⟩⟩, ⟨.name, "d", ⟨6, 0⟩⟩,
        ⟨.newline, "", ⟨6, 1⟩⟩, ⟨.endMarker, "", ⟨7, 0⟩⟩] = body ++ closing ++ [last]
      ∧ Placed "if é:\r\n\t'''ä\nb\\\r\n''' \\\n + c\nd".toList body closing last)
    ∧ ∃ s before,
      Scanner.FailsAt (Scanner.start "é\r\n  x = r'a".toList) s (.unterminatedString ⟨2, 6⟩)
      ∧ Scanner.Concerns "é\r\n  x = r'a".toList before s (.unterminatedString ⟨2, 6⟩)
      ∧ (⟨2, 6⟩ : Position) = Position.behind before :=
  ⟨(tokenize_positions _ (by decide +kernel)).1 _ (by decide +kernel),
    (tokenize_positions "é\r\n  x = r'a" (by decide +kernel)).2 _ (by decide +kernel)⟩

end PyStyle
