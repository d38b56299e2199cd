import PyStyle.Proofs.BlockMatching

/-!
# Lines and their indentation

Every piece of code stands in a logical line. The line has an indentation, behind it the indents or
dedents it calls for, and then its tokens; the innermost block that is open in the line starts at
the width of the indentation, and blocks start further right the deeper they are nested.

- `Token.isCode` — tokens that stand for code;
- `NestedBlocks` — the widths of open blocks grow inwards;
- `LineOf` — the line that goes on behind some tokens;
- `innermostWidth_lt` — inside of another block lines are wider;
- `Scanner.Lines` — the invariant: between lines the machine stands at the start of one, inside of a
  line it knows which;
- `lineOf_of_tokenize` — **all code of a text stands in a line**.
-/

namespace PyStyle

/-- Does the token stand for code? -/
def Token.isCode (token : Token) : Bool :=
  match token.kind with
  | .name | .number | .string | .op | .colon => true
  | _ => false

theorem not_isBlockEdge_of_inLine {token : Token}
    (h : token.isCode = true ∨ token.isFiller = true) : token.isBlockEdge = false := by
  rcases h with h | h
  · unfold Token.isCode at h
    split at h <;> simp_all [Token.isBlockEdge]
  · simp only [Token.isFiller, Bool.or_eq_true, beq_iff_eq] at h
    rcases h with h | h <;> simp [Token.isBlockEdge, h]

theorem not_isFiller_of_isCode {token : Token} (h : token.isCode = true) :
    token.isFiller = false := by
  unfold Token.isCode at h
  split at h <;> simp_all [Token.isFiller]

/-- The open blocks, innermost first, start further right the deeper they are nested. -/
def NestedBlocks (blocks : List String) : Prop :=
  ∃ widths, Scanner.WidthsOf blocks widths ∧ (widths ++ [0]).Pairwise (· > ·)

/-- Behind the tokens `front` a line goes on. It has started behind `before`, with the indentation
`blanks` and the edges it calls for; `inner` are the tokens of the line so far, and `blocks` those
that are open in it. -/
structure LineOf (source : List Char) (front before edges inner : List Token) (blanks : List Char)
    (blocks : List String) : Prop where
  front_eq : front = before ++ edges ++ inner
  start : LineStart source before blanks
  /-- The line before this one has ended. -/
  ended : ∀ token ∈ lastSolid? before, token.kind = .newline
  isBlockEdge : ∀ token ∈ edges, token.isBlockEdge = true
  /-- Dedents stand right behind the indentation. -/
  column : ∀ token ∈ edges, token.kind = .dedent → token.position.column = blanks.length
  inLine : ∀ token ∈ inner, token.isCode = true ∨ token.isFiller = true
  isOpen : openBlocks (before ++ edges) = some blocks
  width : InnermostWidth blocks (Scanner.indentWidth blanks)
  nested : NestedBlocks blocks

namespace LineOf

variable {source : List Char} {front before edges inner : List Token} {blanks : List Char}
  {blocks : List String}

/-- Code and fillers go on with the line. -/
theorem append {more : List Token} (h : LineOf source front before edges inner blanks blocks)
    (hmore : ∀ token ∈ more, token.isCode = true ∨ token.isFiller = true) :
    LineOf source (front ++ more) before edges (inner ++ more) blanks blocks :=
  { h with
    front_eq := by rw [h.front_eq, List.append_assoc]
    inLine := fun token htoken => (List.mem_append.mp htoken).elim (h.inLine token) (hmore token) }

theorem openBlocks_front (h : LineOf source front before edges inner blanks blocks) :
    openBlocks front = some blocks := by
  rw [h.front_eq, openBlocks_append, h.isOpen]
  exact blocksBehind_of_not_edge
    (fun token htoken => not_isBlockEdge_of_inLine (h.inLine token htoken)) blocks

theorem isPrefix (h : LineOf source front before edges inner blanks blocks) (back : List Token) :
    before <+: front ++ back :=
  ⟨edges ++ inner ++ back, by rw [h.front_eq]; simp⟩

/-- Right behind a dedent the line has just started, and the dedent shows its indentation. -/
theorem column_of_dedent {dedent : Token}
    (h : LineOf source (front ++ [dedent]) before edges inner blanks blocks)
    (hdedent : dedent.kind = .dedent) : dedent.position.column = blanks.length := by
  refine h.column dedent ?_ hdedent
  have hfront := h.front_eq
  cases inner using List.reverseRecOn with
  | append_singleton inner token =>
    rw [← List.append_assoc] at hfront
    obtain ⟨_, hlast⟩ := List.append_inj' hfront rfl
    obtain rfl := List.singleton_inj.mp hlast
    have hedge := not_isBlockEdge_of_inLine (h.inLine dedent (by simp))
    simp [Token.isBlockEdge, hdedent] at hedge
  | nil =>
    rw [List.append_nil] at hfront
    cases edges using List.reverseRecOn with
    | append_singleton edges token =>
      rw [← List.append_assoc] at hfront
      obtain ⟨_, hlast⟩ := List.append_inj' hfront rfl
      obtain rfl := List.singleton_inj.mp hlast
      simp
    | nil =>
      -- The line before has ended, and not with a dedent.
      rw [List.append_nil] at hfront
      have hended := h.ended dedent (by
        rw [← hfront]
        exact lastSolid?_concat _ (by simp [Token.isFiller, hdedent]))
      rw [hdedent] at hended
      cases hended

end LineOf

/-! ### Widths of indentations -/

theorem InnermostWidth.eq_indentWidth {blocks : List String} {width : Nat}
    (h : InnermostWidth blocks width) : width = Scanner.indentWidth (blocks.headD "").toList := by
  cases blocks with
  | nil => exact h
  | cons block outer => exact Scanner.eq_indentWidth_of_hasWidth h

theorem innermostWidth_unique {blocks : List String} {width width' : Nat}
    (h : InnermostWidth blocks width) (h' : InnermostWidth blocks width') : width = width' :=
  h.eq_indentWidth.trans h'.eq_indentWidth.symm

/-- Inside of another block lines are wider. -/
theorem innermostWidth_lt {above outside : List String} {block : String} {width width' : Nat}
    (hnested : NestedBlocks (above ++ block :: outside)) (h : InnermostWidth outside width)
    (h' : InnermostWidth (above ++ block :: outside) width') : width < width' := by
  obtain ⟨first, between, hcons⟩ : ∃ first between,
      above ++ block :: outside = first :: (between ++ outside) := by
    cases above with
    | nil => exact ⟨block, [], rfl⟩
    | cons first above => exact ⟨first, above ++ [block], by simp⟩
  rw [hcons] at hnested h'
  obtain ⟨widths, hwidths, hpairwise⟩ := hnested
  cases hwidths with
  | @cons _ w _ ws hfirst hrest =>
    have hw : width' = w := innermostWidth_unique h' hfirst
    have houtside := List.forall₂_drop between.length hrest
    rw [List.drop_left] at houtside
    have hwidth := innermostWidth_unique h (Scanner.innermostWidth_of_widthsOf houtside)
    have hmem : (ws.drop between.length).headD 0 ∈ ws ++ [0] := by
      cases hdrop : ws.drop between.length with
      | nil => simp
      | cons next more =>
        refine List.mem_append_left _ (List.mem_of_mem_drop (i := between.length) ?_)
        rw [hdrop]
        exact List.mem_cons_self
    rw [hw, hwidth]
    exact (List.pairwise_cons.mp hpairwise).1 _ hmem

theorem indentWidth_of_spaces {blanks : List Char} (h : ∀ c ∈ blanks, c = ' ') :
    Scanner.indentWidth blanks = blanks.length := by
  induction blanks using List.reverseRecOn with
  | nil => rfl
  | append_singleton blanks c ih =>
    rw [h c (by simp), Scanner.indentWidth_concat, Scanner.widen_space,
      ih fun other hother => h other (by simp [hother])]
    simp

theorem LineStart.indentWidth_eq {source : List Char} {before : List Token} {blanks : List Char}
    (h : LineStart source before blanks) (htab : '\t' ∉ source) (hfeed : '\x0c' ∉ source) :
    Scanner.indentWidth blanks = blanks.length := by
  obtain ⟨text, c, tail, rfl, _, _⟩ := h.place
  refine indentWidth_of_spaces fun b hb => ?_
  rcases h.blank b hb with rfl | rfl | rfl
  · rfl
  · exact absurd (by simp [hb]) htab
  · exact absurd (by simp [hb]) hfeed

namespace Scanner

/-! ### What a step does at the ends of lines -/

/-- A line break that is there has a text, and the next line starts behind it. -/
theorem takeBreak_of_isLineBreak {s : Scanner} {c : Char} {tail : List Char} (kind : TokenKind)
    (hrest : s.rest = c :: tail) (hbreak : Lexeme.isLineBreak c = true) :
    (s.takeBreak kind).1.text ≠ "" ∧ (s.takeBreak kind).2.position.column = 0 := by
  have hn : 0 < Lexeme.lineBreak s.rest := by
    rw [hrest]
    exact lineBreak_pos tail hbreak
  constructor
  · rw [takeBreak_text, ne_eq, ← String.toList_inj, String.toList_ofList, hrest, List.take_cons]
    · simp
    · rwa [hrest] at hn
  · show (if Lexeme.lineBreak s.rest = 0 then s.position else s.position.nextLine).column = 0
    rw [if_neg hn.ne']
    rfl

/-- A step to the start of a line that is not the end of the text: the last token it emits ends a
line. From inside of a line that is the only one; otherwise all are fillers. -/
structure StartsLine (s : Scanner) (tokens : List Token) (t : Scanner) : Prop where
  column : t.position.column = 0
  lineEnd : ∃ front lineEnd, tokens = front ++ [lineEnd] ∧ lineEnd.isLineEnd = true
    ∧ lineEnd.text ≠ ""
  kind : (s.fresh = true ∧ ∀ token ∈ tokens, token.isFiller = true)
    ∨ ∃ lineEnd, tokens = [lineEnd] ∧ lineEnd.kind = .newline

theorem startsLine_of_move {s t : Scanner} {tokens : List Token} (h : Move s tokens t)
    (ht : t.fresh = true) (hrest : t.rest ≠ []) : StartsLine s tokens t := by
  cases h with
  | blankLine hfresh hpast hbreak =>
    obtain ⟨htext, hcolumn⟩ := takeBreak_of_isLineBreak .blankLine hpast hbreak
    refine ⟨hcolumn, ⟨[], _, rfl, rfl, htext⟩, Or.inl ⟨hfresh, ?_⟩⟩
    simp [Token.isFiller]
  | commentLine hfresh hpast =>
    -- Behind a comment comes a line break, or the end of the text.
    rcases drop_comment_cases s.pastBlanks.rest with hnil | ⟨c, tail, hcons, hbreak⟩
    · refine absurd ?_ hrest
      show (s.pastBlanks.takeComment.2.rest).drop _ = []
      rw [take_rest, hnil, List.drop_nil]
    · have hcomment : s.pastBlanks.takeComment.2.rest = c :: tail := hcons
      obtain ⟨htext, hcolumn⟩ := takeBreak_of_isLineBreak .blankLine hcomment hbreak
      refine ⟨hcolumn, ⟨[_], _, rfl, rfl, htext⟩, Or.inl ⟨hfresh, ?_⟩⟩
      simp [Token.isFiller]
  | openBlock => cases ht
  | closeBlocks => cases ht
  | lineBreak hfresh hrest' hbreak =>
    have hdepth : s.depth = 0 := beq_iff_eq.mp ht
    obtain ⟨htext, hcolumn⟩ := takeBreak_of_isLineBreak
      (if s.depth = 0 then .newline else .blankLine) hrest' hbreak
    refine ⟨hcolumn, ⟨[], _, rfl, ?_, htext⟩, Or.inr ⟨_, rfl, ?_⟩⟩
    · simp [Token.isLineEnd, hdepth]
    · simp [hdepth]
  | skip hfresh => simp [hfresh] at ht
  | join hfresh => simp [hfresh] at ht
  | comment hfresh => simp [hfresh] at ht
  | word hfresh => simp [hfresh] at ht
  | operator hfresh => simp [hfresh] at ht

/-- A step inside of a line emits code and fillers. -/
theorem inLine_of_move {s t : Scanner} {tokens : List Token} (h : Move s tokens t)
    (hs : s.fresh = false) (ht : t.fresh = false) :
    ∀ token ∈ tokens, token.isCode = true ∨ token.isFiller = true := by
  cases h with
  | skip => simp
  | join => simp
  | lineBreak =>
    have hdepth : s.depth ≠ 0 := by
      intro hdepth
      rw [show (s.takeBreak _).2.fresh = (s.depth == 0) from rfl, hdepth] at ht
      cases ht
    simp [Token.isFiller, hdepth]
  | comment => simp [Token.isFiller]
  | word _ _ _ _ hkind =>
    rw [List.forall_mem_singleton, Token.isCode, take_kind]
    rcases hkind with rfl | rfl | rfl <;> exact Or.inl rfl
  | @operator c tail n =>
    have hkind : operatorKind (s.rest.take n) = .colon ∨ operatorKind (s.rest.take n) = .op := by
      unfold operatorKind
      split
      · exact Or.inl rfl
      · exact Or.inr rfl
    rw [List.forall_mem_singleton, Token.isCode, take_kind]
    rcases hkind with hkind | hkind <;> rw [hkind] <;> exact Or.inl rfl
  | _ hfresh => simp [hs] at hfresh

/-- Code is emitted inside of a line, one token by a step. -/
theorem code_of_move {s t : Scanner} {tokens : List Token} {token : Token} (h : Move s tokens t)
    (htoken : token ∈ tokens) (hcode : token.isCode = true) :
    s.fresh = false ∧ tokens = [token] := by
  cases h with
  | blankLine =>
    rw [List.mem_singleton.mp htoken] at hcode
    cases hcode
  | commentLine =>
    rcases List.mem_cons.mp htoken with rfl | htoken
    · cases hcode
    · rw [List.mem_singleton.mp htoken] at hcode
      cases hcode
  | openBlock =>
    rw [List.mem_singleton.mp htoken] at hcode
    cases hcode
  | closeBlocks =>
    rw [List.eq_of_mem_replicate htoken] at hcode
    cases hcode
  | skip => cases htoken
  | join => cases htoken
  | lineBreak hfresh => exact ⟨hfresh, by rw [List.mem_singleton.mp htoken]⟩
  | comment hfresh => exact ⟨hfresh, by rw [List.mem_singleton.mp htoken]⟩
  | word hfresh => exact ⟨hfresh, by rw [List.mem_singleton.mp htoken]⟩
  | operator hfresh => exact ⟨hfresh, by rw [List.mem_singleton.mp htoken]⟩

/-! ### Widths of open blocks -/

/-- A step keeps the widths of the open blocks in order. -/
theorem pairwise_of_move {s t : Scanner} {tokens : List Token} (h : Move s tokens t)
    (hs : (s.indents ++ [0]).Pairwise (· > ·)) : (t.indents ++ [0]).Pairwise (· > ·) := by
  cases h with
  | openBlock _ _ _ hwidth =>
    refine List.pairwise_cons.mpr ⟨?_, hs⟩
    intro width hmem
    have hle : width ≤ s.width := by
      rw [Scanner.width]
      cases hindents : s.indents with
      | nil => simp_all
      | cons first rest =>
        rw [hindents] at hs hmem
        rcases List.mem_cons.mp hmem with rfl | hmem
        · exact Nat.le_refl _
        · exact Nat.le_of_lt ((List.pairwise_cons.mp hs).1 width hmem)
    show indentWidth s.blanks > width
    omega
  | closeBlocks =>
    exact hs.sublist ((List.dropWhile_sublist _).append (List.Sublist.refl _))
  | _ => exact hs

/-! ### The invariant -/

/-- The column behind an indentation. -/
theorem past_column {blanks : List Char} (h : ∀ c ∈ blanks, isIndentChar c = true)
    (p : Position) : (p.past blanks).column = p.column + blanks.length := by
  induction blanks generalizing p with
  | nil => rfl
  | cons c blanks ih =>
    obtain ⟨hc, hblanks⟩ := List.forall_mem_cons.mp h
    have hne : c ≠ '\n' := by
      rintro rfl
      cases hc
    have hchar : (p.pastChar c).column = p.column + 1 := by simp [Position.pastChar, hne]
    show ((p.pastChar c).past blanks).column = _
    rw [ih hblanks, hchar, List.length_cons]
    omega

/-- Where the indentation of a line is to be read, all tokens so far spell the source up to there,
and the last of them ends a line. -/
structure AtLineStart (source : List Char) (emitted : List Token) (s : Scanner) : Prop where
  column : s.position.column = 0
  place : (emitted = [] ∧ source = s.rest)
    ∨ ∃ lines lineEnd spelled, emitted = lines ++ [lineEnd] ∧ lineEnd.isLineEnd = true
      ∧ lineEnd.text ≠ "" ∧ Spells lines spelled
      ∧ source = spelled ++ (lineEnd.text.toList ++ s.rest)
  ended : ∀ token ∈ lastSolid? emitted, token.kind = .newline

/-- The machine stands at the start of a line, unless the text is used up, or inside of one. -/
structure Lines (source : List Char) (emitted : List Token) (s : Scanner) : Prop
    extends Follows emitted s where
  spells : ∃ text, source = text ++ s.rest ∧ Spells emitted text
  widths : (s.indents ++ [0]).Pairwise (· > ·)
  start : s.fresh = true → s.rest ≠ [] → AtLineStart source emitted s
  inside : s.fresh = false →
    ∃ before edges inner blanks blocks, LineOf source emitted before edges inner blanks blocks

theorem lines_start (source : List Char) : Lines source [] (start source) where
  toFollows := follows_start source
  spells := ⟨[], rfl, .nil .nil⟩
  widths := by simp [Scanner.start]
  start _ _ := ⟨rfl, Or.inl ⟨rfl, rfl⟩, by simp [lastSolid?]⟩
  inside h := by cases h

/-- The line that a machine in front of an indentation is about to read. -/
theorem AtLineStart.lineStart {source : List Char} {emitted : List Token} {s : Scanner}
    {c : Char} {tail : List Char} (h : AtLineStart source emitted s)
    (hdepth : bracketDepth emitted = 0) (hrest : s.pastBlanks.rest = c :: tail)
    (hcode : (c == '#' || Lexeme.isLineBreak c) = false) : LineStart source emitted s.blanks := by
  have hblank := not_blank_of_pastBlanks hrest
  have hsplit : s.rest = s.blanks ++ c :: tail := by rw [← hrest, blanks_append_rest]
  refine ⟨hdepth, fun b hb => isIndentChar_iff.mp (isIndentChar_of_mem_blanks hb), ?_⟩
  have hc : c ∉ [' ', '\t', '\x0c', '#', '\r', '\n'] := by
    simp only [Bool.or_eq_false_iff, beq_eq_false_iff_ne, Lexeme.isLineBreak] at hcode
    simp only [isIndentChar, Bool.or_eq_false_iff, beq_eq_false_iff_ne] at hblank
    simp [hblank, hcode]
  rcases h.place with ⟨hemitted, hsource⟩ | ⟨lines, lineEnd, spelled, hlines, hend, htext, hspells,
    hsource⟩
  · exact ⟨[], c, tail, by rw [hsource, hsplit]; rfl, hc, Or.inl ⟨hemitted, rfl⟩⟩
  · refine ⟨spelled ++ lineEnd.text.toList, c, tail, ?_, hc, Or.inr ?_⟩
    · rw [hsource, hsplit, List.append_assoc]
    · exact ⟨lines, lineEnd, spelled, hlines, hend, htext, hspells, rfl⟩

/-- A step that settles the indentation of a line starts the line. -/
theorem Lines.openLine {source : List Char} {emitted tokens : List Token} {s t : Scanner}
    (hs : Lines source emitted s) (h : Move s tokens t) (hfresh : s.fresh = true)
    (ht : t.fresh = false) :
    ∃ blocks, LineOf source (emitted ++ tokens) emitted tokens [] s.blanks blocks := by
  have hopens := opensLine_of_move h hfresh ht
  have hstart := hs.start hfresh (rest_ne_nil_of_move h)
  have hdepth : bracketDepth emitted = 0 := hs.depth.symm.trans (hs.fresh hfresh)
  have hcode : LineStart source emitted s.blanks := by
    cases h with
    | blankLine => cases ht
    | commentLine => cases ht
    | openBlock _ hrest hcode _ => exact hstart.lineStart hdepth hrest hcode
    | closeBlocks _ hrest hcode _ => exact hstart.lineStart hdepth hrest hcode
    | _ hinside => simp [hfresh] at hinside
  have hcolumn : ∀ token ∈ tokens, token.kind = .dedent →
      token.position.column = s.blanks.length := by
    intro token htoken hkind
    have hpast : s.pastBlanks.position.column = s.blanks.length := by
      show (s.position.past s.blanks).column = s.blanks.length
      rw [past_column fun c hc => isIndentChar_of_mem_blanks hc, hstart.column, Nat.zero_add]
    rw [(dedent_of_move h htoken hkind).1]
    cases h with
    | openBlock => exact hpast
    | closeBlocks => exact hpast
    | blankLine => cases ht
    | commentLine => cases ht
    | _ hinside => simp [hfresh] at hinside
  obtain ⟨blocks, hblocks, hwidths⟩ := (hs.toFollows.move h).blocks
  refine ⟨blocks, by simp, hcode, hstart.ended, hopens.edges, hcolumn, by simp, hblocks, ?_,
    t.indents, hwidths, pairwise_of_move h hs.widths⟩
  have hwidth := innermostWidth_of_widthsOf hwidths
  rwa [hopens.width] at hwidth

/-- A step to the start of a line. -/
theorem Lines.nextLine {source : List Char} {emitted tokens : List Token} {s t : Scanner}
    (hs : Lines source emitted s) (h : Move s tokens t) (ht : t.fresh = true)
    (hrest : t.rest ≠ []) : AtLineStart source (emitted ++ tokens) t := by
  have hline := startsLine_of_move h ht hrest
  obtain ⟨front, lineEnd, rfl, hend, htext⟩ := hline.lineEnd
  obtain ⟨⟨text, hsplit, hfront⟩, _⟩ := lineEnd_of_move h rfl hend
  obtain ⟨spelled, hsource, hspells⟩ := hs.spells
  refine ⟨hline.column, Or.inr ⟨emitted ++ front, lineEnd, spelled ++ text, by simp, hend, htext,
    hspells.append hfront, ?_⟩, ?_⟩
  · rw [hsource, hsplit, List.append_assoc]
  · rcases hline.kind with ⟨hfresh, hfillers⟩ | ⟨newline, hnewline, hkind⟩
    · rw [lastSolid?_append_fillers _ hfillers]
      exact (hs.start hfresh (rest_ne_nil_of_move h)).ended
    · have hsolid : newline.isFiller = false := by simp [Token.isFiller, hkind]
      rw [hnewline, lastSolid?_concat _ hsolid]
      simpa using hkind

/-- **A step keeps the invariant.** -/
theorem Lines.move {source : List Char} {emitted tokens : List Token} {s t : Scanner}
    (hs : Lines source emitted s) (h : Move s tokens t) : Lines source (emitted ++ tokens) t where
  toFollows := hs.toFollows.move h
  spells := by
    obtain ⟨spelled, hsource, hspells⟩ := hs.spells
    obtain ⟨text, hrest, htext⟩ := spells_of_move h
    exact ⟨spelled ++ text, by rw [hsource, hrest, List.append_assoc], hspells.append htext⟩
  widths := pairwise_of_move h hs.widths
  start ht hrest := hs.nextLine h ht hrest
  inside ht := by
    cases hfresh : s.fresh with
    | true =>
      obtain ⟨blocks, hline⟩ := hs.openLine h hfresh ht
      exact ⟨_, _, _, _, blocks, hline⟩
    | false =>
      obtain ⟨before, edges, inner, blanks, blocks, hline⟩ := hs.inside hfresh
      exact ⟨_, _, _, _, _, hline.append (inLine_of_move h hfresh ht)⟩

/-- **Along a run all code stands in a line.** -/
theorem Lines.scans {source : List Char} {emitted tokens front back : List Token} {token : Token}
    {s t : Scanner} (hs : Lines source emitted s) (h : Scans s tokens t)
    (hsplit : tokens = front ++ token :: back) (hcode : token.isCode = true) :
    ∃ before edges inner blanks blocks,
      LineOf source (emitted ++ front) before edges inner blanks blocks := by
  induction h generalizing emitted front with
  | refl s => simp at hsplit
  | @move s t u tokens more hmove _ ih =>
    rcases append_eq_append_cons hsplit with ⟨mid, rfl, _⟩ | ⟨mid, rfl, hmore⟩
    · obtain ⟨hfresh, hsingle⟩ := code_of_move hmove (by simp) hcode
      obtain rfl : front = [] := by
        cases front with
        | nil => rfl
        | cons other front => simp at hsingle
      rw [List.append_nil]
      exact hs.inside hfresh
    · rw [← List.append_assoc]
      exact ih (hs.move hmove) hmore

end Scanner

/-- **All code of a text stands in a line.** -/
theorem lineOf_of_tokenize {source : String} {tokens front back : List Token} {token : Token}
    (h : tokenize source = .ok tokens) (hsplit : tokens = front ++ token :: back)
    (hcode : token.isCode = true) :
    ∃ before edges inner blanks blocks,
      LineOf source.toList front before edges inner blanks blocks := by
  obtain ⟨scanned, t, last, hscans, _, rfl⟩ := Scanner.scans_of_tokenize h
  rcases Scanner.append_eq_append_cons hsplit with ⟨mid, hmid, _⟩ | ⟨mid, _, hmid⟩
  · exact (Scanner.lines_start source.toList).scans hscans hmid hcode
  · -- What closes a stream is no code.
    have hkind := (Scanner.kind_of_mem_finish last scanned.reverse token (by simp [hmid])).2
    rw [Token.isCode] at hcode
    rcases hkind with hkind | hkind | hkind <;> rw [hkind] at hcode <;> cases hcode

end PyStyle
