import Mathlib.Data.List.Forall2
import Mathlib.Data.List.Induction
import PyStyle.Proofs.TokenSpelling

/-!
# The layout of token streams

Indents and dedents say how the lines of a text are nested. Here is what they mean, with no
reference to the machine that emits them, and that every token stream keeps to it.

- `bracketDepth`, `openBlocks` — the brackets and the blocks that are open behind some tokens;
- `HasWidth` — how far an indentation reaches to the right;
- `LineStart` — a logical line with code starts behind some tokens;
- `Layout` — the laws of indents, dedents and the end marker;
- `Scanner.Follows` — the invariant that ties the machine to the tokens emitted so far;
- `tokenize_layout` — **the tokens of a text obey the laws**.
-/

namespace PyStyle

/-! ### Brackets and blocks -/

/-- The number of open brackets behind one more token, if there were `depth` before it. -/
def Token.depthBehind (depth : Nat) (token : Token) : Nat :=
  if token.kind ≠ .op then depth
  else if token.text ∈ ["(", "[", "\x7b"] then depth + 1
  else if token.text ∈ [")", "]", "\x7d"] then depth - 1
  else depth

/-- The number of brackets open behind the tokens; one that closes nothing does not count. -/
def bracketDepth (tokens : List Token) : Nat :=
  tokens.foldl Token.depthBehind 0

/-- The texts of the open indents behind one more token, innermost first, if those in
`blocks` were open before it. There are none behind a dedent that closes nothing. -/
def Token.blocksBehind (blocks : List String) (token : Token) : Option (List String) :=
  match token.kind with
  | .indent => some (token.text :: blocks)
  | .dedent => blocks.tail?
  | _ => some blocks

/-- The texts of the indents that are open behind the tokens, innermost first. -/
def openBlocks (tokens : List Token) : Option (List String) :=
  tokens.foldlM Token.blocksBehind []

/-- Does the token open or close a block? -/
def Token.isBlockEdge (token : Token) : Bool :=
  token.kind == .indent || token.kind == .dedent

/-- Does the token end a line? -/
def Token.isLineEnd (token : Token) : Bool :=
  token.kind == .newline || token.kind == .blankLine

/-- How wide an indentation is: a space counts one, a tab goes on to the next multiple of
eight, a form feed starts again. -/
inductive HasWidth : List Char → Nat → Prop
  | nil : HasWidth [] 0
  | space {blanks : List Char} {width : Nat} (h : HasWidth blanks width) :
      HasWidth (blanks ++ [' ']) (width + 1)
  | tab {blanks : List Char} {width stop : Nat} (h : HasWidth blanks width)
      (hstop : 8 ∣ stop) (hlt : width < stop) (hle : stop ≤ width + 8) :
      HasWidth (blanks ++ ['\t']) stop
  | formFeed {blanks : List Char} {width : Nat} (h : HasWidth blanks width) :
      HasWidth (blanks ++ ['\x0c']) 0

/-- The width at which the innermost of the open blocks starts, zero outside all blocks. -/
def InnermostWidth : List String → Nat → Prop
  | [], width => width = 0
  | innermost :: _, width => HasWidth innermost.toList width

/-! ### The laws -/

/-- Behind the tokens `before` of the source a logical line starts with the indentation
`blanks`: it is the first line, or there is a line break outside of brackets before it, and
the line has more to it than blanks and a comment. -/
structure LineStart (source : List Char) (before : List Token) (blanks : List Char) : Prop where
  depth : bracketDepth before = 0
  blank : ∀ c ∈ blanks, c = ' ' ∨ c = '\t' ∨ c = '\x0c'
  place : ∃ text c tail, source = text ++ (blanks ++ c :: tail)
    ∧ c ∉ [' ', '\t', '\x0c', '#', '\r', '\n']
    ∧ ((before = [] ∧ text = [])
      ∨ ∃ lines lineEnd spelled, before = lines ++ [lineEnd] ∧ lineEnd.isLineEnd = true
        ∧ lineEnd.text ≠ "" ∧ Spells lines spelled ∧ text = spelled ++ lineEnd.text.toList)

/-- The laws of a stream `body ++ closing ++ [last]`, in which `closing` are the dedents that
the end of the input calls for. -/
structure Layout (source : List Char) (body closing : List Token) (last : Token) : Prop where
  /-- The stream ends with an end marker. -/
  last_kind : last.kind = .endMarker
  /-- There is no other end marker. -/
  no_endMarker : ∀ token ∈ body ++ closing, token.kind ≠ .endMarker
  /-- The dedents for the end of the input are those that stand where the end marker stands. -/
  closing_dedent : ∀ token ∈ closing, token.kind = .dedent ∧ token.position = last.position
  body_dedent : ∀ token ∈ body, token.kind = .dedent → token.position ≠ last.position
  /-- No dedent comes before its indent. -/
  nested : ∀ front, front <+: body ++ closing ++ [last] →
    front.countP (·.kind == .dedent) ≤ front.countP (·.kind == .indent)
  /-- Every indent gets its dedent. -/
  balanced : (body ++ closing ++ [last]).countP (·.kind == .dedent)
    = (body ++ closing ++ [last]).countP (·.kind == .indent)
  /-- No block opens or closes inside brackets. -/
  edge_depth : ∀ before edge after, body = before ++ edge :: after → edge.isBlockEdge = true →
    bracketDepth before = 0
  /-- A line is as wide as the innermost block that is open behind its indents and dedents. -/
  line_width : ∀ before after blanks, body = before ++ after → LineStart source before blanks →
    ∃ blocks width, openBlocks (before ++ after.takeWhile Token.isBlockEdge) = some blocks
      ∧ HasWidth blanks width ∧ InnermostWidth blocks width

/-! ### Open brackets, open blocks -/

theorem bracketDepth_append (front back : List Token) :
    bracketDepth (front ++ back) = back.foldl Token.depthBehind (bracketDepth front) :=
  List.foldl_append

/-- Tokens that are no operators leave the brackets as they are. -/
theorem depthBehind_of_not_op {tokens : List Token} (h : ∀ token ∈ tokens, token.kind ≠ .op)
    (depth : Nat) : tokens.foldl Token.depthBehind depth = depth := by
  induction tokens generalizing depth with
  | nil => rfl
  | cons token tokens ih =>
    have htoken : token.depthBehind depth = depth :=
      if_pos (h token List.mem_cons_self)
    rw [List.foldl_cons, htoken]
    exact ih (fun other hother => h other (List.mem_cons_of_mem token hother)) depth

theorem openBlocks_append (front back : List Token) :
    openBlocks (front ++ back) = openBlocks front >>= back.foldlM Token.blocksBehind :=
  List.foldlM_append

/-- Tokens that are no block edges leave the blocks as they are. -/
theorem blocksBehind_of_not_edge {tokens : List Token}
    (h : ∀ token ∈ tokens, token.isBlockEdge = false) (blocks : List String) :
    tokens.foldlM Token.blocksBehind blocks = some blocks := by
  induction tokens with
  | nil => rfl
  | cons token tokens ih =>
    have hkind : token.kind ≠ .indent ∧ token.kind ≠ .dedent := by
      simpa [Token.isBlockEdge] using h token List.mem_cons_self
    have htoken : token.blocksBehind blocks = some blocks := by
      unfold Token.blocksBehind
      split
      · next hindent => exact absurd hindent hkind.1
      · next hdedent => exact absurd hdedent hkind.2
      · rfl
    rw [List.foldlM_cons, htoken]
    exact ih fun other hother => h other (List.mem_cons_of_mem token hother)

/-- Each dedent closes the innermost block. -/
theorem blocksBehind_dedents {blocks : List String} {n : Nat} (position : Position)
    (h : n ≤ blocks.length) :
    (List.replicate n (Scanner.dedent position)).foldlM Token.blocksBehind blocks
      = some (blocks.drop n) := by
  induction n generalizing blocks with
  | zero => rfl
  | succ n ih =>
    cases blocks with
    | nil => exact absurd h (Nat.not_succ_le_zero n)
    | cons block outer => exact ih (Nat.le_of_succ_le_succ h)

/-- The blocks that are open are the indents that have no dedent yet. -/
theorem countP_blocksBehind {blocks inner : List String} {tokens : List Token}
    (h : tokens.foldlM Token.blocksBehind blocks = some inner) :
    blocks.length + tokens.countP (·.kind == .indent)
      = inner.length + tokens.countP (·.kind == .dedent) := by
  induction tokens generalizing blocks with
  | nil =>
    cases h
    rfl
  | cons token tokens ih =>
    rw [List.foldlM_cons] at h
    obtain ⟨next, htoken, hrest⟩ := Option.bind_eq_some_iff.mp h
    have hcount := ih hrest
    unfold Token.blocksBehind at htoken
    split at htoken
    · next hkind =>
      cases htoken
      rw [List.countP_cons_of_pos (by simp [hkind]), List.countP_cons_of_neg (by simp [hkind])]
      rw [List.length_cons] at hcount
      omega
    · next hkind =>
      cases blocks with
      | nil => cases htoken
      | cons block outer =>
        cases htoken
        rw [List.countP_cons_of_neg (by simp [hkind]), List.countP_cons_of_pos (by simp [hkind]),
          List.length_cons]
        omega
    · next hindent hdedent =>
      cases htoken
      rw [List.countP_cons_of_neg (by simpa using hindent),
        List.countP_cons_of_neg (by simpa using hdedent)]
      exact hcount

/-- In front of every place there are at least as many indents as dedents. -/
theorem nested_of_openBlocks {tokens front : List Token} {blocks : List String}
    (h : openBlocks tokens = some blocks) (hfront : front <+: tokens) :
    front.countP (·.kind == .dedent) ≤ front.countP (·.kind == .indent) := by
  obtain ⟨back, rfl⟩ := hfront
  rw [openBlocks_append] at h
  obtain ⟨inner, hinner, _⟩ := Option.bind_eq_some_iff.mp h
  have hcount := countP_blocksBehind hinner
  simp only [List.length_nil] at hcount
  omega

namespace Scanner

/-! ### Widths -/

theorem widen_space (width : Nat) : widen width ' ' = width + 1 := rfl

theorem widen_tab (width : Nat) : widen width '\t' = (width / 8 + 1) * 8 := rfl

theorem widen_formFeed (width : Nat) : widen width '\x0c' = 0 := rfl

theorem indentWidth_concat (blanks : List Char) (c : Char) :
    indentWidth (blanks ++ [c]) = widen (indentWidth blanks) c := by
  simp [indentWidth]

/-- The machine measures every indentation as its width says. -/
theorem eq_indentWidth_of_hasWidth {blanks : List Char} {width : Nat}
    (h : HasWidth blanks width) : width = indentWidth blanks := by
  induction h with
  | nil => rfl
  | space _ ih => rw [indentWidth_concat, widen_space, ih]
  | tab _ hstop hlt hle ih =>
    rw [indentWidth_concat, widen_tab, ← ih]
    omega
  | formFeed => rw [indentWidth_concat, widen_formFeed]

theorem hasWidth_indentWidth {blanks : List Char} (h : ∀ c ∈ blanks, isIndentChar c = true) :
    HasWidth blanks (indentWidth blanks) := by
  induction blanks using List.reverseRecOn with
  | nil => exact .nil
  | append_singleton blanks c ih =>
    have hblanks := ih fun d hd => h d (List.mem_append_left [c] hd)
    rw [indentWidth_concat]
    rcases isIndentChar_iff.mp (h c (by simp)) with rfl | rfl | rfl
    · exact .space hblanks
    · rw [widen_tab]
      exact .tab hblanks (Nat.dvd_mul_left 8 _) (by omega) (by omega)
    · exact .formFeed hblanks

theorem hasWidth_iff {blanks : List Char} {width : Nat}
    (h : ∀ c ∈ blanks, isIndentChar c = true) :
    HasWidth blanks width ↔ width = indentWidth blanks := by
  constructor
  · exact eq_indentWidth_of_hasWidth
  · rintro rfl
    exact hasWidth_indentWidth h

theorem hasWidth_blanks (s : Scanner) : HasWidth s.blanks (indentWidth s.blanks) :=
  (hasWidth_iff fun _ hc => isIndentChar_of_mem_blanks hc).mpr rfl

/-- The texts of some open indents have these widths. -/
def WidthsOf : List String → List Nat → Prop :=
  List.Forall₂ fun text width => HasWidth text.toList width

theorem innermostWidth_of_widthsOf {blocks : List String} {widths : List Nat}
    (h : WidthsOf blocks widths) : InnermostWidth blocks (widths.headD 0) := by
  cases h with
  | nil => rfl
  | cons hwidth _ => exact hwidth

/-- Dedents for the blocks that start further right leave those that are kept. -/
theorem widthsOf_kept {blocks : List String} {widths : List Nat} (h : WidthsOf blocks widths)
    (width : Nat) (position : Position) :
    ∃ inner,
      (List.replicate (closedBlocks width widths) (dedent position)).foldlM
          Token.blocksBehind blocks = some inner
        ∧ WidthsOf inner (keptBlocks width widths) := by
  have hsplit := widths.takeWhile_append_dropWhile (p := (width < ·))
  have hlength : closedBlocks width widths ≤ blocks.length := by
    rw [h.length_eq]
    exact (List.takeWhile_sublist _).length_le
  have hkept : keptBlocks width widths = widths.drop (closedBlocks width widths) := by
    calc widths.dropWhile (width < ·)
        = (widths.takeWhile (width < ·) ++ widths.dropWhile (width < ·)).drop
            (closedBlocks width widths) := List.drop_left.symm
      _ = widths.drop (closedBlocks width widths) := by rw [hsplit]
  rw [hkept]
  exact ⟨_, blocksBehind_dedents position hlength, List.forall₂_drop _ h⟩

/-! ### What a step does to brackets and blocks -/

/-- An operator counts as the machine counts it. -/
theorem depthBehind_operator (depth : Nat) (op : List Char) (position : Position) :
    Token.depthBehind depth ⟨operatorKind op, String.ofList op, position⟩
      = depthAfter depth op := by
  by_cases hcolon : op = [':']
  · rw [hcolon]
    rfl
  · have hkind : operatorKind op = .op := by simp [operatorKind, hcolon]
    simp [Token.depthBehind, depthAfter, hkind, ← String.toList_inj, or_assoc]

/-- The brackets behind a step are those that its tokens say. -/
theorem depth_of_move {s t : Scanner} {tokens : List Token} (h : Move s tokens t) :
    t.depth = tokens.foldl Token.depthBehind s.depth := by
  have hquiet (hdepth : t.depth = s.depth) (hop : ∀ token ∈ tokens, token.kind ≠ .op) :
      t.depth = tokens.foldl Token.depthBehind s.depth := by
    rw [depthBehind_of_not_op hop, hdepth]
  -- All steps but one leave the depth alone, and emit no token that counts as a bracket.
  cases h with
  | operator => exact (depthBehind_operator s.depth _ s.position).symm
  | closeBlocks =>
    refine hquiet rfl fun token htoken => ?_
    rw [List.eq_of_mem_replicate htoken]
    simp [dedent]
  | lineBreak =>
    refine hquiet rfl ?_
    rw [List.forall_mem_singleton, takeBreak_kind]
    split <;> decide
  | word _ _ _ _ hkind =>
    refine hquiet rfl ?_
    rw [List.forall_mem_singleton, take_kind]
    rcases hkind with rfl | rfl | rfl <;> decide
  | _ => exact hquiet rfl (by simp)

/-- A line whose indentation is to be read starts outside of brackets. -/
theorem depth_eq_zero_of_move {s t : Scanner} {tokens : List Token} (h : Move s tokens t)
    (hs : s.fresh = true → s.depth = 0) : t.fresh = true → t.depth = 0 := by
  cases h with
  | blankLine hfresh _ _ => exact fun _ => hs hfresh
  | commentLine hfresh _ => exact fun _ => hs hfresh
  | lineBreak => exact fun hfresh => beq_iff_eq.mp hfresh
  | openBlock => simp
  | closeBlocks => simp
  | _ hfresh => simp [hfresh]

/-- A step that does not settle the indentation of a line leaves the blocks as they are. -/
theorem quiet_of_move {s t : Scanner} {tokens : List Token} (h : Move s tokens t)
    (hfresh : s.fresh = true → t.fresh = true) :
    (∀ token ∈ tokens, token.isBlockEdge = false) ∧ t.indents = s.indents := by
  cases h with
  | openBlock hs _ _ _ => exact absurd (hfresh hs) Bool.false_ne_true
  | closeBlocks hs _ _ _ => exact absurd (hfresh hs) Bool.false_ne_true
  | lineBreak =>
    refine ⟨?_, rfl⟩
    rw [List.forall_mem_singleton, Token.isBlockEdge, takeBreak_kind]
    split <;> rfl
  | word _ _ _ _ hkind =>
    refine ⟨?_, rfl⟩
    rw [List.forall_mem_singleton, Token.isBlockEdge, take_kind]
    rcases hkind with rfl | rfl | rfl <;> rfl
  | @operator c tail n =>
    refine ⟨?_, rfl⟩
    rw [List.forall_mem_singleton, Token.isBlockEdge, take_kind, operatorKind]
    split <;> rfl
  | _ => exact ⟨by simp [Token.isBlockEdge], rfl⟩

/-- A step that settles the indentation of a line: it emits block edges only, and leaves the
innermost block as wide as the line. -/
structure OpensLine (s : Scanner) (tokens : List Token) (t : Scanner) : Prop where
  fresh : s.fresh = true
  edges : ∀ token ∈ tokens, token.isBlockEdge = true
  width : t.indents.headD 0 = indentWidth s.blanks
  blocks : ∀ blocks, WidthsOf blocks s.indents →
    ∃ inner, tokens.foldlM Token.blocksBehind blocks = some inner ∧ WidthsOf inner t.indents

theorem opensLine_of_move {s t : Scanner} {tokens : List Token} (h : Move s tokens t)
    (hs : s.fresh = true) (ht : t.fresh = false) : OpensLine s tokens t := by
  cases h with
  | blankLine => cases ht
  | commentLine => cases ht
  | openBlock =>
    refine ⟨hs, by simp [Token.isBlockEdge], rfl, fun blocks hblocks => ?_⟩
    refine ⟨String.ofList s.blanks :: blocks, rfl, .cons ?_ hblocks⟩
    rw [String.toList_ofList]
    exact s.hasWidth_blanks
  | closeBlocks _ _ _ hkept =>
    refine ⟨hs, fun token htoken => ?_, hkept, fun blocks hblocks => widthsOf_kept hblocks _ _⟩
    rw [List.eq_of_mem_replicate htoken]
    rfl
  | _ hfresh => simp [hs] at hfresh

theorem opensLine_or_quiet {s t : Scanner} {tokens : List Token} (h : Move s tokens t) :
    OpensLine s tokens t
      ∨ (∀ token ∈ tokens, token.isBlockEdge = false) ∧ t.indents = s.indents := by
  by_cases hopens : s.fresh = true ∧ t.fresh = false
  · exact .inl (opensLine_of_move h hopens.1 hopens.2)
  · exact .inr (quiet_of_move h fun hs => eq_true_of_ne_false fun ht => hopens ⟨hs, ht⟩)

/-- The blocks behind a step are those that its tokens say. -/
theorem blocks_of_move {s t : Scanner} {tokens : List Token} {blocks : List String}
    (h : Move s tokens t) (hblocks : WidthsOf blocks s.indents) :
    ∃ inner, tokens.foldlM Token.blocksBehind blocks = some inner ∧ WidthsOf inner t.indents := by
  rcases opensLine_or_quiet h with hopens | ⟨hedges, hindents⟩
  · exact hopens.blocks blocks hblocks
  · exact ⟨blocks, blocksBehind_of_not_edge hedges blocks, hindents ▸ hblocks⟩

/-! ### The invariant -/

/-- The machine has counted the brackets and the blocks as the tokens emitted so far say, and
reads indentation outside of brackets only. -/
structure Follows (emitted : List Token) (s : Scanner) : Prop where
  depth : s.depth = bracketDepth emitted
  fresh : s.fresh = true → s.depth = 0
  blocks : ∃ blocks, openBlocks emitted = some blocks ∧ WidthsOf blocks s.indents

theorem follows_start (source : List Char) : Follows [] (start source) :=
  ⟨rfl, fun _ => rfl, [], rfl, .nil⟩

/-- **A step keeps the invariant.** -/
theorem Follows.move {emitted tokens : List Token} {s t : Scanner} (hs : Follows emitted s)
    (h : Move s tokens t) : Follows (emitted ++ tokens) t := by
  obtain ⟨blocks, hopen, hwidths⟩ := hs.blocks
  obtain ⟨inner, hinner, hwidths'⟩ := blocks_of_move h hwidths
  refine ⟨?_, depth_eq_zero_of_move h hs.fresh, inner, ?_, hwidths'⟩
  · rw [bracketDepth_append, ← hs.depth]
    exact depth_of_move h
  · rw [openBlocks_append, hopen]
    exact hinner

/-- **A run keeps the invariant.** -/
theorem Follows.scans {emitted tokens : List Token} {s t : Scanner} (hs : Follows emitted s)
    (h : Scans s tokens t) : Follows (emitted ++ tokens) t := by
  induction h generalizing emitted with
  | refl s => simpa using hs
  | move hmove _ ih =>
    rw [← List.append_assoc]
    exact ih (hs.move hmove)

/-! ### Runs cut at a token -/

/-- A token of two lists in a row is a token of the first or of the second. -/
theorem append_eq_append_cons {front back before after : List Token} {token : Token}
    (h : front ++ back = before ++ token :: after) :
    (∃ mid, front = before ++ token :: mid ∧ after = mid ++ back)
      ∨ ∃ mid, before = front ++ mid ∧ back = mid ++ token :: after := by
  rcases List.append_eq_append_iff.mp h with ⟨mid, hbefore, hback⟩ | ⟨mid, hfront, hafter⟩
  · exact .inr ⟨mid, hbefore, hback⟩
  · cases mid with
    | nil =>
      rw [List.append_nil] at hfront
      exact .inr ⟨[], by simp [hfront], by simpa using hafter.symm⟩
    | cons other mid =>
      obtain ⟨rfl, rfl⟩ := List.cons.inj hafter
      exact .inl ⟨mid, hfront, rfl⟩

/-- **No block opens or closes inside brackets.** -/
theorem Follows.edge_depth {emitted tokens before after : List Token} {edge : Token}
    {s t : Scanner} (hs : Follows emitted s) (h : Scans s tokens t)
    (hsplit : tokens = before ++ edge :: after) (hedge : edge.isBlockEdge = true) :
    bracketDepth (emitted ++ before) = 0 := by
  induction h generalizing emitted before with
  | refl s => simp at hsplit
  | @move s t u tokens more hmove hscans ih =>
    rcases append_eq_append_cons hsplit with ⟨mid, rfl, _⟩ | ⟨mid, rfl, hmore⟩
    · rcases opensLine_or_quiet hmove with hopens | ⟨hquiet, _⟩
      · -- The step that emits the edge emits nothing but edges, outside of brackets.
        have hop : ∀ token ∈ before, token.kind ≠ .op := by
          intro token htoken hkind
          have := hopens.edges token (List.mem_append_left _ htoken)
          simp [Token.isBlockEdge, hkind] at this
        rw [bracketDepth_append, depthBehind_of_not_op hop, ← hs.depth]
        exact hs.fresh hopens.fresh
      · rw [hquiet edge (by simp)] at hedge
        cases hedge
    · rw [← List.append_assoc]
      exact ih (hs.move hmove) hmore

/-- A step that ends a line takes exactly the text of the line end behind the other tokens,
and the next line starts behind it. -/
theorem lineEnd_of_move {s t : Scanner} {tokens front : List Token} {lineEnd : Token}
    (h : Move s tokens t) (htokens : tokens = front ++ [lineEnd])
    (hend : lineEnd.isLineEnd = true) :
    (∃ text, s.rest = text ++ (lineEnd.text.toList ++ t.rest) ∧ Spells front text)
      ∧ (t.depth = 0 → t.fresh = true) := by
  have hsingle {token : Token} (h : [token] = front ++ [lineEnd]) :
      front = [] ∧ token = lineEnd := by
    obtain ⟨hfront, htoken⟩ := List.append_inj' (show [] ++ [token] = front ++ [lineEnd] from h) rfl
    exact ⟨hfront.symm, List.singleton_inj.mp htoken⟩
  cases h with
  | blankLine =>
    obtain ⟨rfl, rfl⟩ := hsingle htokens
    refine ⟨⟨s.blanks, ?_, .nil s.gap_blanks⟩, fun _ => rfl⟩
    rw [takeBreak_text, takeBreak_rest, String.toList_ofList, List.take_append_drop,
      blanks_append_rest]
  | commentLine =>
    obtain ⟨hfront, hlineEnd⟩ := List.append_inj'
      (show [s.pastBlanks.takeComment.1] ++ [_] = front ++ [lineEnd] from htokens) rfl
    obtain rfl := List.singleton_inj.mp hlineEnd
    have hcomment := s.pastBlanks.spells_take .comment (Lexeme.comment s.pastBlanks.rest)
    refine ⟨⟨_, ?_, hfront ▸ hcomment.gap_append s.gap_blanks⟩, fun _ => rfl⟩
    rw [takeBreak_text, takeBreak_rest, String.toList_ofList, List.take_append_drop, take_rest,
      List.append_assoc, List.take_append_drop, blanks_append_rest]
  | lineBreak =>
    obtain ⟨rfl, rfl⟩ := hsingle htokens
    refine ⟨⟨[], ?_, .nil .nil⟩, fun hdepth => beq_iff_eq.mpr hdepth⟩
    rw [takeBreak_text, takeBreak_rest, String.toList_ofList, List.take_append_drop]
    rfl
  -- The tokens of the other steps end no line.
  | openBlock =>
    obtain ⟨_, rfl⟩ := hsingle htokens
    cases hend
  | closeBlocks =>
    have hmem : lineEnd ∈ front ++ [lineEnd] := by simp
    rw [← htokens] at hmem
    rw [List.eq_of_mem_replicate hmem] at hend
    cases hend
  | comment =>
    obtain ⟨_, rfl⟩ := hsingle htokens
    cases hend
  | word _ _ _ _ hkind =>
    obtain ⟨_, rfl⟩ := hsingle htokens
    rcases hkind with rfl | rfl | rfl <;> cases hend
  | @operator c tail n =>
    obtain ⟨_, rfl⟩ := hsingle htokens
    rw [Token.isLineEnd, take_kind, operatorKind] at hend
    split at hend <;> cases hend
  | skip => simp at htokens
  | join => simp at htokens

/-- A run can be cut behind every line end. -/
theorem scans_split {s t : Scanner} {tokens before after : List Token} {lineEnd : Token}
    (h : Scans s tokens t) (hsplit : tokens = before ++ lineEnd :: after)
    (hend : lineEnd.isLineEnd = true) :
    ∃ m text, Scans s (before ++ [lineEnd]) m ∧ Scans m after t
      ∧ s.rest = text ++ (lineEnd.text.toList ++ m.rest) ∧ Spells before text
      ∧ (m.depth = 0 → m.fresh = true) := by
  induction h generalizing before with
  | refl s => simp at hsplit
  | @move s t u tokens more hmove hscans ih =>
    rcases append_eq_append_cons hsplit with ⟨mid, rfl, rfl⟩ | ⟨mid, rfl, hmore⟩
    · -- The line end is the last token of its step, so the cut falls between two steps.
      obtain rfl : mid = [] := by
        have hlast := (List.pairwise_append.mp (break_last_of_move hmove)).2.1
        rw [List.pairwise_cons] at hlast
        refine List.eq_nil_iff_forall_not_mem.mpr fun later hlater => hlast.1 later hlater ?_
        simpa [Token.isLineEnd] using hend
      obtain ⟨⟨text, hrest, htext⟩, hfresh⟩ := lineEnd_of_move hmove rfl hend
      refine ⟨t, text, ?_, by simpa using hscans, hrest, htext, hfresh⟩
      simpa using Scans.move hmove (.refl t)
    · obtain ⟨m, text, hbefore, hafter, hrest, htext, hfresh⟩ := ih hmore
      obtain ⟨first, hfirst, hspells⟩ := spells_of_move hmove
      refine ⟨m, first ++ text, ?_, hafter, ?_, hspells.append htext, hfresh⟩
      · rw [List.append_assoc]
        exact .move hmove hbefore
      · rw [hfirst, hrest, List.append_assoc]

/-! ### The start of a line -/

/-- A step inside a line that emits nothing stays inside the line. -/
theorem fresh_of_silent_move {s t : Scanner} {tokens : List Token} (h : Move s tokens t)
    (hs : s.fresh = false) (htokens : tokens = []) : t.fresh = false := by
  cases h with
  | closeBlocks => rfl
  | skip => exact hs
  | join => exact hs
  | _ => simp at htokens

/-- Inside a line no block opens or closes before another token. -/
theorem head_not_edge {s t : Scanner} {tokens : List Token} (h : Scans s tokens t)
    (hs : s.fresh = false) : ∀ token ∈ tokens.head?, token.isBlockEdge = false := by
  induction h with
  | refl s => simp
  | @move s t u tokens more hmove _ ih =>
    cases tokens with
    | nil => exact ih (fresh_of_silent_move hmove hs rfl)
    | cons token tokens =>
      have hquiet := (quiet_of_move hmove fun hfresh => absurd hfresh (by simp [hs])).1
      simpa using hquiet token List.mem_cons_self

/-- Before code the step from a line start settles the indentation. -/
theorem fresh_of_code {s t : Scanner} {tokens : List Token} {c : Char} {tail : List Char}
    (h : Move s tokens t) (hs : s.fresh = true) (hrest : s.pastBlanks.rest = c :: tail)
    (hcode : c ∉ ['#', '\r', '\n']) : t.fresh = false := by
  cases h with
  | blankLine _ hrest' hbreak =>
    obtain ⟨rfl, _⟩ := List.cons.inj (hrest.symm.trans hrest')
    have hc : c = '\r' ∨ c = '\n' := by simpa [Lexeme.isLineBreak] using hbreak
    rcases hc with rfl | rfl <;> simp at hcode
  | commentLine _ hrest' =>
    obtain ⟨rfl, _⟩ := List.cons.inj (hrest.symm.trans hrest')
    simp at hcode
  | openBlock => rfl
  | closeBlocks => rfl
  | _ hfresh => simp [hs] at hfresh

theorem takeWhile_edges {edges more : List Token}
    (hedges : ∀ token ∈ edges, token.isBlockEdge = true)
    (hmore : ∀ token ∈ more.head?, token.isBlockEdge = false) :
    (edges ++ more).takeWhile Token.isBlockEdge = edges := by
  rw [List.takeWhile_append_of_pos hedges]
  cases more with
  | nil => simp
  | cons token more =>
    have htoken := hmore token rfl
    simp [htoken]

/-- **A line is as wide as its block**: where the machine is about to read the indentation
of a line with code, the blocks that are open behind the next edges start there. -/
theorem Follows.line_width {emitted after lineEnd : List Token} {s t last : Scanner}
    {blanks tail : List Char} {c : Char} (hs : Follows emitted s) (hfresh : s.fresh = true)
    (hscans : Scans s after t) (hstop : t.step = .ok (.stop last))
    (hlineEnd : ∀ token ∈ lineEnd, token.isBlockEdge = false)
    (hrest : s.rest = blanks ++ c :: tail) (hblanks : ∀ c ∈ blanks, isIndentChar c = true)
    (hc : isIndentChar c = false) (hcode : c ∉ ['#', '\r', '\n']) :
    ∃ blocks width,
      openBlocks (emitted ++ (after ++ lineEnd).takeWhile Token.isBlockEdge) = some blocks
        ∧ HasWidth blanks width ∧ InnermostWidth blocks width := by
  have hsblanks : s.blanks = blanks := by
    rw [Scanner.blanks, hrest, List.takeWhile_append_of_pos hblanks]
    simp [hc]
  have hpast : s.pastBlanks.rest = c :: tail := by
    show s.rest.dropWhile isIndentChar = c :: tail
    rw [hrest, List.dropWhile_append_of_pos hblanks]
    simp [hc]
  cases hscans with
  | refl =>
    -- The machine does not stop in front of code.
    have := (stop_of_step hstop).1 c (by simp [hrest])
    rw [hc] at this
    cases this
  | @move s u t tokens more hmove hmore =>
    have hinside : u.fresh = false := fresh_of_code hmove hfresh hpast hcode
    have hopens := opensLine_of_move hmove hfresh hinside
    have hhead : ∀ token ∈ (more ++ lineEnd).head?, token.isBlockEdge = false := by
      cases more with
      | nil => exact fun token htoken => hlineEnd token (List.mem_of_head? htoken)
      | cons token more => simpa using head_not_edge hmore hinside
    obtain ⟨blocks, hblocks, hwidths⟩ := (hs.move hmove).blocks
    refine ⟨blocks, indentWidth blanks, ?_, (hasWidth_iff hblanks).mpr rfl, ?_⟩
    · rw [List.append_assoc, takeWhile_edges hopens.edges hhead]
      exact hblocks
    · have hwidth := innermostWidth_of_widthsOf hwidths
      rwa [hopens.width, hsblanks] at hwidth

/-! ### The end of the stream -/

/-- What closes a stream: the end of a last line that is still open, then the ends of the blocks and
of the stream. -/
theorem finish_eq (s : Scanner) (emitted : List Token) :
    s.finish emitted
      = (if emitted.head?.all Token.isLineEnd then [] else [⟨.newline, "", s.position⟩])
        ++ List.replicate s.indents.length (dedent s.endPosition)
        ++ [⟨.endMarker, "", s.endPosition⟩] := by
  cases emitted with
  | nil => rfl
  | cons token emitted => rfl

/-- Whether a line is still open depends on the kind of the last token. -/
theorem openEnd_congr {emitted emitted' tokens tokens' : List Token}
    (hkinds : tokens'.map Token.kind = tokens.map Token.kind)
    (hopen : emitted.head?.all Token.isLineEnd = emitted'.head?.all Token.isLineEnd) :
    (tokens.reverse ++ emitted).head?.all Token.isLineEnd
      = (tokens'.reverse ++ emitted').head?.all Token.isLineEnd := by
  have hkinds' : tokens'.reverse.map Token.kind = tokens.reverse.map Token.kind := by
    rw [List.map_reverse, hkinds, List.map_reverse]
  rw [List.head?_append, List.head?_append]
  cases htokens : tokens.reverse with
  | nil =>
    rw [htokens, List.map_nil, List.map_eq_nil_iff] at hkinds'
    rw [hkinds']
    exact hopen
  | cons last front =>
    rw [htokens, List.map_cons, List.map_eq_cons_iff] at hkinds'
    obtain ⟨last', front', htokens', hkind, -⟩ := hkinds'
    rw [htokens', List.head?_cons, List.head?_cons]
    show last.isLineEnd = last'.isLineEnd
    rw [Token.isLineEnd, Token.isLineEnd, hkind]

/-- The number of the first line that is empty, from a place with nothing behind it. -/
def endLine (position : Position) : Nat :=
  if position.column = 0 then position.line else position.line + 1

theorem endPosition_line (s : Scanner) : s.endPosition.line = endLine s.position := by
  unfold endPosition endLine
  split <;> rfl

theorem endLine_le_nextLine (position : Position) :
    endLine position ≤ endLine position.nextLine := by
  show endLine position ≤ position.line + 1
  unfold endLine
  split <;> omega

theorem line_lt_pastChar (position : Position) (c : Char) :
    position.line < endLine (position.pastChar c) := by
  unfold Position.pastChar
  split
  · exact Nat.lt_succ_self position.line
  · exact Nat.lt_succ_self position.line

theorem endLine_le_pastChar (position : Position) (c : Char) :
    endLine position ≤ endLine (position.pastChar c) := by
  have := line_lt_pastChar position c
  rw [endLine]
  split <;> omega

theorem endLine_le_past (position : Position) (text : List Char) :
    endLine position ≤ endLine (position.past text) := by
  induction text generalizing position with
  | nil => exact Nat.le_refl _
  | cons c text ih => exact (endLine_le_pastChar position c).trans (ih (position.pastChar c))

/-- Text uses up its line. -/
theorem line_lt_past (position : Position) {text : List Char} (htext : text ≠ []) :
    position.line < endLine (position.past text) := by
  cases text with
  | nil => exact absurd rfl htext
  | cons c text =>
    exact (line_lt_pastChar position c).trans_le (endLine_le_past (position.pastChar c) text)

theorem endLine_le_takeBreak (s : Scanner) (kind : TokenKind) :
    endLine s.position ≤ endLine (s.takeBreak kind).2.position := by
  show endLine s.position
    ≤ endLine (if Lexeme.lineBreak s.rest = 0 then s.position else s.position.nextLine)
  split
  · exact Nat.le_refl _
  · exact endLine_le_nextLine s.position

/-- A step does not go back to an earlier line. -/
theorem endLine_le_of_move {s t : Scanner} {tokens : List Token} (h : Move s tokens t) :
    endLine s.position ≤ endLine t.position := by
  have hpast : endLine s.position ≤ endLine s.pastBlanks.position :=
    endLine_le_past s.position s.blanks
  cases h with
  | blankLine => exact hpast.trans (s.pastBlanks.endLine_le_takeBreak .blankLine)
  | commentLine =>
    exact (hpast.trans (endLine_le_past _ _)).trans
      (s.pastBlanks.takeComment.2.endLine_le_takeBreak .blankLine)
  | openBlock => exact hpast
  | closeBlocks => exact hpast
  | skip => exact endLine_le_pastChar s.position _
  | join => exact endLine_le_nextLine s.position
  | lineBreak => exact s.endLine_le_takeBreak _
  | comment => exact endLine_le_past s.position _
  | word => exact endLine_le_past s.position _
  | operator => exact endLine_le_past s.position _

theorem endLine_le_of_scans {s t : Scanner} {tokens : List Token} (h : Scans s tokens t) :
    endLine s.position ≤ endLine t.position := by
  induction h with
  | refl s => exact Nat.le_refl _
  | move hmove _ ih => exact (endLine_le_of_move hmove).trans ih

/-- A step inside a line uses up the line. -/
theorem line_lt_of_move {s t : Scanner} {tokens : List Token} (h : Move s tokens t)
    (hs : s.fresh = false) : s.position.line < endLine t.position := by
  have htake {c : Char} {tail : List Char} {n : Nat} (hrest : s.rest = c :: tail) (hn : 0 < n) :
      s.position.line < endLine (s.position.past (s.rest.take n)) := by
    refine line_lt_past s.position ?_
    rw [hrest, List.take_cons hn]
    exact List.cons_ne_nil _ _
  cases h with
  | skip => exact line_lt_pastChar s.position _
  | join => exact Nat.lt_succ_self s.position.line
  | @lineBreak c tail _ hrest hbreak =>
    have hn : Lexeme.lineBreak s.rest ≠ 0 := by
      rw [hrest]
      exact (lineBreak_pos tail hbreak).ne'
    show s.position.line
      < endLine (if Lexeme.lineBreak s.rest = 0 then s.position else s.position.nextLine)
    rw [if_neg hn]
    exact Nat.lt_succ_self s.position.line
  | @comment tail _ hrest => exact htake hrest (by rw [hrest]; exact comment_pos tail)
  | word _ hrest _ hn _ => exact htake hrest hn
  | operator _ hrest _ hn => exact htake hrest hn
  | _ hfresh => simp [hs] at hfresh

/-- A dedent stands where the machine stands behind it, in front of code. -/
theorem dedent_of_move {s t : Scanner} {tokens : List Token} {token : Token}
    (h : Move s tokens t) (htoken : token ∈ tokens) (hkind : token.kind = .dedent) :
    token.position = t.position ∧ t.fresh = false
      ∧ ∃ c ∈ t.rest, isIndentChar c = false := by
  have hloud : ¬(s.fresh = true → t.fresh = true) := by
    intro hfresh
    have := (quiet_of_move h hfresh).1 token htoken
    simp [Token.isBlockEdge, hkind] at this
  cases h with
  | blankLine => exact absurd (fun _ => rfl) hloud
  | commentLine => exact absurd (fun _ => rfl) hloud
  | openBlock =>
    obtain rfl := List.mem_singleton.mp htoken
    cases hkind
  | @closeBlocks c tail _ hrest _ _ =>
    obtain rfl := List.eq_of_mem_replicate htoken
    refine ⟨rfl, rfl, c, ?_, not_blank_of_pastBlanks hrest⟩
    show c ∈ s.pastBlanks.rest
    simp [hrest]
  | _ hfresh => exact absurd (fun hs => absurd hs (by simp [hfresh])) hloud

/-- **Every dedent that a run emits stands in front of the end of the stream.** -/
theorem dedent_line_of_scans {s t last : Scanner} {tokens : List Token} {token : Token}
    (h : Scans s tokens t) (hstop : t.step = .ok (.stop last)) (htoken : token ∈ tokens)
    (hkind : token.kind = .dedent) : token.position.line < last.endPosition.line := by
  induction h with
  | refl s => exact absurd htoken List.not_mem_nil
  | @move s t u tokens more hmove hscans ih =>
    rcases List.mem_append.mp htoken with htoken | htoken
    · obtain ⟨hposition, hfresh, c, hc, hblank⟩ := dedent_of_move hmove htoken hkind
      rw [hposition, endPosition_line]
      cases hscans with
      | refl =>
        -- The machine does not stop in front of code.
        rw [(stop_of_step hstop).1 c hc] at hblank
        cases hblank
      | move hnext hrest =>
        have hlast : endLine u.position ≤ endLine last.position := by
          rcases (stop_of_step hstop).2 with rfl | rfl
          · exact Nat.le_refl _
          · exact endLine_le_past u.position u.blanks
        exact (line_lt_of_move hnext hfresh).trans_le ((endLine_le_of_scans hrest).trans hlast)
    · exact ih hstop htoken

/-! ### The whole stream -/

/-- **Where a logical line starts, the machine is about to read its indentation.** -/
theorem resume_of_lineStart {source blanks : List Char} {scanned lineEnd before after : List Token}
    {t : Scanner} (hscans : Scans (start source) scanned t)
    (hsilent : ∀ token ∈ lineEnd, token.text = "") (hbody : scanned ++ lineEnd = before ++ after)
    (hline : LineStart source before blanks) :
    ∃ s more c tail, Scans (start source) before s ∧ Scans s more t ∧ after = more ++ lineEnd
      ∧ s.fresh = true ∧ s.rest = blanks ++ c :: tail
      ∧ c ∉ [' ', '\t', '\x0c', '#', '\r', '\n'] := by
  obtain ⟨text, c, tail, hsource, hcode, hplace⟩ := hline.place
  rcases hplace with ⟨rfl, rfl⟩ | ⟨lines, last, spelled, rfl, hlast, htext, hspells, rfl⟩
  · exact ⟨start source, scanned, c, tail, .refl _, hscans, hbody.symm, rfl, hsource, hcode⟩
  · rw [List.append_assoc, List.singleton_append] at hbody
    rcases append_eq_append_cons hbody with ⟨more, rfl, rfl⟩ | ⟨mid, _, rfl⟩
    · obtain ⟨s, front, hbefore, hmore, hrest, hfront, hfresh⟩ := scans_split hscans rfl hlast
      have hdepth : s.depth = 0 :=
        ((follows_start source).scans hbefore).depth.trans hline.depth
      have htokens := solid_or_gap_of_scans hscans
      have hsolid : Solid last.text.toList := by
        rcases htokens last (by simp) with hsolid | ⟨_, hkind | hempty⟩
        · exact hsolid
        · simp [Token.isLineEnd, hkind] at hlast
        · exact absurd hempty htext
      -- The lines spell one and the same part of the source, here and for the machine.
      have hsame : last.text.toList ++ (blanks ++ c :: tail) = last.text.toList ++ s.rest := by
        refine Spells.cancel (fun token htoken => ?_) .nil .nil hspells hfront
          (hsolid.append _) (hsolid.append _) ?_
        · exact (htokens token (by simp [htoken])).imp_right And.left
        · rw [List.append_assoc] at hsource
          exact hsource.symm.trans hrest
      exact ⟨s, more, c, tail, hbefore, hmore, rfl, hfresh hdepth,
        (List.append_cancel_left hsame).symm, hcode⟩
    · exact absurd (hsilent last (by simp)) htext

/-- At the end of the stream no block is open. -/
theorem Follows.openBlocks_finish {scanned lineEnd : List Token} {t last : Scanner}
    (ht : Follows scanned t) (hstop : t.step = .ok (.stop last))
    (hlineEnd : ∀ token ∈ lineEnd, token.isBlockEdge = false) (position : Position) :
    openBlocks (scanned ++ lineEnd ++ List.replicate last.indents.length (dedent position)
      ++ [⟨.endMarker, "", position⟩]) = some [] := by
  have hindents : last.indents = t.indents := by
    rcases (stop_of_step hstop).2 with rfl | rfl <;> rfl
  obtain ⟨blocks, hblocks, hwidths⟩ := ht.blocks
  have hlength : last.indents.length = blocks.length := by
    rw [hindents, hwidths.length_eq]
  have hclosed : openBlocks
      (scanned ++ lineEnd ++ List.replicate last.indents.length (dedent position)) = some [] := by
    rw [openBlocks_append, openBlocks_append, hblocks]
    show lineEnd.foldlM Token.blocksBehind blocks >>= _ = some []
    rw [blocksBehind_of_not_edge hlineEnd, hlength]
    show List.foldlM Token.blocksBehind blocks _ = some []
    rw [blocksBehind_dedents position (Nat.le_refl _), List.drop_length]
  rw [openBlocks_append, hclosed]
  rfl

end Scanner

/-- **The tokens of a text obey the laws of layout.** -/
theorem tokenize_layout {source : String} {tokens : List Token}
    (h : tokenize source = .ok tokens) :
    ∃ body closing last, tokens = body ++ closing ++ [last]
      ∧ Layout source.toList body closing last := by
  obtain ⟨scanned, t, stopped, hscans, hstop, rfl⟩ := Scanner.scans_of_tokenize h
  obtain ⟨lineEnd, hfinish, hlineEnd⟩ := Scanner.finish_cases stopped scanned.reverse
  have hfollows : Scanner.Follows scanned t := (Scanner.follows_start _).scans hscans
  have hnewline : ∀ token ∈ lineEnd, token.kind = .newline ∧ token.text = "" := by
    rcases hlineEnd with ⟨rfl, _⟩ | rfl <;> simp
  have hquiet : ∀ token ∈ lineEnd, token.isBlockEdge = false := by
    intro token htoken
    rw [Token.isBlockEdge, (hnewline token htoken).1]
    rfl
  have hblocks := hfollows.openBlocks_finish hstop hquiet stopped.endPosition
  -- The body is what the run emits, with the end of a last line that has no break of its own.
  refine ⟨scanned ++ lineEnd,
    List.replicate stopped.indents.length (Scanner.dedent stopped.endPosition),
    ⟨.endMarker, "", stopped.endPosition⟩, by simp [hfinish], ?_⟩
  constructor
  case last_kind => rfl
  case no_endMarker =>
    intro token htoken
    rw [List.mem_append, List.mem_append] at htoken
    rcases htoken with (htoken | htoken) | htoken
    · exact (Scanner.text_of_scans hscans token htoken).1
    · simp [(hnewline token htoken).1]
    · simp [List.eq_of_mem_replicate htoken, Scanner.dedent]
  case closing_dedent =>
    intro token htoken
    rw [List.eq_of_mem_replicate htoken]
    exact ⟨rfl, rfl⟩
  case body_dedent =>
    intro token htoken hkind hposition
    rcases List.mem_append.mp htoken with htoken | htoken
    · have hline := Scanner.dedent_line_of_scans hscans hstop htoken hkind
      rw [hposition] at hline
      exact Nat.lt_irrefl _ hline
    · simp [(hnewline token htoken).1] at hkind
  case nested => exact fun front hfront => nested_of_openBlocks hblocks hfront
  case balanced =>
    have hcount := countP_blocksBehind hblocks
    simpa using hcount.symm
  case edge_depth =>
    intro before edge after hsplit hedge
    rcases Scanner.append_eq_append_cons hsplit with ⟨mid, hscanned, _⟩ | ⟨mid, _, rfl⟩
    · exact (Scanner.follows_start _).edge_depth hscans hscanned hedge
    · rw [hquiet edge (by simp)] at hedge
      cases hedge
  case line_width =>
    intro before after blanks hsplit hline
    have hsilent : ∀ token ∈ lineEnd, token.text = "" :=
      fun token htoken => (hnewline token htoken).2
    obtain ⟨s, more, c, tail, hbefore, hmore, rfl, hfresh, hrest, hcode⟩ :=
      Scanner.resume_of_lineStart hscans hsilent hsplit hline
    have hs : Scanner.Follows before s := (Scanner.follows_start _).scans hbefore
    refine hs.line_width hfresh hmore hstop hquiet hrest ?_ ?_ ?_
    · exact fun d hd => Scanner.isIndentChar_iff.mpr (hline.blank d hd)
    · rw [← Bool.not_eq_true, Scanner.isIndentChar_iff]
      rintro (rfl | rfl | rfl) <;> simp at hcode
    · exact fun hc => hcode (List.mem_append_right [' ', '\t', '\x0c'] hc)

/-- Nested blocks, one of them closed by a line as wide as a tab, with a bracket over two
lines. The second line is a logical line with a tab before it. -/
theorem layout_nestedBlocks :
    (∃ body closing last,
      [⟨.name, "if", ⟨1, 0⟩⟩, ⟨.name, "a", ⟨1, 3⟩⟩, ⟨.colon, ":", ⟨1, 4⟩⟩,
        ⟨.newline, "\n", ⟨1, 5⟩⟩, ⟨.indent, "\t", ⟨2, 0⟩⟩, ⟨.name, "if", ⟨2, 1⟩⟩,
        ⟨.name, "b", ⟨2, 4⟩⟩, ⟨.colon, ":", ⟨2, 5⟩⟩, ⟨.newline, "\n", ⟨2, 6⟩⟩,
        ⟨.indent, "\t  ", ⟨3, 0⟩⟩, ⟨.op, "(", ⟨3, 3⟩⟩, ⟨.name, "c", ⟨3, 4⟩⟩,
        ⟨.blankLine, "\n", ⟨3, 5⟩⟩, ⟨.op, ")", ⟨4, 0⟩⟩, ⟨.newline, "\n", ⟨4, 1⟩⟩,
        ⟨.dedent, "", ⟨5, 8⟩⟩, ⟨.name, "d", ⟨5, 8⟩⟩, ⟨.newline, "", ⟨5, 9⟩⟩,
        ⟨.dedent, "", ⟨6, 0⟩⟩, ⟨.endMarker, "", ⟨6, 0⟩⟩] = body ++ closing ++ [last]
      ∧ Layout "if a:\n\tif b:\n\t  (c\n)\n        d".toList body closing last)
    ∧ LineStart "if a:\n\tif b:\n\t  (c\n)\n        d".toList
        [⟨.name, "if", ⟨1, 0⟩⟩, ⟨.name, "a", ⟨1, 3⟩⟩, ⟨.colon, ":", ⟨1, 4⟩⟩,
          ⟨.newline, "\n", ⟨1, 5⟩⟩] ['\t'] := by
  refine ⟨tokenize_layout (by decide +kernel), by decide, by simp, "if a:\n".toList, 'i',
    "f b:\n\t  (c\n)\n        d".toList, by decide, by decide, .inr ?_⟩
  refine ⟨[⟨.name, "if", ⟨1, 0⟩⟩, ⟨.name, "a", ⟨1, 3⟩⟩, ⟨.colon, ":", ⟨1, 4⟩⟩],
    ⟨.newline, "\n", ⟨1, 5⟩⟩, "if a:".toList, rfl, by decide, by decide, ?_, by decide⟩
  exact .cons .nil (.cons (.blank (.inl rfl) .nil) (.cons .nil (.nil .nil)))

end PyStyle
