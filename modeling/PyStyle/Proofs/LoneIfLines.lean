import PyStyle.Proofs.BlockMatching
import PyStyle.Proofs.FaultFreeChecks

/-!
# The lines of an `else` with a reported `if`

The check of implicit `elif`s reports an `if` in the block of an `else` when no code follows it
there. To find out, it takes the first edge of a block behind the `if` for the start of its body.
That is right if the body is a block, and if the `if` ends the block of the `else`; behind an `if`
in one line, whose body is no block, it is the edge of something else.

- `OnlyLine` — behind the `if` no line starts in the block of the `else`;
- `EndsAtEdge` — the line of the `if` goes up to the next edge of a block;
- `onlyLine_of_dedent`, `onlyLine_of_indent` — what the next edge says about the block;
- `implicitElif_onlyLine_iff` — a reported `if` is alone in its block exactly if its line goes up to
  the next edge;
- `implicitElif_oneLineIf` — an `if` in one line that is reported and not alone.
-/

namespace PyStyle

open Check

/-! ### Lines of a block -/

/-- A line starts behind the tokens: the last one, fillers apart, ends a line or closes a block. -/
def LineFollows (front : List Token) : Prop :=
  ∃ token ∈ lastSolid? front, token.kind = .newline ∨ token.kind = .dedent

/-- No line of the block starts in `body`, which the dedent of the block follows: what starts a line
at the level of the block is the indent of another block, or the dedent itself. -/
def OnlyLine (body : List Token) (dedent : Token) : Prop :=
  ∀ front next back, body ++ [dedent] = front ++ next :: back → LineFollows front →
    openBlocks front = some [] → next.isFiller = false → next.kind = .indent ∨ back = []

/-- No line starts before the next edge of a block. -/
def EndsAtEdge (rest : List Token) : Prop :=
  ∀ front next back, rest = front ++ next :: back → LineFollows front →
    (∀ token ∈ front, token.isBlockEdge = false) → next.isFiller = false →
    next.isBlockEdge = true

/-- In front of the next edge there are only fillers behind a line end. -/
theorem EndsAtEdge.filler {quiet tail front back : List Token} {next : Token}
    (h : EndsAtEdge (quiet ++ tail)) (hquiet : ∀ token ∈ quiet, token.isBlockEdge = false)
    (hsplit : quiet = front ++ next :: back) (hline : LineFollows front) :
    next.isFiller = true := by
  subst hsplit
  refine eq_true_of_ne_false fun hfiller => ?_
  have hedge := h front next (back ++ tail) (by simp) hline
    (fun token htoken => hquiet token (by simp [htoken])) hfiller
  rw [hquiet next (by simp)] at hedge
  cases hedge

/-- If the next edge closes the block, no line starts before it. -/
theorem onlyLine_of_dedent {quiet more : List Token} {dedent : Token}
    (hquiet : ∀ token ∈ quiet, token.isBlockEdge = false)
    (h : EndsAtEdge (quiet ++ dedent :: more)) : OnlyLine quiet dedent := by
  intro front next back hsplit hline _ hfiller
  rcases Scanner.append_eq_append_cons hsplit with ⟨mid, hmid, _⟩ | ⟨mid, hfront, hmid⟩
  · rw [h.filler hquiet hmid hline] at hfiller
    cases hfiller
  · -- The place is that of the dedent, the only token behind.
    cases mid with
    | nil =>
      obtain ⟨_, hback⟩ := List.cons.inj hmid
      exact Or.inr hback.symm
    | cons other mid => simp at hmid

/-- If the next edge opens a block and the block around is closed with it, no line starts before,
inside or behind it. -/
theorem onlyLine_of_indent {quiet inside more : List Token} {indent closing dedent : Token}
    (hquiet : ∀ token ∈ quiet, token.isBlockEdge = false) (hindent : indent.kind = .indent)
    (hinside : openBlocks inside = some [])
    (h : EndsAtEdge (quiet ++ indent :: (inside ++ closing :: dedent :: more))) :
    OnlyLine (quiet ++ indent :: (inside ++ [closing])) dedent := by
  intro front next back hsplit hline hopen hfiller
  have hsplit' : quiet ++ indent :: (inside ++ [closing, dedent]) = front ++ next :: back := by
    simpa using hsplit
  rcases Scanner.append_eq_append_cons hsplit' with ⟨mid, hmid, _⟩ | ⟨mid, rfl, hmid⟩
  · rw [h.filler hquiet hmid hline] at hfiller
    cases hfiller
  · cases mid with
    | nil =>
      obtain ⟨rfl, _⟩ := List.cons.inj hmid
      exact Or.inl hindent
    | cons other mid =>
      obtain ⟨rfl, hrest⟩ := List.cons.inj hmid
      -- Up to its dedent the inner block is open, so that its lines are not at the level.
      have hdeep : ∀ blocks, openBlocks mid ≠ some blocks := by
        intro blocks hblocks
        rw [openBlocks_inside (blocksBehind_of_not_edge hquiet []) hindent hblocks] at hopen
        simp at hopen
      rcases Scanner.append_eq_append_cons hrest with ⟨back', rfl, _⟩ | ⟨tail, rfl, htail⟩
      · obtain ⟨blocks, hblocks, _⟩ := openBlocks_of_append hinside
        exact absurd hblocks (hdeep blocks)
      · cases tail with
        | nil => exact absurd (by simpa using hinside) (hdeep [])
        | cons first tail =>
          obtain ⟨_, hlast⟩ := List.cons.inj htail
          cases tail with
          | nil =>
            obtain ⟨_, hback⟩ := List.cons.inj hlast
            exact Or.inr hback.symm
          | cons second tail => simp at hlast

/-- Where no line of the block starts, none starts before the next edge. -/
theorem OnlyLine.endsAtEdge {body more : List Token} {dedent : Token} (h : OnlyLine body dedent)
    (hdedent : dedent.kind = .dedent) : EndsAtEdge (body ++ dedent :: more) := by
  intro front next back hsplit hline hquiet hfiller
  rcases List.append_eq_append_iff.mp hsplit.symm with ⟨mid, rfl, hmid⟩ | ⟨mid, rfl, hmid⟩
  · cases mid with
    | nil =>
      obtain ⟨rfl, _⟩ := List.cons.inj hmid
      simp [Token.isBlockEdge, hdedent]
    | cons other mid =>
      obtain ⟨rfl, _⟩ := List.cons.inj hmid
      have hlevel : openBlocks front = some [] := blocksBehind_of_not_edge hquiet []
      rcases h front next (mid ++ [dedent]) (by simp) hline hlevel hfiller with hindent | hback
      · simp [Token.isBlockEdge, hindent]
      · simp at hback
  · -- The dedent is no part of what stands before the next edge.
    cases mid with
    | nil =>
      obtain ⟨rfl, _⟩ := List.cons.inj hmid
      simp [Token.isBlockEdge, hdedent]
    | cons other mid =>
      obtain ⟨rfl, _⟩ := List.cons.inj hmid
      have hedge := hquiet dedent (by simp)
      simp [Token.isBlockEdge, hdedent] at hedge

/-! ### What the check looks at -/

/-- The count of open blocks, over tokens that leave the blocks `inner` open. -/
theorem afterBlocks_append {tokens : List Token} {blocks inner : List String}
    (h : tokens.foldlM Token.blocksBehind blocks = some inner) (rest : List Token) :
    afterBlocks (blocks.length + 1) (tokens ++ rest) = afterBlocks (inner.length + 1) rest := by
  induction tokens generalizing blocks with
  | nil =>
    cases h
    rfl
  | cons token tokens ih =>
    rw [List.foldlM_cons] at h
    obtain ⟨next, htoken, hrest⟩ := Option.bind_eq_some_iff.mp h
    rw [← ih hrest, List.cons_append]
    unfold Token.blocksBehind at htoken
    split at htoken
    · next hkind =>
      cases htoken
      rw [afterBlocks, hkind]
      rfl
    · next hkind =>
      cases blocks with
      | nil => cases htoken
      | cons block outer =>
        cases htoken
        rw [afterBlocks, hkind]
        rfl
    · next hindent hdedent =>
      cases htoken
      rw [afterBlocks]
      split <;> simp_all

/-- If the first edge behind the `if` opens a block and no code follows, the dedent of that block is
followed by another dedent, or by nothing. -/
theorem dedent_of_hasCodeAfterIf {quiet inside after : List Token} {indent closing : Token}
    (hquiet : ∀ token ∈ quiet, token.isBlockEdge = false) (hindent : indent.kind = .indent)
    (hinside : openBlocks inside = some []) (hclosing : closing.kind = .dedent)
    (h : hasCodeAfterIf (quiet ++ indent :: (inside ++ closing :: after)) = false) :
    ∀ next ∈ after.head?, next.kind = .dedent := by
  have hscan : (quiet ++ indent :: (inside ++ closing :: after)).dropWhile (!isBlockEdge ·)
      = indent :: (inside ++ closing :: after) := by
    rw [List.dropWhile_append_of_pos fun token htoken => by
      simpa [isBlockEdge, Token.isBlockEdge] using hquiet token htoken]
    simp [isBlockEdge, hindent]
  have hafter : afterBlocks 1 (inside ++ closing :: after) = some after := by
    refine (afterBlocks_append hinside _).trans ?_
    rw [List.length_nil, afterBlocks, hclosing, afterBlocks]
  rw [hasCodeAfterIf, hscan] at h
  dsimp only at h
  rw [hafter] at h
  cases after with
  | nil => simp
  | cons next after => simpa using h

/-- Tokens that close a block have a first edge. -/
theorem exists_first_edge {tokens : List Token} {block : String} {base : List String}
    (h : tokens.foldlM Token.blocksBehind (block :: base) = some []) :
    ∃ quiet edge tail, tokens = quiet ++ edge :: tail
      ∧ (∀ token ∈ quiet, token.isBlockEdge = false) ∧ edge.isBlockEdge = true := by
  have hsplit := tokens.takeWhile_append_dropWhile (p := (!·.isBlockEdge))
  have hquiet : ∀ token ∈ tokens.takeWhile (!·.isBlockEdge), token.isBlockEdge = false := by
    intro token htoken
    simpa using List.mem_takeWhile_imp htoken
  cases hdrop : tokens.dropWhile (!·.isBlockEdge) with
  | nil =>
    rw [hdrop, List.append_nil] at hsplit
    rw [← hsplit, blocksBehind_of_not_edge hquiet] at h
    cases h
  | cons edge tail =>
    rw [hdrop] at hsplit
    have hedge := List.head?_dropWhile_not (!·.isBlockEdge) tokens
    rw [hdrop] at hedge
    exact ⟨_, edge, tail, hsplit.symm, hquiet, by simpa using hedge⟩

/-- **An `if` without code after it is alone exactly if its line goes up to the next edge.** The
tokens stand behind the `if`; the innermost block that is open there is the one it stands in. -/
theorem exists_onlyLine_iff {rest : List Token} {block : String} {base : List String}
    (h : rest.foldlM Token.blocksBehind (block :: base) = some [])
    (halone : hasCodeAfterIf rest = false) :
    ∃ body dedent more, rest = body ++ dedent :: more ∧ dedent.kind = .dedent
      ∧ openBlocks body = some [] ∧ (OnlyLine body dedent ↔ EndsAtEdge rest) := by
  obtain ⟨quiet, edge, tail, rfl, hquiet, hedge⟩ := exists_first_edge h
  have hkind : edge.kind = .indent ∨ edge.kind = .dedent := by
    simpa [Token.isBlockEdge] using hedge
  rcases hkind with hindent | hdedent
  · -- The body of the `if` is a block: the scan ends behind it, in front of another dedent.
    have hfold := h
    rw [List.foldlM_append, blocksBehind_of_not_edge hquiet] at hfold
    have htail : tail.foldlM Token.blocksBehind ([] ++ edge.text :: block :: base) = some [] := by
      rw [← hfold]
      show _ = List.foldlM Token.blocksBehind (block :: base) (edge :: tail)
      rw [List.foldlM_cons, blocksBehind_indent hindent]
      rfl
    obtain ⟨inside, closing, after, rfl, hclosing, hinside⟩ := exists_closing htail (Nat.zero_le _)
    have hbody : openBlocks (quiet ++ edge :: (inside ++ [closing])) = some [] := by
      have hlevel : openBlocks quiet = some [] := blocksBehind_of_not_edge hquiet []
      have hconcat := openBlocks_concat (openBlocks_inside hlevel hindent hinside) closing
      rw [blocksBehind_dedent hclosing] at hconcat
      simpa using hconcat
    have hnext := dedent_of_hasCodeAfterIf hquiet hindent hinside hclosing halone
    cases after with
    | nil =>
      -- Something must still close the block of the `else`.
      have hstill := blocksBehind_within hbody (block :: base)
      cases hstill.symm.trans h
    | cons dedent more =>
      have hdedent := hnext dedent rfl
      refine ⟨quiet ++ edge :: (inside ++ [closing]), dedent, more, by simp, hdedent, hbody, ?_⟩
      constructor
      · intro honly
        simpa using honly.endsAtEdge hdedent
      · exact onlyLine_of_indent hquiet hindent hinside
  · refine ⟨quiet, edge, tail, rfl, hdedent, blocksBehind_of_not_edge hquiet [], ?_⟩
    constructor
    · intro honly
      exact honly.endsAtEdge hdedent
    · exact onlyLine_of_dedent hquiet

/-- The check reports `if`s that stand behind the layout of an `else`. -/
theorem layout_of_seen {visit : TokenVisit} {violation : Violation} {inner : Token}
    {rest : List Token} (h : ImplicitElifSeen visit violation inner rest) :
    ∃ layout, visit.after = layout ++ inner :: rest
      ∧ ∀ token ∈ layout, isElseLayout token = true := by
  have hsplit := visit.after.takeWhile_append_dropWhile (p := isElseLayout)
  rw [h.behind] at hsplit
  exact ⟨_, hsplit.symm, fun token htoken => List.mem_takeWhile_imp htoken⟩

/-- **A reported `if` is the only line of its block exactly if its own line goes up to the next edge
of a block.** The block is that of the last indent between the `else` and the `if`; `body` are the
tokens from the `if` to the dedent of this block. An `if` whose body is a block is followed by an
indent, so it is always alone; an `if` in one line may have other lines behind it. -/
theorem implicitElif_onlyLine_iff {source : String} {unit : SourceUnit}
    (htokens : tokenize source = .ok unit.tokens) {visit : TokenVisit}
    (hvisit : visit ∈ tokenVisits unit) {catalog : Catalog} {violation : Violation}
    (hviolation : violation ∈ ((implicitElif.visit visit).run catalog).1) :
    ∃ layout inner rest, visit.after = layout ++ inner :: rest
      ∧ (∀ token ∈ layout, isElseLayout token = true) ∧ inner.isKeyword "if" = true
      ∧ violation = Violation.of Rule.implicitElif inner.position none
      ∧ ∀ outer indent gap, layout = outer ++ indent :: gap → indent.kind = .indent →
          (∀ token ∈ gap, token.kind ≠ .indent) →
          ∃ body dedent more, rest = body ++ dedent :: more ∧ dedent.kind = .dedent
            ∧ openBlocks body = some [] ∧ (OnlyLine body dedent ↔ EndsAtEdge rest) := by
  obtain ⟨inner, rest, hseen⟩ := implicitElif_of_mem_run hviolation
  obtain ⟨layout, hafter, hlayout⟩ := layout_of_seen hseen
  refine ⟨layout, inner, rest, hafter, hlayout, hseen.inner_keyword, hseen.violation_eq, ?_⟩
  rintro outer indent gap rfl hindent hgap
  have hquiet : ∀ token ∈ gap ++ [inner], token.isBlockEdge = false := by
    intro token htoken
    rcases List.mem_append.mp htoken with hgapToken | hinner
    · have hkind := hgap token hgapToken
      have hallowed := hlayout token (by simp [hgapToken])
      simp only [isElseLayout, Bool.or_eq_true, beq_iff_eq] at hallowed
      rcases hallowed with ((h | h) | h) | h <;> simp_all [Token.isBlockEdge]
    · rw [List.mem_singleton.mp hinner]
      have hname := (Bool.and_eq_true_iff.mp hseen.inner_keyword).1
      simp [Token.isBlockEdge, beq_iff_eq.mp hname]
  have hopen := openBlocks_of_tokenize htokens
  have hsplit : unit.tokens
      = (visit.before.reverse ++ visit.token :: outer) ++ (indent :: (gap ++ [inner] ++ rest)) := by
    rw [tokens_of_mem_tokenVisits hvisit, hafter]
    simp
  rw [hsplit] at hopen
  obtain ⟨base, _, hbehind⟩ := openBlocks_of_append hopen
  rw [List.foldlM_cons, blocksBehind_indent hindent] at hbehind
  have hrest : (gap ++ [inner] ++ rest).foldlM Token.blocksBehind (indent.text :: base) = some [] :=
    hbehind
  rw [List.foldlM_append, blocksBehind_of_not_edge hquiet] at hrest
  exact exists_onlyLine_iff hrest hseen.alone

/-- An `else` with an `if` in one line, and a line behind it. -/
def oneLineIf : String :=
  "if a:\n    x = 1\nelse:\n    if b: y = 2\n    z = 3\n"

/-- The tokens from the `if` in one line to the end of its block. -/
def oneLineIfBody : List Token :=
  [⟨.name, "b", ⟨4, 7⟩⟩, ⟨.colon, ":", ⟨4, 8⟩⟩, ⟨.name, "y", ⟨4, 10⟩⟩, ⟨.op, "=", ⟨4, 12⟩⟩,
   ⟨.number, "2", ⟨4, 14⟩⟩, ⟨.newline, "\n", ⟨4, 15⟩⟩, ⟨.name, "z", ⟨5, 4⟩⟩, ⟨.op, "=", ⟨5, 6⟩⟩,
   ⟨.number, "3", ⟨5, 8⟩⟩, ⟨.newline, "\n", ⟨5, 9⟩⟩]

/-- The visit to the `else`. -/
def oneLineIfVisit : TokenVisit where
  path := "m.py"
  before :=
    [⟨.dedent, "", ⟨3, 0⟩⟩, ⟨.newline, "\n", ⟨2, 9⟩⟩, ⟨.number, "1", ⟨2, 8⟩⟩, ⟨.op, "=", ⟨2, 6⟩⟩,
     ⟨.name, "x", ⟨2, 4⟩⟩, ⟨.indent, "    ", ⟨2, 0⟩⟩, ⟨.newline, "\n", ⟨1, 5⟩⟩,
     ⟨.colon, ":", ⟨1, 4⟩⟩, ⟨.name, "a", ⟨1, 3⟩⟩, ⟨.name, "if", ⟨1, 0⟩⟩]
  token := ⟨.name, "else", ⟨3, 0⟩⟩
  after :=
    [⟨.colon, ":", ⟨3, 4⟩⟩, ⟨.newline, "\n", ⟨3, 5⟩⟩] ++ ⟨.indent, "    ", ⟨4, 0⟩⟩ :: []
      ++ ⟨.name, "if", ⟨4, 4⟩⟩ :: (oneLineIfBody
      ++ ⟨.dedent, "", ⟨6, 0⟩⟩ :: [⟨.endMarker, "", ⟨6, 0⟩⟩])

/-- A unit with just these tokens. -/
def TokenVisit.unit (visit : TokenVisit) : SourceUnit where
  path := visit.path
  tree := .plain .module ⟨1, 0⟩ []
  tokens := visit.before.reverse ++ visit.token :: visit.after

theorem TokenVisit.mem_tokenVisits_unit (visit : TokenVisit) : visit ∈ tokenVisits visit.unit :=
  mem_tokenVisits rfl rfl

theorem tokenize_oneLineIf : tokenize oneLineIf = .ok oneLineIfVisit.unit.tokens := by
  decide +kernel

/-- The standard rules hold that of implicit `elif`s, so that what is found is reported. -/
theorem mem_run_of_reportAt {visit : TokenVisit} {position : Position}
    (h : position ∈ reportAt visit.before visit.token visit.after) :
    Violation.of Rule.implicitElif position none
      ∈ ((implicitElif.visit visit).run (.ofGroups Catalog.standardGroups)).1 := by
  have hrule := Catalog.contains_reportedRules Rule.implicitElif (by simp [reportedRules])
  rw [run_implicitElif hrule]
  exact List.mem_map_of_mem h

theorem report_oneLineIf :
    Violation.of Rule.implicitElif ⟨4, 4⟩ none
      ∈ ((implicitElif.visit oneLineIfVisit).run (.ofGroups Catalog.standardGroups)).1 :=
  mem_run_of_reportAt (by decide)

theorem oneLineIf_onlyLine_iff :
    tokenize oneLineIf = .ok oneLineIfVisit.unit.tokens
      ∧ ∃ layout inner rest, oneLineIfVisit.after = layout ++ inner :: rest
        ∧ (∀ token ∈ layout, isElseLayout token = true) ∧ inner.isKeyword "if" = true
        ∧ Violation.of Rule.implicitElif ⟨4, 4⟩ none
            = Violation.of Rule.implicitElif inner.position none
        ∧ ∀ outer indent gap, layout = outer ++ indent :: gap → indent.kind = .indent →
            (∀ token ∈ gap, token.kind ≠ .indent) →
            ∃ body dedent more, rest = body ++ dedent :: more ∧ dedent.kind = .dedent
              ∧ openBlocks body = some [] ∧ (OnlyLine body dedent ↔ EndsAtEdge rest) :=
  ⟨tokenize_oneLineIf, implicitElif_onlyLine_iff tokenize_oneLineIf
    oneLineIfVisit.mem_tokenVisits_unit report_oneLineIf⟩

/-- **A reported `if` need not be the only line of its block**: the one in `oneLineIf` is reported,
and the line behind it starts at the level of the block, before the dedent of the block. -/
theorem implicitElif_oneLineIf :
    tokenize oneLineIf = .ok oneLineIfVisit.unit.tokens
      ∧ oneLineIfVisit ∈ tokenVisits oneLineIfVisit.unit
      ∧ (∃ catalog, Catalog.standard = .ok catalog
        ∧ Violation.of Rule.implicitElif ⟨4, 4⟩ none
          ∈ ((implicitElif.visit oneLineIfVisit).run catalog).1)
      ∧ ∃ outer indent inner dedent more, oneLineIfVisit.after
          = outer ++ indent :: [] ++ inner :: (oneLineIfBody ++ dedent :: more)
        ∧ indent.kind = .indent ∧ inner.isKeyword "if" = true ∧ inner.position = ⟨4, 4⟩
        ∧ dedent.kind = .dedent ∧ openBlocks oneLineIfBody = some []
        ∧ ¬ OnlyLine oneLineIfBody dedent := by
  refine ⟨tokenize_oneLineIf, oneLineIfVisit.mem_tokenVisits_unit,
    ⟨_, Catalog.build_standardGroups, report_oneLineIf⟩, _, _, _, _, _, rfl, rfl, rfl, rfl, rfl,
    by decide, ?_⟩
  intro honly
  have hline : LineFollows (oneLineIfBody.take 6) := ⟨⟨.newline, "\n", ⟨4, 15⟩⟩, rfl, Or.inl rfl⟩
  rcases honly (oneLineIfBody.take 6) ⟨.name, "z", ⟨5, 4⟩⟩ _ rfl hline (by decide) rfl with h | h
  · cases h
  · cases h

end PyStyle
