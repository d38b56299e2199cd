import PyStyle.Proofs.BackedViolations
import PyStyle.Proofs.ImplicitElif
import PyStyle.Proofs.TokenLayout

/-!
# Matching indents and dedents

Which dedent closes which indent, and what a report of the check of implicit `elif`s says about the
tokens around it.

- `exists_closing` — an indent of a stream in which all blocks are closed has its dedent;
- `exists_opening` — a dedent of a nested stream has its indent;
- `openBlocks_of_tokenize` — in the tokens of a text all blocks are closed;
- `lastSolid?` — the last token that is no filler, and what it is behind some tokens;
- `implicitElif_of_mem_run` — what the check saw when it reported.
-/

namespace PyStyle

open Check

/-! ### Blocks -/

theorem blocksBehind_indent {token : Token} (h : token.kind = .indent) (blocks : List String) :
    token.blocksBehind blocks = some (token.text :: blocks) := by
  unfold Token.blocksBehind
  rw [h]

theorem blocksBehind_dedent {token : Token} (h : token.kind = .dedent) (blocks : List String) :
    token.blocksBehind blocks = blocks.tail? := by
  unfold Token.blocksBehind
  rw [h]

/-- What happens inside of some blocks happens inside of more blocks, too. -/
theorem blocksBehind_within {tokens : List Token} {blocks inner : List String}
    (h : tokens.foldlM Token.blocksBehind blocks = some inner) (base : List String) :
    tokens.foldlM Token.blocksBehind (blocks ++ base) = some (inner ++ base) := by
  induction tokens generalizing blocks with
  | nil =>
    cases h
    rfl
  | cons token tokens ih =>
    rw [List.foldlM_cons] at h ⊢
    obtain ⟨next, htoken, hrest⟩ := Option.bind_eq_some_iff.mp h
    have hnext : token.blocksBehind (blocks ++ base) = some (next ++ base) := by
      unfold Token.blocksBehind at htoken ⊢
      split at htoken
      · cases htoken
        rfl
      · cases blocks with
        | nil => cases htoken
        | cons block outer =>
          cases htoken
          rfl
      · cases htoken
        rfl
    rw [hnext]
    exact ih hrest

/-- **Every indent has its dedent**: where more blocks are closed than the `inner` ones, the first
place at which that happens closes the block around them. -/
theorem exists_closing {tokens : List Token} {inner base final : List String} {block : String}
    (h : tokens.foldlM Token.blocksBehind (inner ++ block :: base) = some final)
    (hfinal : final.length ≤ base.length) :
    ∃ body dedent more, tokens = body ++ dedent :: more ∧ dedent.kind = .dedent
      ∧ body.foldlM Token.blocksBehind inner = some [] := by
  induction tokens generalizing inner with
  | nil =>
    cases h
    simp at hfinal
    omega
  | cons token tokens ih =>
    rw [List.foldlM_cons] at h
    obtain ⟨next, htoken, hrest⟩ := Option.bind_eq_some_iff.mp h
    have hstep {blocks : List String} (hnext : next = blocks ++ block :: base)
        (hsame : token.blocksBehind inner = some blocks) :
        ∃ body dedent more, token :: tokens = body ++ dedent :: more ∧ dedent.kind = .dedent
          ∧ body.foldlM Token.blocksBehind inner = some [] := by
      obtain ⟨body, dedent, more, rfl, hdedent, hbody⟩ := ih (hnext ▸ hrest)
      refine ⟨token :: body, dedent, more, rfl, hdedent, ?_⟩
      rw [List.foldlM_cons, hsame]
      exact hbody
    unfold Token.blocksBehind at htoken hstep
    split at htoken
    · next hkind =>
      cases htoken
      exact hstep (List.cons_append ..).symm (by simp [hkind])
    · next hkind =>
      cases inner with
      | nil => exact ⟨[], token, tokens, rfl, hkind, rfl⟩
      | cons first inner =>
        cases htoken
        exact hstep rfl (by simp [hkind])
    · next hindent hdedent =>
      cases htoken
      refine hstep rfl ?_
      split <;> simp_all

/-- One more token opens a block, closes one or leaves all as they are. -/
theorem openBlocks_concat {tokens : List Token} {blocks : List String}
    (h : openBlocks tokens = some blocks) (token : Token) :
    openBlocks (tokens ++ [token]) = token.blocksBehind blocks := by
  rw [openBlocks_append, h]
  show (token.blocksBehind blocks >>= some) = token.blocksBehind blocks
  exact Option.bind_fun_some _

theorem openBlocks_of_concat {tokens : List Token} {token : Token} {blocks : List String}
    (h : openBlocks (tokens ++ [token]) = some blocks) :
    ∃ before, openBlocks tokens = some before ∧ token.blocksBehind before = some blocks := by
  have hsplit := h
  rw [openBlocks_append] at hsplit
  obtain ⟨before, hbefore, _⟩ := Option.bind_eq_some_iff.mp hsplit
  exact ⟨before, hbefore, openBlocks_concat hbefore token ▸ h⟩

/-- **Every dedent has its indent**: a block that is open behind some tokens was opened by one of
them, and the blocks opened since are those that are open inside of it. -/
theorem exists_opening {tokens : List Token} {above outside : List String} {block : String}
    (h : openBlocks tokens = some (above ++ block :: outside)) :
    ∃ outer indent inner, tokens = outer ++ indent :: inner ∧ indent.kind = .indent
      ∧ indent.text = block ∧ openBlocks outer = some outside ∧ openBlocks inner = some above := by
  induction tokens using List.reverseRecOn generalizing above with
  | nil => simp [openBlocks] at h
  | append_singleton tokens token ih =>
    obtain ⟨blocks, hblocks, htoken⟩ := openBlocks_of_concat h
    have hstep {before : List String} (hbefore : blocks = before ++ block :: outside)
        (hinner : token.blocksBehind before = some above) :
        ∃ outer indent inner, tokens ++ [token] = outer ++ indent :: inner ∧ indent.kind = .indent
          ∧ indent.text = block ∧ openBlocks outer = some outside
          ∧ openBlocks inner = some above := by
      obtain ⟨outer, indent, inner, rfl, hkind, htext, houter, hopen⟩ := ih (hbefore ▸ hblocks)
      refine ⟨outer, indent, inner ++ [token], by simp, hkind, htext, houter, ?_⟩
      rw [openBlocks_concat hopen, hinner]
    unfold Token.blocksBehind at htoken hstep
    split at htoken
    · next hkind =>
      cases above with
      | nil =>
        obtain ⟨htext, hrest⟩ := List.cons.inj (Option.some.inj htoken)
        exact ⟨tokens, token, [], rfl, hkind, htext, hrest ▸ hblocks, rfl⟩
      | cons first above =>
        obtain ⟨htext, hrest⟩ := List.cons.inj (Option.some.inj htoken)
        exact hstep hrest (by simp [hkind, htext])
    · next hkind =>
      cases blocks with
      | nil => cases htoken
      | cons closed blocks =>
        cases htoken
        exact hstep (List.cons_append ..).symm (by simp [hkind])
    · next hindent hdedent =>
      cases htoken
      refine hstep rfl ?_
      split <;> simp_all

/-- In the tokens of a text all blocks are closed. -/
theorem openBlocks_of_tokenize {source : String} {tokens : List Token}
    (h : tokenize source = .ok tokens) : openBlocks tokens = some [] := by
  obtain ⟨scanned, t, last, hscans, hstop, rfl⟩ := Scanner.scans_of_tokenize h
  obtain ⟨lineEnd, hfinish, hlineEnd⟩ := Scanner.finish_cases last scanned.reverse
  have hfollows := (Scanner.follows_start source.toList).scans hscans
  have hquiet : ∀ token ∈ lineEnd, token.isBlockEdge = false := by
    rcases hlineEnd with ⟨rfl, _⟩ | rfl <;> simp [Token.isBlockEdge]
  have hclosed := hfollows.openBlocks_finish hstop hquiet last.endPosition
  rw [hfinish]
  simpa using hclosed

/-- The blocks behind a part of the tokens are known if those behind all of them are. -/
theorem openBlocks_of_append {front back : List Token} {blocks : List String}
    (h : openBlocks (front ++ back) = some blocks) :
    ∃ before, openBlocks front = some before
      ∧ back.foldlM Token.blocksBehind before = some blocks := by
  rw [openBlocks_append] at h
  exact Option.bind_eq_some_iff.mp h

/-- Inside of a block the block itself is open. -/
theorem openBlocks_inside {outer inner : List Token} {indent : Token} {outside above : List String}
    (houter : openBlocks outer = some outside) (hindent : indent.kind = .indent)
    (hinner : openBlocks inner = some above) :
    openBlocks (outer ++ indent :: inner) = some (above ++ indent.text :: outside) := by
  rw [openBlocks_append, houter]
  show List.foldlM Token.blocksBehind outside (indent :: inner) = _
  rw [List.foldlM_cons, blocksBehind_indent hindent]
  exact blocksBehind_within hinner _

/-! ### Lines -/

/-- Is the token no part of the code of a line? -/
def Token.isFiller (token : Token) : Bool :=
  token.kind == .blankLine || token.kind == .comment

/-- The last token that is no filler. -/
def lastSolid? (tokens : List Token) : Option Token :=
  tokens.reverse.find? (!·.isFiller)

theorem lastSolid?_append_fillers (tokens : List Token) {fillers : List Token}
    (h : ∀ token ∈ fillers, token.isFiller = true) :
    lastSolid? (tokens ++ fillers) = lastSolid? tokens := by
  have hnone : fillers.reverse.find? (!·.isFiller) = none := by
    rw [List.find?_eq_none]
    intro token htoken
    simp [h token (List.mem_reverse.mp htoken)]
  rw [lastSolid?, List.reverse_append, List.find?_append, hnone]
  rfl

theorem lastSolid?_concat (tokens : List Token) {token : Token} (h : token.isFiller = false) :
    lastSolid? (tokens ++ [token]) = some token := by
  simp [lastSolid?, h]

/-! ### Reports -/

/-- A visit splits the stream in front of its token and behind it. -/
theorem tokens_of_mem_tokenVisitsFrom {path : String} {before tokens : List Token}
    {visit : TokenVisit} (h : visit ∈ tokenVisitsFrom path before tokens) :
    before.reverse ++ tokens = visit.before.reverse ++ visit.token :: visit.after := by
  induction tokens generalizing before with
  | nil => cases h
  | cons token tokens ih =>
    rcases List.mem_cons.mp h with rfl | h
    · rfl
    · simpa using ih h

/-- A visit knows all tokens of its unit. -/
theorem tokens_of_mem_tokenVisits {unit : SourceUnit} {visit : TokenVisit}
    (h : visit ∈ tokenVisits unit) :
    unit.tokens = visit.before.reverse ++ visit.token :: visit.after :=
  tokens_of_mem_tokenVisitsFrom h

theorem mem_tokenVisitsFrom (path : String) (before front : List Token) (token : Token)
    (after : List Token) :
    ⟨path, front.reverse ++ before, token, after⟩
      ∈ tokenVisitsFrom path before (front ++ token :: after) := by
  induction front generalizing before with
  | nil => exact List.mem_cons_self
  | cons first front ih =>
    refine List.mem_cons_of_mem _ ?_
    simpa using ih (first :: before)

/-- Every token of a unit is visited. -/
theorem mem_tokenVisits {unit : SourceUnit} {visit : TokenVisit} (hpath : visit.path = unit.path)
    (htokens : unit.tokens = visit.before.reverse ++ visit.token :: visit.after) :
    visit ∈ tokenVisits unit := by
  have h := mem_tokenVisitsFrom unit.path [] visit.before.reverse visit.token visit.after
  rw [List.reverse_reverse, List.append_nil, ← hpath, ← htokens] at h
  rw [tokenVisits, ← hpath]
  exact h

/-- What the check of implicit `elif`s saw when it reported a violation. -/
structure ImplicitElifSeen (visit : TokenVisit) (violation : Violation) (inner : Token)
    (rest : List Token) : Prop where
  keyword : visit.token.isKeyword "else" = true
  belongs : belongsToIf visit.before = true
  behind : visit.after.dropWhile isElseLayout = inner :: rest
  inner_keyword : inner.isKeyword "if" = true
  alone : hasCodeAfterIf rest = false
  violation_eq : violation = Violation.of Rule.implicitElif inner.position none

theorem implicitElif_of_mem_run {catalog : Catalog} {visit : TokenVisit} {violation : Violation}
    (h : violation ∈ ((implicitElif.visit visit).run catalog).1) :
    ∃ inner rest, ImplicitElifSeen visit violation inner rest := by
  obtain ⟨attempt, hattempt, _, rfl⟩ := attempt_of_mem_run h
  simp only [implicitElif] at hattempt
  split at hattempt
  · next hbelongs =>
    obtain ⟨helse, hbelongs⟩ := Bool.and_eq_true_iff.mp hbelongs
    split at hattempt
    · cases hattempt
    · next inner rest hbehind =>
      split at hattempt
      · next hif =>
        obtain ⟨hif, halone⟩ := Bool.and_eq_true_iff.mp hif
        refine ⟨inner, rest, helse, hbelongs, hbehind, hif, by simpa using halone, ?_⟩
        have hattempt' : attempt = ⟨Rule.implicitElif, none, inner.position⟩ := by
          rw [Action.require, Action.attempts] at hattempt
          rcases List.mem_cons.mp hattempt with rfl | hmore
          · rfl
          · split at hmore <;> cases hmore
        rw [hattempt']
        rfl
      · cases hattempt
  · cases hattempt

end PyStyle
