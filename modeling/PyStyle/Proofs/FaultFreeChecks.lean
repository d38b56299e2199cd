import PyStyle.Check.Standard
import PyStyle.Proofs.CatalogIndexes
import PyStyle.Proofs.CheckIsolation

/-!
# The checks that ship never fail

A check can fail in three ways: it reports a rule that the catalog does not know, it looks at a
place where there is no token, or it computes something that is not defined. The checks are said
with lists and natural numbers, where the last two cannot be seen, so they are said once more with
indexes and with steps that break down.

- `tokenAt`, `tokensFrom`, `tokensUpTo`, `decrement`, `averageOf` — steps that may break down;
- `implicitElifAt`, `moduleComplexityAt` — the checks that index or divide, made of such steps;
- `leaveBlocks_eq`, `hasCodeAfterIfAt_eq`, `belongsToIfAt_eq` — each loop and scan stays inside;
- `implicitElifAt_eq`, `moduleComplexityAt_eq` — no step breaks down, and the result is the check's;
- `Catalog.soundGroups_standard` — the rules that ship make a catalog;
- `standard_faultless` — no unit and no settings make a check fail.
-/

namespace PyStyle

open Check

/-! ### Steps that may break down -/

/-- A step that breaks down, with a word on why. -/
def breakdown {α : Type} (reason : String) : Except Failure α :=
  .error (.crashed (some reason))

/-- The token at an index. -/
def tokenAt (tokens : List Token) (index : Nat) : Except Failure Token :=
  match tokens[index]? with
  | some token => .ok token
  | none => breakdown ("index out of bounds: the len is " ++ toString tokens.length
      ++ " but the index is " ++ toString index)

/-- The tokens from an index on, which may be the one behind the last. -/
def tokensFrom (tokens : List Token) (start : Nat) : Except Failure (List Token) :=
  if start ≤ tokens.length then .ok (tokens.drop start)
  else breakdown ("range start index " ++ toString start ++ " out of range for slice of length "
    ++ toString tokens.length)

/-- The tokens before an index. -/
def tokensUpTo (tokens : List Token) (stop : Nat) : Except Failure (List Token) :=
  if stop ≤ tokens.length then .ok (tokens.take stop)
  else breakdown ("range end index " ++ toString stop ++ " out of range for slice of length "
    ++ toString tokens.length)

/-- One less, for a number that has no negative values. -/
def decrement : Nat → Except Failure Nat
  | 0 => breakdown "attempt to subtract with overflow"
  | n + 1 => .ok n

/-- An average, which needs something to be taken over. -/
def averageOf (total parts : Nat) : Except Failure Tenths :=
  if parts = 0 then breakdown "attempt to divide by zero" else .ok (Tenths.average total parts)

section Steps

/-- A step that does not break down hands its result on. -/
theorem ok_bind {α β : Type} (a : α) (next : α → Except Failure β) :
    (Except.ok a >>= next) = next a :=
  rfl

variable {tokens : List Token} {index : Nat}

/-- A place inside the list has a token, so looking there is no fault. -/
theorem tokenAt_eq {token : Token} (h : tokens[index]? = some token) :
    tokenAt tokens index = .ok token := by
  rw [tokenAt, h]

theorem tokensFrom_eq (h : index ≤ tokens.length) :
    tokensFrom tokens index = .ok (tokens.drop index) :=
  if_pos h

theorem tokensUpTo_eq (h : index ≤ tokens.length) :
    tokensUpTo tokens index = .ok (tokens.take index) :=
  if_pos h

theorem drop_eq_cons {token : Token} (h : tokens[index]? = some token) :
    tokens.drop index = token :: tokens.drop (index + 1) := by
  obtain ⟨hlt, hget⟩ := List.getElem?_eq_some_iff.mp h
  rw [List.drop_eq_getElem_cons hlt, hget]

/-- The first token from an index on that is looked for, by its distance and as what a scan over
the others leaves. -/
theorem findIdx?_drop (tokens : List Token) (start : Nat) (p : Token → Bool) :
    ((tokens.drop start).findIdx? p = none ∧ (tokens.drop start).dropWhile (!p ·) = [])
      ∨ ∃ offset token, (tokens.drop start).findIdx? p = some offset
          ∧ tokens[start + offset]? = some token
          ∧ (tokens.drop start).dropWhile (!p ·) = token :: tokens.drop (start + offset + 1) := by
  have hscan : (tokens.drop start).dropWhile (!p ·)
      = tokens.drop (start + (tokens.drop start).findIdx p) := by
    simp only [List.dropWhile_eq_drop_findIdx_not, Bool.not_not, List.drop_drop]
  cases hfind : (tokens.drop start).findIdx? p with
  | none =>
    refine Or.inl ⟨rfl, ?_⟩
    rw [hscan, List.findIdx?_eq_none_iff_findIdx_eq.mp hfind, List.length_drop]
    exact List.drop_eq_nil_of_le (by omega)
  | some offset =>
    obtain ⟨hlt, hoffset⟩ := List.findIdx?_eq_some_iff_findIdx_eq.mp hfind
    rw [List.length_drop] at hlt
    have htoken : tokens[start + offset]? = some tokens[start + offset] :=
      List.getElem?_eq_getElem (by omega)
    refine Or.inr ⟨offset, _, rfl, htoken, ?_⟩
    rw [hscan, hoffset, drop_eq_cons htoken]

end Steps

/-! ### The scan back from an `else` -/

/-- `belongsToIf` for the `else` at an index. -/
def belongsToIfAt (tokens : List Token) (index : Nat) : Except Failure Bool :=
  match index with
  | 0 => .ok false
  | previous + 1 => do
    let closing ← tokenAt tokens previous
    if closing.kind == .dedent then
      let stop ← decrement index
      let earlier ← tokensUpTo tokens stop
      return match earlier.reverse.find? fun t =>
          t.kind == .name && t.position.column == closing.position.column with
        | some owner => owner.text == "if" || owner.text == "elif"
        | none => false
    else return false

/-- The scan back by index sees the tokens before the index, the nearest one first. -/
theorem belongsToIfAt_eq {tokens : List Token} {index : Nat} (h : index ≤ tokens.length) :
    belongsToIfAt tokens index = .ok (belongsToIf (tokens.take index).reverse) := by
  cases index with
  | zero => rfl
  | succ previous =>
    obtain ⟨closing, hclosing⟩ : ∃ closing, tokens[previous]? = some closing :=
      ⟨_, List.getElem?_eq_getElem h⟩
    have hstop : previous ≤ tokens.length := Nat.le_of_succ_le h
    have htake : (tokens.take (previous + 1)).reverse
        = closing :: (tokens.take previous).reverse := by
      rw [List.take_add_one, hclosing, Option.toList_some, List.reverse_append]
      rfl
    rw [belongsToIfAt, tokenAt_eq hclosing, ok_bind, htake, belongsToIf]
    by_cases hdedent : (closing.kind == .dedent) = true
    · rw [if_pos hdedent, hdedent, Bool.true_and, decrement, ok_bind, tokensUpTo_eq hstop, ok_bind]
      rfl
    · rw [if_neg hdedent, Bool.eq_false_iff.mpr hdedent, Bool.false_and]
      rfl

/-! ### The scan for code behind an `if` -/

/-- Walk from `cursor` to behind the point where `depth` more blocks are closed than opened;
nothing, if the tokens end before. -/
def leaveBlocks (tokens : List Token) (depth cursor : Nat) : Except Failure (Option Nat) :=
  if depth = 0 then .ok (some cursor)
  else
    match _hcursor : tokens[cursor]? with
    | none => .ok none
    | some token =>
      match token.kind with
      | .indent => leaveBlocks tokens (depth + 1) (cursor + 1)
      | .dedent => do
        let depth ← decrement depth
        leaveBlocks tokens depth (cursor + 1)
      | _ => leaveBlocks tokens depth (cursor + 1)
termination_by tokens.length - cursor
decreasing_by
  all_goals
    have hlt := (List.getElem?_eq_some_iff.mp _hcursor).1
    omega

/-- **The walk never counts below zero**, and ends where the blocks are left. -/
theorem leaveBlocks_eq (tokens : List Token) (depth cursor : Nat) :
    ∃ stop, leaveBlocks tokens depth cursor = .ok stop
      ∧ stop.map tokens.drop = afterBlocks depth (tokens.drop cursor) := by
  fun_induction leaveBlocks tokens depth cursor with
  | case1 cursor =>
    refine ⟨some cursor, rfl, ?_⟩
    rw [afterBlocks]
    rfl
  | case2 depth cursor hdepth hend =>
    obtain ⟨more, rfl⟩ := Nat.exists_eq_succ_of_ne_zero hdepth
    refine ⟨none, rfl, ?_⟩
    rw [List.drop_eq_nil_of_le (List.getElem?_eq_none_iff.mp hend)]
    rfl
  | case3 depth cursor hdepth token htoken hkind ih =>
    obtain ⟨more, rfl⟩ := Nat.exists_eq_succ_of_ne_zero hdepth
    rwa [drop_eq_cons htoken, afterBlocks, hkind]
  | case4 depth cursor hdepth token htoken hkind ih =>
    -- The count is above zero here, so one less is a number.
    obtain ⟨more, rfl⟩ := Nat.exists_eq_succ_of_ne_zero hdepth
    rw [drop_eq_cons htoken, afterBlocks, hkind]
    exact ih more
  | case5 depth cursor hdepth token htoken hindent hdedent ih =>
    obtain ⟨more, rfl⟩ := Nat.exists_eq_succ_of_ne_zero hdepth
    rw [drop_eq_cons htoken, afterBlocks]
    split
    · next hkind => exact absurd hkind hindent
    · next hkind => exact absurd hkind hdedent
    · exact ih

/-- `hasCodeAfterIf` for the `if` at an index. -/
def hasCodeAfterIfAt (tokens : List Token) (index : Nat) : Except Failure Bool := do
  let behind ← tokensFrom tokens (index + 1)
  match behind.findIdx? isBlockEdge with
  | none => return false
  | some offset =>
    let stop ← leaveBlocks tokens 1 (index + 1 + offset + 1)
    return match stop.bind (tokens[·]?) with
      | some next => next.kind != .dedent
      | none => false

/-- The scan ahead by index sees the tokens behind the index. -/
theorem hasCodeAfterIfAt_eq {tokens : List Token} {index : Nat} (h : index < tokens.length) :
    hasCodeAfterIfAt tokens index = .ok (hasCodeAfterIf (tokens.drop (index + 1))) := by
  rw [hasCodeAfterIfAt, tokensFrom_eq h, ok_bind, hasCodeAfterIf]
  rcases findIdx?_drop tokens (index + 1) isBlockEdge with
    ⟨hnone, hdrop⟩ | ⟨offset, edge, hsome, _, hdrop⟩
  · rw [hnone, hdrop]
    rfl
  · obtain ⟨stop, hstop, hafter⟩ := leaveBlocks_eq tokens 1 (index + 1 + offset + 1)
    rw [hsome, hdrop]
    dsimp only
    rw [hstop, ok_bind, ← hafter]
    cases stop with
    | none => rfl
    | some cursor =>
      rw [Option.bind_some, Option.map_some, ← List.head?_drop]
      cases tokens.drop cursor <;> rfl

/-! ### The check of implicit `elif`s -/

/-- What the check of implicit `elif`s does with the token at an index. -/
def implicitElifAt (tokens : List Token) (index : Nat) : Except Failure Action := do
  let token ← tokenAt tokens index
  if token.isKeyword "else" then
    if ← belongsToIfAt tokens index then
      let behind ← tokensFrom tokens (index + 1)
      match behind.findIdx? (!isElseLayout ·) with
      | none => return .done
      | some offset =>
        let inner ← tokenAt tokens (index + 1 + offset)
        if inner.isKeyword "if" then
          if ← hasCodeAfterIfAt tokens (index + 1 + offset) then return .done
          else
            let inner ← tokenAt tokens (index + 1 + offset)
            return .require Rule.implicitElif none inner.position .done
        else return .done
    else return .done
  else return .done

/-- **No index leaves the tokens**, whatever they are: the check by indexes gets to its end and does
what the check does. -/
theorem implicitElifAt_eq {tokens : List Token} {index : Nat} {token : Token}
    (h : tokens[index]? = some token) (path : String) :
    implicitElifAt tokens index
      = .ok (implicitElif.visit (token.visitAt path tokens index)) := by
  have hlt : index < tokens.length := (List.getElem?_eq_some_iff.mp h).1
  rw [implicitElifAt, tokenAt_eq h, ok_bind, belongsToIfAt_eq (Nat.le_of_lt hlt), ok_bind,
    tokensFrom_eq hlt, ok_bind]
  simp only [implicitElif, Token.visitAt]
  cases helse : token.isKeyword "else" with
  | false => rfl
  | true =>
    cases hbelongs : belongsToIf (tokens.take index).reverse with
    | false => rfl
    | true =>
      have hscan := findIdx?_drop tokens (index + 1) (!isElseLayout ·)
      simp only [Bool.not_not] at hscan
      rcases hscan with ⟨hnone, hdrop⟩ | ⟨offset, inner, hsome, hinner, hdrop⟩
      · rw [hnone, hdrop]
        rfl
      · have hbound : index + 1 + offset < tokens.length := (List.getElem?_eq_some_iff.mp hinner).1
        rw [hsome, hdrop]
        dsimp only
        rw [tokenAt_eq hinner, ok_bind, hasCodeAfterIfAt_eq hbound, ok_bind, ok_bind]
        cases hif : inner.isKeyword "if" with
        | false => rfl
        | true =>
          cases hasCodeAfterIf (tokens.drop (index + 1 + offset + 1)) <;> rfl

/-! ### The check of averages -/

/-- What the check of averages does with a node. -/
def moduleComplexityAt (limit : Nat) (visit : NodeVisit) : Except Failure Action :=
  let scores := functionScores none none visit.node
  if scores.isEmpty then return .done
  else do
    let average ← averageOf (scores.foldr (· + ·) 0) scores.length
    if 10 * limit < average.count then
      return .require Rule.cognitiveModuleComplexity (some average.display) visit.node.position
        .done
    else return .done

/-- **No average is taken over no functions.** -/
theorem moduleComplexityAt_eq (limit : Nat) (visit : NodeVisit) :
    moduleComplexityAt limit visit = .ok ((moduleComplexity limit).visit visit) := by
  simp only [moduleComplexityAt, moduleComplexity]
  by_cases hempty : (functionScores none none visit.node).isEmpty = true
  · rw [if_pos hempty, if_pos hempty]
    rfl
  · have hparts : (functionScores none none visit.node).length ≠ 0 := by
      intro hlength
      exact hempty (List.isEmpty_iff_length_eq_zero.mpr hlength)
    rw [if_neg hempty, if_neg hempty, averageOf, if_neg hparts, ok_bind]
    split <;> rfl

/-! ### The registry of checks made of steps -/

/-- What a check does whose steps may break down. -/
def Action.ofSteps : Except Failure Action → Action
  | .ok action => action
  | .error failure => .fail failure

/-- The check of implicit `elif`s, by indexes. -/
def implicitElifBySteps : TokenCheck :=
  { implicitElif with
    visit := fun v =>
      .ofSteps (implicitElifAt (v.before.reverse ++ v.token :: v.after) v.before.length) }

/-- The check of averages, with a division that may break down. -/
def moduleComplexityBySteps (limit : Nat) : NodeCheck :=
  { moduleComplexity limit with
    visit := fun v => .ofSteps (moduleComplexityAt limit v) }

/-- The checks that ship, those that index or divide made of steps. -/
def Registry.bySteps (settings : Settings) : Registry :=
  .ofList
    [.node (cognitiveComplexity settings.maxCognitiveScore),
     .node (moduleComplexityBySteps settings.maxCognitiveAverage),
     .node multilineTypeHint,
     .node newStyledDecorator,
     .token implicitElifBySteps]

theorem implicitElifBySteps_eq : implicitElifBySteps = implicitElif := by
  have hvisit : ∀ v : TokenVisit, Action.ofSteps
      (implicitElifAt (v.before.reverse ++ v.token :: v.after) v.before.length)
        = implicitElif.visit v := by
    intro v
    have htoken : (v.before.reverse ++ v.token :: v.after)[v.before.length]? = some v.token := by
      rw [List.getElem?_append_right (by simp)]
      simp
    have hself : v.token.visitAt v.path (v.before.reverse ++ v.token :: v.after) v.before.length
        = v := by
      have hbehind : v.before.reverse.drop (v.before.length + 1) = [] :=
        List.drop_eq_nil_of_le (by simp)
      simp [Token.visitAt, List.drop_append, hbehind]
    rw [implicitElifAt_eq htoken v.path, hself]
    rfl
  rw [implicitElifBySteps, funext hvisit]

/-- The average is taken of at least one function, so the division is no fault. -/
theorem moduleComplexityBySteps_eq (limit : Nat) :
    moduleComplexityBySteps limit = moduleComplexity limit := by
  have hvisit : ∀ v : NodeVisit, Action.ofSteps (moduleComplexityAt limit v)
      = (moduleComplexity limit).visit v := by
    intro v
    rw [moduleComplexityAt_eq]
    rfl
  rw [moduleComplexityBySteps, funext hvisit]

theorem Registry.bySteps_eq (settings : Settings) :
    Registry.bySteps settings = Registry.standard settings := by
  rw [Registry.bySteps, implicitElifBySteps_eq, moduleComplexityBySteps_eq]
  rfl

/-! ### What the checks report -/

/-- The action reports one of the rules, or nothing. -/
inductive Action.ReportsOneOf (rules : List Rule) : Action → Prop
  | done : ReportsOneOf rules .done
  | require {rule : Rule} (hrule : rule ∈ rules) (argument : Option String) (position : Position) :
      ReportsOneOf rules (.require rule argument position .done)

/-- An action that reports a rule of the catalog ends well. -/
theorem Action.ReportsOneOf.faultless {rules : List Rule} {action : Action} {catalog : Catalog}
    (h : action.ReportsOneOf rules) (hcatalog : ∀ rule ∈ rules, catalog.contains rule = true) :
    action.failure? catalog = none
      ∧ ∀ attempt ∈ action.attempts catalog, catalog.contains attempt.rule = true := by
  cases h with
  | done => exact ⟨rfl, by simp [Action.attempts]⟩
  | require hrule argument position =>
    have hcontains := hcatalog _ hrule
    constructor
    · simp [Action.require, Action.failure?, hcontains]
    · simp [Action.require, Action.attempts, hcontains]

/-- The rules that the checks that ship report. -/
def reportedRules : List Rule :=
  [Rule.cognitiveComplexity, Rule.cognitiveModuleComplexity, Rule.multilineTypeHint,
   Rule.newStyledDecorator, Rule.implicitElif]

theorem reportsOneOf_cognitiveComplexity (limit : Nat) (visit : NodeVisit) :
    ((cognitiveComplexity limit).visit visit).ReportsOneOf reportedRules := by
  simp only [cognitiveComplexity]
  split
  · exact .require (by simp [reportedRules]) _ _
  · exact .done

theorem reportsOneOf_moduleComplexity (limit : Nat) (visit : NodeVisit) :
    ((moduleComplexity limit).visit visit).ReportsOneOf reportedRules := by
  simp only [moduleComplexity]
  split
  · exact .done
  · split
    · exact .require (by simp [reportedRules]) _ _
    · exact .done

theorem reportsOneOf_multilineTypeHint (visit : NodeVisit) :
    (multilineTypeHint.visit visit).ReportsOneOf reportedRules := by
  simp only [multilineTypeHint]
  split
  · exact .require (by simp [reportedRules]) _ _
  · exact .done

theorem reportsOneOf_newStyledDecorator (visit : NodeVisit) :
    (newStyledDecorator.visit visit).ReportsOneOf reportedRules := by
  simp only [newStyledDecorator]
  split
  · exact .done
  · split
    · exact .done
    · exact .require (by simp [reportedRules]) _ _

theorem reportsOneOf_implicitElif (visit : TokenVisit) :
    (implicitElif.visit visit).ReportsOneOf reportedRules := by
  simp only [implicitElif]
  split
  · split
    · exact .done
    · split
      · exact .require (by simp [reportedRules]) _ _
      · exact .done
  · exact .done

theorem reportsOneOf_nodeCheck {settings : Settings} {kind : NodeKind} {check : NodeCheck}
    (h : check ∈ (Registry.standard settings).nodeChecksFor kind) (visit : NodeVisit) :
    (check.visit visit).ReportsOneOf reportedRules := by
  rw [Registry.standard, nodeChecksFor_ofList] at h
  have hcheck := (List.mem_filter.mp h).1
  simp only [List.filterMap_cons, Registration.nodeCheck?, List.filterMap_nil, List.mem_cons,
    List.not_mem_nil, or_false] at hcheck
  rcases hcheck with rfl | rfl | rfl | rfl
  · exact reportsOneOf_cognitiveComplexity _ visit
  · exact reportsOneOf_moduleComplexity _ visit
  · exact reportsOneOf_multilineTypeHint visit
  · exact reportsOneOf_newStyledDecorator visit

theorem reportsOneOf_tokenCheck {settings : Settings} {kind : TokenKind} {check : TokenCheck}
    (h : check ∈ (Registry.standard settings).tokenChecksFor kind) (visit : TokenVisit) :
    (check.visit visit).ReportsOneOf reportedRules := by
  rw [Registry.standard, tokenChecksFor_ofList] at h
  have hcheck := (List.mem_filter.mp h).1
  simp only [List.filterMap_cons, Registration.tokenCheck?, List.filterMap_nil, List.mem_cons,
    List.not_mem_nil, or_false] at hcheck
  rw [hcheck]
  exact reportsOneOf_implicitElif visit

/-- An action that does not fail leaves no fault. -/
theorem fault?_of {catalog : Catalog} {action : Action} (h : action.failure? catalog = none)
    (check : String) (position : Position) :
    (Outcome.of catalog check position action).fault? = none := by
  rw [Outcome.of, Action.run_eq, h]
  rfl

/-! ### The rules that ship -/

namespace Catalog

theorem soundNumbering_of_pairwise {category : Category} {rules : List Rule} (hne : rules ≠ [])
    (hsorted : rules.Pairwise fun a b => a.code ≤ b.code)
    (hok : (checkNumbering category rules).isOk = true) : SoundNumbering category rules := by
  have hnumbers := numbers_of_pairwise category hne hsorted
  generalize checkNumbering category rules = checked at hok hnumbers
  cases hnumbers with
  | accepted hsound => exact hsound
  | outOfRange => cases hok
  | wrongStart => cases hok
  | badGap => cases hok

theorem soundGroups_standard : SoundGroups standardGroups where
  codes := by decide +kernel
  templates := of_decide_eq_true (by cbv)
  categories := rfl
  sound := by
    have hnonempty : ∀ group ∈ standardGroups, group.2 ≠ [] := by decide
    have hcategory : ∀ group ∈ standardGroups, ∀ rule ∈ group.2, rule.category = group.1 := by
      decide +kernel
    have hfinal : ∀ group ∈ standardGroups, ∀ rule ∈ group.2, rule.isFinal = true := by
      decide +kernel
    -- The groups are listed in the order of their codes, so sorting them changes nothing.
    have hsorted : ∀ group ∈ standardGroups, group.2.Pairwise fun a b => a.code ≤ b.code := by
      decide +kernel
    have hnumbers : ∀ group ∈ standardGroups, (checkNumbering group.1 group.2).isOk = true := by
      decide +kernel
    intro group hgroup
    have hne := hnonempty group hgroup
    have hnumbering := soundNumbering_of_pairwise hne (hsorted group hgroup) (hnumbers group hgroup)
    exact ⟨hnumbering, hne, hcategory group hgroup, hfinal group hgroup⟩

theorem build_standardGroups : standard = .ok (ofGroups standardGroups) :=
  build_eq_ok_iff.mpr ⟨soundGroups_standard, rfl⟩

/-- All that the checks report is in the catalog. -/
theorem contains_reportedRules :
    ∀ rule ∈ reportedRules, (ofGroups standardGroups).contains rule = true := by
  intro rule hrule
  have hlisted : ∀ rule ∈ reportedRules, rule ∈ allRules standardGroups := by
    simp [reportedRules, allRules, standardGroups, Rule.complexityRules, Rule.consistencyRules,
      Rule.bestPracticesRules, Rule.refactoringRules]
  exact (contains_iff soundGroups_standard).mpr (hlisted rule hrule)

end Catalog

/-- **The checks that ship never fail**, whatever the unit and the settings are. The rules that ship
make a catalog; with it a pass leaves no fault, also when all indexes, differences and averages are
steps that may break down; and all that the checks try to report is in the catalog. -/
theorem standard_faultless :
    ∃ catalog, Catalog.standard = .ok catalog ∧ ∀ (settings : Settings) (unit : SourceUnit),
      (analyze catalog (.standard settings) unit).faults = []
        ∧ (analyze catalog (.bySteps settings) unit).faults = []
        ∧ analyze catalog (.bySteps settings) unit = analyze catalog (.standard settings) unit
        ∧ (∀ visit ∈ nodeVisits unit,
            ∀ check ∈ (Registry.standard settings).nodeChecksFor visit.node.kind,
            ∀ attempt ∈ (check.visit visit).attempts catalog,
              catalog.contains attempt.rule = true)
        ∧ ∀ visit ∈ tokenVisits unit,
            ∀ check ∈ (Registry.standard settings).tokenChecksFor visit.token.kind,
            ∀ attempt ∈ (check.visit visit).attempts catalog,
              catalog.contains attempt.rule = true := by
  refine ⟨_, Catalog.build_standardGroups, ?_⟩
  intro settings unit
  have hcatalog := Catalog.contains_reportedRules
  have hfaults : (analyze (Catalog.ofGroups Catalog.standardGroups) (Registry.standard settings)
      unit).faults = [] := by
    refine List.filterMap_eq_nil_iff.mpr ?_
    intro outcome houtcome
    rcases List.mem_append.mp houtcome with hnode | htoken
    · obtain ⟨visit, _, hvisit⟩ := List.mem_flatMap.mp hnode
      obtain ⟨check, hcheck, rfl⟩ := List.mem_map.mp hvisit
      exact fault?_of ((reportsOneOf_nodeCheck hcheck visit).faultless hcatalog).1 _ _
    · obtain ⟨visit, _, hvisit⟩ := List.mem_flatMap.mp htoken
      obtain ⟨check, hcheck, rfl⟩ := List.mem_map.mp hvisit
      exact fault?_of ((reportsOneOf_tokenCheck hcheck visit).faultless hcatalog).1 _ _
  refine ⟨hfaults, ?_, ?_, ?_, ?_⟩
  · rw [Registry.bySteps_eq]
    exact hfaults
  · rw [Registry.bySteps_eq]
  · intro visit _ check hcheck
    exact ((reportsOneOf_nodeCheck hcheck visit).faultless hcatalog).2
  · intro visit _ check hcheck
    exact ((reportsOneOf_tokenCheck hcheck visit).faultless hcatalog).2

end PyStyle
