import PyStyle.Proofs.FaultFreeChecks
import PyStyle.Proofs.ImplicitElif
import PyStyle.Proofs.ReportBuckets

/-!
# Comments can only silence

A comment that is put between the tokens of a unit moves all tokens behind it, and the check of
implicit `elif`s looks at neighbours: before an `else`, between an `else` and an `if`, and behind
the blocks of that `if`. In each of these places a comment can take a report away, and in none can
it bring one about.

- `Commented` — tokens, and the same tokens with comments between them;
- `Commented.find?`, `Commented.dropWhile`, `Commented.afterBlocks` — scans that pass over comments
  end at the same token;
- `Commented.belongsToIf`, `Commented.hasCodeAfterIf`, `Commented.reportFrom_sublist` — what one
  visit looks at;
- `Commented.reportsIn_sublist` — a whole stream has no new reports;
- `analyze_standard` — the tree decides what the standard checks find, these reports apart;
- `lintUnit_commented` — a unit with more comments has no new violations and no new faults.
-/

namespace PyStyle

open Check

/-- The second list is the first one with comments put between its tokens, or at its ends. -/
inductive Commented : List Token → List Token → Prop
  | nil : Commented [] []
  | keep (token : Token) {tokens commented : List Token} (h : Commented tokens commented) :
      Commented (token :: tokens) (token :: commented)
  | add {comment : Token} (hkind : comment.kind = .comment) {tokens commented : List Token}
      (h : Commented tokens commented) : Commented tokens (comment :: commented)

namespace Commented

variable {tokens commented : List Token}

/-- A comment at any place. -/
theorem insert {comment : Token} (hkind : comment.kind = .comment) (front back : List Token) :
    Commented (front ++ back) (front ++ comment :: back) := by
  have hrefl : ∀ tokens, Commented tokens tokens := by
    intro tokens
    induction tokens with
    | nil => exact .nil
    | cons token tokens ih => exact .keep token ih
  induction front with
  | nil => exact .add hkind (hrefl back)
  | cons token front ih => exact .keep token ih

/-! ### Scans -/

theorem subset (h : Commented tokens commented) : tokens ⊆ commented := by
  induction h with
  | nil => exact List.Subset.refl _
  | keep token h ih => exact List.cons_subset_cons token ih
  | add hkind h ih => exact List.subset_cons_of_subset _ ih

/-- A search that does not look for comments. -/
theorem find? (h : Commented tokens commented) {p : Token → Bool}
    (hp : ∀ token, token.kind = .comment → p token = false) :
    commented.find? p = tokens.find? p := by
  induction h with
  | nil => rfl
  | keep token h ih => rw [List.find?_cons, List.find?_cons, ih]
  | add hkind h ih => rw [List.find?_cons, hp _ hkind, ih]

/-- A scan that passes over comments ends in front of the same token, or at both ends. -/
theorem dropWhile (h : Commented tokens commented) {p : Token → Bool}
    (hp : ∀ token, token.kind = .comment → p token = true) :
    (tokens.dropWhile p = [] ∧ commented.dropWhile p = [])
      ∨ ∃ token rest rest', Commented rest rest' ∧ tokens.dropWhile p = token :: rest
          ∧ commented.dropWhile p = token :: rest' := by
  induction h with
  | nil => exact Or.inl ⟨rfl, rfl⟩
  | keep token h ih =>
    rw [List.dropWhile_cons, List.dropWhile_cons]
    by_cases htoken : p token = true
    · rw [if_pos htoken, if_pos htoken]
      exact ih
    · rw [if_neg htoken, if_neg htoken]
      exact Or.inr ⟨token, _, _, h, rfl, rfl⟩
  | add hkind h ih => rwa [List.dropWhile_cons, if_pos (hp _ hkind)]

/-- A count of open blocks ends at the same edge. A comment right behind the edge stays. -/
theorem afterBlocks (h : Commented tokens commented) (depth : Nat) :
    Option.Rel Commented (Check.afterBlocks depth tokens) (Check.afterBlocks depth commented) := by
  induction h generalizing depth with
  | nil =>
    cases depth with
    | zero => exact .some .nil
    | succ depth => exact .none
  | keep token h ih =>
    cases depth with
    | zero => exact .some (.keep token h)
    | succ depth =>
      rw [Check.afterBlocks, Check.afterBlocks]
      cases token.kind with
      | indent => exact ih (depth + 2)
      | dedent => exact ih depth
      | _ => exact ih (depth + 1)
  | @add comment hkind tokens commented h ih =>
    cases depth with
    | zero =>
      have hsame : Check.afterBlocks 0 tokens = some tokens := by cases tokens <;> rfl
      rw [hsame]
      exact .some (.add hkind h)
    | succ depth =>
      have hskip : Check.afterBlocks (depth + 1) (comment :: commented)
          = Check.afterBlocks (depth + 1) commented := by
        rw [Check.afterBlocks, hkind]
      rw [hskip]
      exact ih (depth + 1)

/-! ### What one visit looks at -/

/-- With comments before it, an `else` continues no more than it did. -/
theorem belongsToIf (h : Commented tokens commented)
    (hbelongs : Check.belongsToIf commented = true) : Check.belongsToIf tokens = true := by
  cases h with
  | nil => exact hbelongs
  | keep closing h =>
    have howner := h.find? (p := fun t =>
      t.kind == .name && t.position.column == closing.position.column) (by simp +contextual)
    rw [Check.belongsToIf, howner] at hbelongs
    rwa [Check.belongsToIf]
  | add hkind h =>
    -- A comment right before the `else` is no dedent.
    simp [Check.belongsToIf, hkind] at hbelongs

/-- Code behind an `if` stays code, and a comment in its place counts as code. -/
theorem hasCodeAfterIf (h : Commented tokens commented)
    (hcode : Check.hasCodeAfterIf tokens = true) : Check.hasCodeAfterIf commented = true := by
  rw [Check.hasCodeAfterIf] at hcode ⊢
  rcases h.dropWhile (p := (!isBlockEdge ·)) (by simp +contextual [isBlockEdge]) with
    ⟨htokens, -⟩ | ⟨edge, body, body', hbody, htokens, hcommented⟩
  · rw [htokens] at hcode
    cases hcode
  · rw [htokens] at hcode
    rw [hcommented]
    dsimp only at hcode ⊢
    have hafter := hbody.afterBlocks 1
    generalize Check.afterBlocks 1 body = behind at hcode hafter
    generalize Check.afterBlocks 1 body' = behind' at hafter ⊢
    cases hafter with
    | none => exact hcode
    | some hrest =>
      cases hrest with
      | nil => exact hcode
      | keep next hrest => exact hcode
      | add hkind hrest => simp [hkind]

/-- Behind an `else`, a comment ends the layout before an `if` is found. -/
theorem reportFrom_sublist (h : Commented tokens commented) :
    (reportFrom (commented.dropWhile isElseLayout)).Sublist
      (reportFrom (tokens.dropWhile isElseLayout)) := by
  induction h with
  | nil => exact List.Sublist.refl _
  | @keep token tokens commented h ih =>
    rw [List.dropWhile_cons, List.dropWhile_cons]
    by_cases hlayout : isElseLayout token = true
    · rw [if_pos hlayout, if_pos hlayout]
      exact ih
    · rw [if_neg hlayout, if_neg hlayout, reportFrom, reportFrom]
      cases hcode : Check.hasCodeAfterIf tokens with
      | false =>
        cases token.isKeyword "if" with
        | false => exact List.nil_sublist _
        | true => cases Check.hasCodeAfterIf commented <;> simp
      | true => rw [h.hasCodeAfterIf hcode]
  | @add comment hkind tokens commented h ih =>
    have hlayout : isElseLayout comment ≠ true := by simp [isElseLayout, hkind]
    have hword : comment.isKeyword "if" = false := isKeyword_eq_false_of_kind (by simp [hkind]) _
    rw [List.dropWhile_cons, if_neg hlayout, reportFrom, hword]
    exact List.nil_sublist _

variable {before before' : List Token}

/-- **One step**: a visit to a token reports no more than without the comments around it. -/
theorem reportAt_sublist (hbefore : Commented before before') (hafter : Commented tokens commented)
    (token : Token) :
    (reportAt before' token commented).Sublist (reportAt before token tokens) := by
  rw [reportAt, reportAt]
  by_cases hseen : (token.isKeyword "else" && Check.belongsToIf before') = true
  · obtain ⟨helse, hbelongs⟩ := Bool.and_eq_true_iff.mp hseen
    have hseen' : (token.isKeyword "else" && Check.belongsToIf before) = true :=
      Bool.and_eq_true_iff.mpr ⟨helse, hbefore.belongsToIf hbelongs⟩
    rw [if_pos hseen, if_pos hseen']
    exact hafter.reportFrom_sublist
  · rw [if_neg hseen]
    exact List.nil_sublist _

/-- **A whole stream**: with comments between the tokens no report is new, and those that are left
keep their order. -/
theorem reportsIn_sublist (hbefore : Commented before before')
    (h : Commented tokens commented) :
    (reportsIn before' commented []).Sublist (reportsIn before tokens []) := by
  induction h generalizing before before' with
  | nil => exact List.nil_sublist _
  | keep token h ih =>
    rw [reportsIn, reportsIn, List.append_nil, List.append_nil]
    exact (hbefore.reportAt_sublist h token).append (ih (.keep token hbefore))
  | add hkind h ih =>
    rw [reportsIn, reportAt_of_not_else (isKeyword_eq_false_of_kind (by simp [hkind]) _),
      List.nil_append]
    exact ih (.add hkind hbefore)

/-- A violation that was silenced stays so. -/
theorem silenced (h : Commented tokens commented) {v : Violation} (hv : v.Silenced tokens) :
    v.Silenced commented := by
  obtain ⟨token, htoken, hdirective⟩ := hv
  exact ⟨token, h.subset htoken, hdirective⟩

end Commented

/-! ### A linted unit -/

/-- Of the standard checks only that of implicit `elif`s visits tokens. -/
theorem tokenOutcomes_standard (catalog : Catalog) (settings : Settings) (visit : TokenVisit) :
    tokenOutcomes catalog (.standard settings) visit
      = tokenOutcomes catalog (.ofList [.token implicitElif]) visit := by
  rw [tokenOutcomes, tokenOutcomes, Registry.standard, tokenChecksFor_ofList,
    tokenChecksFor_ofList]
  rfl

/-- What the standard checks do on the nodes of a unit. -/
def treeOutcomes (catalog : Catalog) (settings : Settings) (unit : SourceUnit) : List Outcome :=
  (nodeVisits unit).flatMap (nodeOutcomes catalog (.standard settings))

/-- The standard checks find what they find in the tree and, behind it, the implicit `elif`s. All
faults are those of the tree. -/
theorem analyze_standard {catalog : Catalog}
    (hrule : catalog.contains Rule.implicitElif = true) (settings : Settings) (unit : SourceUnit) :
    analyze catalog (.standard settings) unit
      = { UnitReport.empty unit.path with
          violations := (treeOutcomes catalog settings unit).flatMap (·.violations)
            ++ (reportsIn [] unit.tokens []).map fun position =>
              Violation.of Rule.implicitElif position none
          faults := (treeOutcomes catalog settings unit).filterMap (·.fault?) } := by
  have hvisits := flatMap_reportAt_tokenVisitsFrom unit.path [] unit.tokens
  have htokens : (tokenVisits unit).flatMap (tokenOutcomes catalog (.standard settings))
      = (tokenVisits unit).flatMap (tokenOutcomes catalog (.ofList [.token implicitElif])) :=
    List.flatMap_congr fun visit _ => tokenOutcomes_standard catalog settings visit
  rw [analyze, outcomes, htokens, ← treeOutcomes, ← hvisits, List.flatMap_append,
    List.filterMap_append, List.map_flatMap, tokenVisits, List.flatMap_assoc,
    List.filterMap_flatMap]
  congr 1
  · congr 1
    exact List.flatMap_congr fun visit _ => (tokenOutcomes_implicitElif hrule visit).1
  · rw [List.flatMap_eq_nil_iff.mpr fun visit _ => (tokenOutcomes_implicitElif hrule visit).2,
      List.append_nil]

/-- A pass finds no more among the tokens, and the same in the tree. -/
theorem analyze_commented {catalog : Catalog}
    (hrule : catalog.contains Rule.implicitElif = true) (settings : Settings) (unit : SourceUnit)
    {commented : List Token} (h : Commented unit.tokens commented) :
    let before := analyze catalog (.standard settings) unit
    let after := analyze catalog (.standard settings) { unit with tokens := commented }
    after.violations.Sublist before.violations ∧ after.faults = before.faults := by
  intro before after
  have hreports := Commented.nil.reportsIn_sublist h
  have hbefore : before = _ := analyze_standard hrule settings unit
  have hafter : after = _ := analyze_standard hrule settings { unit with tokens := commented }
  rw [hbefore, hafter]
  exact ⟨(List.Sublist.refl _).append (hreports.map _), rfl⟩

theorem violations_lintUnit (linter : Linter) (unit : SourceUnit) :
    (linter.lintUnit unit).violations
      = ((analyze linter.catalog linter.registry unit).withFaults.violations.filter fun v =>
          ¬ v.Silenced unit.tokens).filter fun v => v.code ∉ linter.ignored := by
  rw [Linter.lintUnit, UnitReport.dropIgnored_eq, UnitReport.suppress_eq]

/-- Of fewer violations, more comments leave a part of what fewer comments leave of all. -/
theorem filter_silenced_sublist {tokens commented : List Token} (h : Commented tokens commented)
    {vs ws : List Violation} (hsub : ws.Sublist vs) :
    (ws.filter fun v => ¬ v.Silenced commented).Sublist
      (vs.filter fun v => ¬ v.Silenced tokens) := by
  have hboth : (ws.filter fun v => ¬ v.Silenced commented)
      = (ws.filter fun v => ¬ v.Silenced tokens).filter fun v => ¬ v.Silenced commented := by
    rw [filter_filter_and]
    refine List.filter_congr fun v _ => ?_
    rw [decide_eq_decide]
    constructor
    · intro hv
      exact ⟨fun hsilenced => hv (h.silenced hsilenced), hv⟩
    · rintro ⟨-, hv⟩
      exact hv
  rw [hboth]
  exact List.filter_sublist.trans (hsub.filter _)

/-- **Comments can only silence**: whatever comments are put wherever between the tokens of a unit,
linting it with the standard rules and checks reports no new violation, keeps those that are left in
their order, and meets the same faults. -/
theorem lintUnit_commented (settings : Settings) (unit : SourceUnit) {commented : List Token}
    (h : Commented unit.tokens commented) :
    ∃ catalog, Catalog.standard = .ok catalog ∧
      let linter := Linter.standard catalog settings
      let before := linter.lintUnit unit
      let after := linter.lintUnit { unit with tokens := commented }
      after.violations.Sublist before.violations ∧ after.faults = before.faults := by
  refine ⟨_, Catalog.build_standardGroups, ?_⟩
  intro linter before after
  have hrule := Catalog.contains_reportedRules Rule.implicitElif (by simp [reportedRules])
  obtain ⟨hviolations, hfaults⟩ := analyze_commented hrule settings unit h
  refine ⟨?_, hfaults⟩
  rw [violations_lintUnit, violations_lintUnit]
  refine (filter_silenced_sublist h (hviolations.append ?_)).filter _
  -- The violations that stand for faults are the same.
  exact (congrArg (List.map Fault.violation) hfaults) ▸ List.Sublist.refl _

/-- A unit with a lone `if` in an `else` block. -/
def elseWithLoneIfUnit : SourceUnit where
  path := "m.py"
  tree := .plain .module ⟨1, 0⟩ []
  tokens := elseWithLoneIf.tokens

/-- Its tokens with a comment in front of the `if`. -/
def elseWithComment : List Token :=
  elseWithLoneIf.tokens.take 13 ++ ⟨.comment, "# fallback", ⟨5, 2⟩⟩ :: elseWithLoneIf.tokens.drop 13

theorem lintUnit_elseWithComment :
    Commented elseWithLoneIfUnit.tokens elseWithComment
      ∧ ∃ catalog, Catalog.standard = .ok catalog ∧
        let linter := Linter.standard catalog {}
        let before := linter.lintUnit elseWithLoneIfUnit
        let after := linter.lintUnit { elseWithLoneIfUnit with tokens := elseWithComment }
        before.violations = [Violation.of Rule.implicitElif ⟨5, 2⟩ none]
          ∧ after.violations = []
          ∧ after.violations.Sublist before.violations ∧ after.faults = before.faults := by
  have hcommented : Commented elseWithLoneIfUnit.tokens elseWithComment :=
    .insert rfl (elseWithLoneIf.tokens.take 13) (elseWithLoneIf.tokens.drop 13)
  obtain ⟨catalog, hcatalog, hlint⟩ := lintUnit_commented {} elseWithLoneIfUnit hcommented
  obtain rfl := Except.ok.inj (Catalog.build_standardGroups.symm.trans hcatalog)
  have hrule := Catalog.contains_reportedRules Rule.implicitElif (by simp [reportedRules])
  refine ⟨hcommented, _, hcatalog, ?_, ?_, hlint⟩
  all_goals
    rw [violations_lintUnit]
    simp only [Linter.standard, Linter.withRegistry]
    rw [analyze_standard hrule]
    simp only [treeOutcomes, nodeVisits_eq]
    decide +kernel

end PyStyle
