import PyStyle.Proofs.CatalogIndexes
import PyStyle.Proofs.CheckIsolation
import PyStyle.Proofs.ReportBuckets

/-!
# Violations and the catalog

A check may try to report any rule it likes, also one that differs from a registered rule in a
single field. Nothing of the kind reaches a report:

- `Violation.BackedBy` — a violation that says what a rule of the catalog says;
- `exists_action_of_mem` — every violation of a pass comes from one visit of one check;
- `attempt_of_mem_run` — what a visit adds was tried with a rule of the catalog;
- `mem_of_mem_lintUnit` — linting adds violations for faults and no others;
- `analyze_backed` — all violations of a pass are backed, and all of a linted unit have the
  category that owns their code.
-/

namespace PyStyle

/-- The violation is one of a rule that the catalog has under its code. -/
structure Violation.BackedBy (catalog : Catalog) (rule : Rule) (v : Violation) : Prop where
  registered : catalog.get? v.code = some rule
  category : v.category = rule.category
  isFinal : v.isFinal = true
  message : ∃ argument, v.message = rule.render argument

/-! ### From a report back to a visit -/

theorem exists_action_of_mem {catalog : Catalog} {registry : Registry} {unit : SourceUnit}
    {v : Violation} (h : v ∈ (analyze catalog registry unit).violations) :
    ∃ action : Action, v ∈ (action.run catalog).1 := by
  obtain ⟨outcome, houtcome, hv⟩ := List.mem_flatMap.mp h
  rcases List.mem_append.mp houtcome with hnode | htoken
  · obtain ⟨visit, -, hvisit⟩ := List.mem_flatMap.mp hnode
    obtain ⟨check, -, rfl⟩ := List.mem_map.mp hvisit
    exact ⟨check.visit visit, hv⟩
  · obtain ⟨visit, -, hvisit⟩ := List.mem_flatMap.mp htoken
    obtain ⟨check, -, rfl⟩ := List.mem_map.mp hvisit
    exact ⟨check.visit visit, hv⟩

theorem attempt_of_mem_run {catalog : Catalog} {action : Action} {v : Violation}
    (h : v ∈ (action.run catalog).1) :
    ∃ attempt ∈ action.attempts catalog,
      catalog.contains attempt.rule = true ∧ v = attempt.violation := by
  rw [Action.run_eq] at h
  obtain ⟨attempt, hattempt, rfl⟩ := List.mem_map.mp h
  obtain ⟨hmem, hrule⟩ := List.mem_filter.mp hattempt
  exact ⟨attempt, hmem, hrule, rfl⟩

/-- Linting moves and drops violations, and adds those of faults. -/
theorem mem_of_mem_lintUnit {linter : Linter} {unit : SourceUnit} {v : Violation}
    (h : v ∈ (linter.lintUnit unit).violations ∨ v ∈ (linter.lintUnit unit).suppressed) :
    v ∈ (analyze linter.catalog linter.registry unit).violations
      ∨ ∃ fault : Fault, v = fault.violation := by
  have hall : v ∈ (analyze linter.catalog linter.registry unit).withFaults.violations := by
    rw [Linter.lintUnit, UnitReport.dropIgnored_eq, UnitReport.suppress_eq] at h
    rcases h with hactive | hsilenced
    · exact (List.mem_filter.mp (List.mem_filter.mp hactive).1).1
    · -- The pass itself suppresses nothing.
      rcases List.mem_append.mp hsilenced with hpass | hmoved
      · cases hpass
      · exact (List.mem_filter.mp hmoved).1
  rcases List.mem_append.mp hall with hpass | hfault
  · exact .inl hpass
  · obtain ⟨fault, -, rfl⟩ := List.mem_map.mp hfault
    exact .inr ⟨fault, rfl⟩

/-! ### Rules of the catalog -/

namespace Catalog

variable {groups : List (Category × List Rule)}

theorem isFinal_of_mem (h : SoundGroups groups) {rule : Rule} (hrule : rule ∈ allRules groups) :
    rule.isFinal = true := by
  obtain ⟨group, hgroup, hmem⟩ := mem_allRules.mp hrule
  exact (h.sound group hgroup).isFinal rule hmem

/-- A violation that was tried with a rule of the catalog is one of that rule. -/
theorem backedBy_violation (h : SoundGroups groups) {attempt : Attempt}
    (hrule : attempt.rule ∈ allRules groups) :
    attempt.violation.BackedBy (ofGroups groups) attempt.rule where
  registered := (get?_eq_some_iff h).mpr ⟨hrule, rfl⟩
  category := rfl
  isFinal := isFinal_of_mem h hrule
  message := ⟨attempt.argument, rfl⟩

/-- What a pass finds was attempted by a check, and the catalog knows the rule. -/
theorem backed_of_mem_analyze (h : SoundGroups groups) {registry : Registry} {unit : SourceUnit}
    {v : Violation} (hv : v ∈ (analyze (ofGroups groups) registry unit).violations) :
    (∃ rule ∈ allRules groups, v.BackedBy (ofGroups groups) rule)
      ∧ Category.ofCode? v.code = some v.category := by
  obtain ⟨action, haction⟩ := exists_action_of_mem hv
  obtain ⟨attempt, -, hcontains, rfl⟩ := attempt_of_mem_run haction
  have hrule : attempt.rule ∈ allRules groups := (contains_iff h).mp hcontains
  exact ⟨⟨attempt.rule, hrule, backedBy_violation h hrule⟩,
    Category.ofCode?_of_owns (owns_of_mem h hrule)⟩

/-- A visit adds the reports of rules of the groups, and nothing for any other rule. -/
theorem run_eq_of_mem (h : SoundGroups groups) (action : Action) :
    (action.run (ofGroups groups)).1
      = ((action.attempts (ofGroups groups)).filter (·.rule ∈ allRules groups)).map
          (·.violation) := by
  have hcontains : ∀ attempt : Attempt, (ofGroups groups).contains attempt.rule
      = decide (attempt.rule ∈ allRules groups) := by
    intro attempt
    rw [Bool.eq_iff_iff, contains_iff h, decide_eq_true_iff]
  rw [Action.run_eq]
  simp only [hcontains]

/-- **Every violation is backed by the catalog**, whatever the checks try: in a pass it is one of
the rule that the catalog has under its code, and a report of any other rule adds nothing. Of a
linted unit, where faults have become violations, every violation that is reported or suppressed
has the category that owns its code. -/
theorem analyze_backed {catalog : Catalog} (h : build groups = .ok catalog) (registry : Registry)
    (unit : SourceUnit) :
    (∀ v ∈ (analyze catalog registry unit).violations,
        (∃ rule ∈ allRules groups, v.BackedBy catalog rule)
          ∧ Category.ofCode? v.code = some v.category)
      ∧ (∀ action : Action, (action.run catalog).1
          = ((action.attempts catalog).filter (·.rule ∈ allRules groups)).map (·.violation))
      ∧ ∀ settings : Settings,
          let report := (Linter.withRegistry catalog registry settings).lintUnit unit
          ∀ v, v ∈ report.violations ∨ v ∈ report.suppressed →
            v.category.index = v.code / 100 := by
  obtain ⟨hsound, rfl⟩ := build_eq_ok_iff.mp h
  refine ⟨fun v => backed_of_mem_analyze hsound, run_eq_of_mem hsound, ?_⟩
  intro settings report v hv
  rcases mem_of_mem_lintUnit hv with hpass | ⟨fault, rfl⟩
  · exact index_of_all (backed_of_mem_analyze hsound hpass).2
  · rw [Fault.violation_eq]
    exact (Nat.zero_div 100).symm

/-- A check that tries a registered rule under another name, then one as it is registered, and
breaks down. -/
def misreporting : NodeCheck where
  name := "misreporting"
  kinds := [.module]
  visit _ :=
    .report (.of .oop 600 "renamed" "oop") none ⟨1, 0⟩ fun _ =>
    .report (.of .oop 603 "later" "oop: \x7b0\x7d") (some "x") ⟨1, 0⟩ fun _ =>
    .fail (.crashed none)

theorem misreporting_backed :
    let found := analyze (ofGroups backwardGroups) (.ofList [.node misreporting])
      { path := "m.py", tree := .plain .module ⟨1, 0⟩ [], tokens := [] }
    build backwardGroups = .ok (ofGroups backwardGroups)
      ∧ found.violations.map (·.code) = [603]
      ∧ ∀ v ∈ found.violations,
          (∃ rule ∈ allRules backwardGroups, v.BackedBy (ofGroups backwardGroups) rule)
            ∧ Category.ofCode? v.code = some v.category := by
  refine ⟨build_backwardGroups, ?_, (analyze_backed build_backwardGroups _ _).1⟩
  rw [analyze, outcomes_ofList]
  decide

end Catalog

end PyStyle
