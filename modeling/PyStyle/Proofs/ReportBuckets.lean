import Mathlib.Data.List.Basic
import PyStyle.Lint

/-!
# Where violations end up

Between the pass and the report, faults become violations, comments silence some of them and
settings drop others. Each violation is still there afterwards, in one of three buckets:

- `Violation.Silenced` — a comment among the tokens speaks about the violation;
- `Fault.violation_eq` — what a fault looks like as a violation;
- `UnitReport.suppress_eq`, `UnitReport.dropIgnored_eq` — what one filter does to a report;
- `UnitReport.total` — how many violations a report accounts for, which no filter changes;
- `lintUnit_buckets` — the three buckets of a linted unit, exactly.
-/

namespace PyStyle

/-! ### Faults as violations -/

/-- A pattern is not found in a text without its first character. -/
theorem Text.replaceAll_append {first : Char} {front : List Char} (pattern insert rest : List Char)
    (hfront : first ∉ front) :
    Text.replaceAll (first :: pattern) insert (front ++ rest)
      = front ++ Text.replaceAll (first :: pattern) insert rest := by
  induction front with
  | nil => rfl
  | cons c front ih =>
    obtain ⟨hc, hfront⟩ : first ≠ c ∧ first ∉ front := by simpa using hfront
    rw [List.cons_append, Text.replaceAll, if_neg, ih hfront, List.cons_append]
    -- The pattern would have to start with `c`.
    rintro ⟨-, hstart⟩
    simp [List.isPrefixOf, hc] at hstart

theorem Text.replaceAll_self {first : Char} (pattern insert : List Char) :
    Text.replaceAll (first :: pattern) insert (first :: pattern) = insert := by
  rw [Text.replaceAll, if_pos ⟨List.cons_ne_nil _ _, by simp⟩, List.drop_length, Text.replaceAll,
    List.append_nil]

/-- The message of a rule that ends in the place of its argument is the text before, and the
argument. What the argument itself looks like makes no difference. -/
theorem Rule.render_append {rule : Rule} {front : String}
    (htemplate : rule.template.toList = front.toList ++ Rule.argumentPlace)
    (hfront : '{' ∉ front.toList) (argument : String) :
    rule.render (some argument) = front ++ argument := by
  rw [Rule.render, htemplate]
  show String.ofList (Text.replaceAll ('{' :: ['0', '}']) argument.toList
    (front.toList ++ ('{' :: ['0', '}']))) = _
  rw [Text.replaceAll_append _ _ _ hfront, Text.replaceAll_self, String.ofList_append,
    String.ofList_toList, String.ofList_toList]

theorem Rule.render_internalError (argument : String) :
    Rule.internalError.render (some argument) = "Internal error in check: " ++ argument :=
  Rule.render_append (by decide) (by decide) argument

/-- A fault is shown as a violation of its own rule, in the place of the check that broke down. -/
theorem Fault.violation_eq (fault : Fault) :
    fault.violation
      = { code := 0
          message := "Internal error in check: " ++ (fault.check ++ ": " ++ fault.message)
          category := .system
          isFinal := true
          position := fault.position } := by
  rw [Fault.violation, Violation.of, Rule.render_internalError]
  rfl

/-! ### One filter -/

/-- Some comment among the tokens holds a directive for the line of the violation, one without
codes or one that lists the code of the violation. -/
def Violation.Silenced (tokens : List Token) (v : Violation) : Prop :=
  ∃ token ∈ tokens, token.kind = .comment
    ∧ ∃ directive, Suppression.ofComment? token.position.line token.text.toList = some directive
      ∧ directive.line = v.position.line
      ∧ (directive.codes = none ∨ ∃ codes, directive.codes = some codes ∧ v.code ∈ codes)

/-- A directive silences its line: every code, or the codes in its list. -/
theorem Suppression.silences_iff {directive : Suppression} {v : Violation} :
    directive.silences v = true
      ↔ directive.line = v.position.line
        ∧ (directive.codes = none ∨ ∃ codes, directive.codes = some codes ∧ v.code ∈ codes) := by
  rw [Suppression.silences, Bool.and_eq_true, beq_iff_eq]
  refine and_congr eq_comm ?_
  cases directive.codes with
  | none => simp
  | some codes => simp

theorem Suppression.mem_ofTokens {tokens : List Token} {directive : Suppression} :
    directive ∈ Suppression.ofTokens tokens
      ↔ ∃ token ∈ tokens, token.kind = .comment
        ∧ Suppression.ofComment? token.position.line token.text.toList = some directive := by
  simp [Suppression.ofTokens, and_assoc]

theorem Violation.silenced_iff {tokens : List Token} {v : Violation} :
    v.Silenced tokens ↔ (Suppression.ofTokens tokens).any (·.silences v) = true := by
  rw [List.any_eq_true]
  constructor
  · rintro ⟨token, htoken, hkind, directive, hdirective, hsilences⟩
    exact ⟨directive, Suppression.mem_ofTokens.mpr ⟨token, htoken, hkind, hdirective⟩,
      Suppression.silences_iff.mpr hsilences⟩
  · rintro ⟨directive, hmem, hsilences⟩
    obtain ⟨token, htoken, hkind, hdirective⟩ := Suppression.mem_ofTokens.mp hmem
    exact ⟨token, htoken, hkind, directive, hdirective, Suppression.silences_iff.mp hsilences⟩

instance (tokens : List Token) (v : Violation) : Decidable (v.Silenced tokens) :=
  decidable_of_iff' _ Violation.silenced_iff

namespace UnitReport

/-- Comments move the violations they silence, and keep their order. -/
theorem suppress_eq (report : UnitReport) (tokens : List Token) :
    report.suppress tokens
      = { report with
          violations := report.violations.filter fun v => ¬ v.Silenced tokens
          suppressed := report.suppressed ++ report.violations.filter (·.Silenced tokens) } := by
  have hsilenced : ∀ v, (Suppression.ofTokens tokens).any (·.silences v)
      = decide (v.Silenced tokens) := by
    intro v
    rw [Bool.eq_iff_iff, decide_eq_true_iff, Violation.silenced_iff]
  simp only [suppress, suppressBy, hsilenced, decide_not]

/-- Ignored codes are dropped, and their violations counted. -/
theorem dropIgnored_eq (report : UnitReport) (ignored : List Nat) :
    report.dropIgnored ignored
      = { report with
          violations := report.violations.filter fun v => v.code ∉ ignored
          ignored := report.ignored
            + (report.violations.filter fun v => v.code ∈ ignored).length } := by
  simp only [dropIgnored, List.countP_eq_length_filter, List.contains_eq_mem, decide_not]

/-- The number of violations that a report accounts for. -/
def total (report : UnitReport) : Nat :=
  report.violations.length + report.suppressed.length + report.ignored

/-- A filter and its complement share a list between them. -/
theorem length_filter_add {α : Type} (p : α → Prop) [DecidablePred p] (xs : List α) :
    (xs.filter fun x => ¬ p x).length + (xs.filter fun x => p x).length = xs.length := by
  have h := List.length_eq_length_filter_add (l := xs) fun x => decide (p x)
  simp only [decide_not]
  omega

/-- Silencing moves violations from one bucket to another. -/
theorem total_suppress (report : UnitReport) (tokens : List Token) :
    (report.suppress tokens).total = report.total := by
  have h := length_filter_add (·.Silenced tokens) report.violations
  rw [suppress_eq, total, total]
  dsimp only
  rw [List.length_append]
  omega

/-- Dropping ignored codes counts what it drops. -/
theorem total_dropIgnored (report : UnitReport) (ignored : List Nat) :
    (report.dropIgnored ignored).total = report.total := by
  have h := length_filter_add (·.code ∈ ignored) report.violations
  rw [dropIgnored_eq, total, total]
  dsimp only
  omega

end UnitReport

/-! ### The linted unit -/

theorem filter_filter_and {α : Type} (p q : α → Prop) [DecidablePred p] [DecidablePred q]
    (xs : List α) :
    (xs.filter fun x => p x).filter (fun x => q x) = xs.filter fun x => p x ∧ q x := by
  rw [List.filter_filter]
  refine List.filter_congr fun x _ => ?_
  rw [Bool.decide_and, Bool.and_comm]

/-- A linted unit accounts for what the pass found, faults included. -/
theorem total_lintUnit (linter : Linter) (unit : SourceUnit) :
    (linter.lintUnit unit).total
      = (analyze linter.catalog linter.registry unit).violations.length
        + (analyze linter.catalog linter.registry unit).faults.length := by
  rw [Linter.lintUnit, UnitReport.total_dropIgnored, UnitReport.total_suppress]
  simp [UnitReport.total, UnitReport.withFaults, analyze, UnitReport.empty]

/-- **No violation is lost or invented**: with one violation for each fault behind those of the
pass, a linted unit has suppressed exactly those that a comment silences, ignored exactly those of
the others whose code is ignored, and reports what is left, all in the order of the pass. -/
theorem lintUnit_buckets (catalog : Catalog) (registry : Registry) (settings : Settings)
    (unit : SourceUnit) :
    let found := analyze catalog registry unit
    let all := found.violations ++ found.faults.map fun fault =>
      { code := 0
        message := "Internal error in check: " ++ (fault.check ++ ": " ++ fault.message)
        category := .system
        isFinal := true
        position := fault.position }
    let report := (Linter.withRegistry catalog registry settings).lintUnit unit
    report.suppressed = all.filter (·.Silenced unit.tokens)
      ∧ report.violations = all.filter (fun v =>
          ¬ v.Silenced unit.tokens ∧ v.code ∉ settings.ignoredCodes catalog)
      ∧ report.ignored = (all.filter fun v =>
          ¬ v.Silenced unit.tokens ∧ v.code ∈ settings.ignoredCodes catalog).length
      ∧ report.faults = found.faults
      ∧ report.path = unit.path
      ∧ report.violations.length + report.suppressed.length + report.ignored
        = found.violations.length + found.faults.length := by
  intro found all report
  have hreport : report
      = ((found.withFaults).suppress unit.tokens).dropIgnored (settings.ignoredCodes catalog) := rfl
  have hall : found.withFaults.violations = all := by
    show found.violations ++ found.faults.map (·.violation) = all
    simp only [Fault.violation_eq, all]
  -- The pass itself suppresses and ignores nothing, so the buckets start empty.
  have hrest : found.withFaults.suppressed = [] ∧ found.withFaults.ignored = 0 := ⟨rfl, rfl⟩
  rw [UnitReport.dropIgnored_eq, UnitReport.suppress_eq] at hreport
  refine ⟨?_, ?_, ?_, ?_, ?_, ?_⟩
  · rw [hreport]
    show found.withFaults.suppressed ++ _ = _
    rw [hrest.1, hall, List.nil_append]
  · rw [hreport]
    dsimp only
    rw [hall, filter_filter_and]
  · rw [hreport]
    dsimp only
    rw [hall, filter_filter_and, hrest.2, Nat.zero_add]
  · rw [hreport]
    rfl
  · rw [hreport]
    rfl
  · exact total_lintUnit (Linter.withRegistry catalog registry settings) unit

end PyStyle
