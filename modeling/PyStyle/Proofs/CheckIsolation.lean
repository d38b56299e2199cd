import Mathlib.Data.List.Basic
import PyStyle.Proofs.VisitOrder

/-!
# Checks do not disturb each other

All checks of a pass add to one list of violations and one list of faults, and a check may fail
in the middle of a visit. Still each check adds what it would add on its own:

- `Action.attempts`, `Action.failure?` — what a check tries to report on one element, and the
  failure it ends with;
- `Action.run_eq` — the reports that the catalog knows are kept, however the visit ends;
- `Ledger` — what a pass found, each item with the place of the check that added it;
- `placedSchedule_filter` — without some of the checks, a pass makes the visits of the others, in
  the same order;
- `analyze_isolates` — the report without a check is the report with it, less what it added.
-/

namespace PyStyle

/-! ### What one visit adds -/

/-- A report that a check tries to make. -/
structure Attempt where
  rule : Rule
  argument : Option String
  position : Position

/-- The violation that the report adds if the catalog knows its rule. -/
def Attempt.violation (attempt : Attempt) : Violation :=
  .of attempt.rule attempt.position attempt.argument

namespace Action

/-- The reports that an action tries to make before it ends, well or not. -/
def attempts (catalog : Catalog) : Action → List Attempt
  | .done => []
  | .fail _ => []
  | .report rule argument position next =>
    ⟨rule, argument, position⟩ :: (next (catalog.contains rule)).attempts catalog

/-- The failure that an action ends with, if it does not end well. -/
def failure? (catalog : Catalog) : Action → Option Failure
  | .done => none
  | .fail failure => some failure
  | .report rule _ _ next => (next (catalog.contains rule)).failure? catalog

/-- **A visit adds the reports that the catalog knows**, up to its end or its failure, and
nothing else. -/
theorem run_eq (catalog : Catalog) (action : Action) :
    action.run catalog
      = (((action.attempts catalog).filter (catalog.contains ·.rule)).map (·.violation),
          action.failure? catalog) := by
  induction action with
  | done => rfl
  | fail failure => rfl
  | report rule argument position next ih =>
    rw [run, attempts, failure?, ih, ih]
    cases hrule : catalog.contains rule with
    | true => simp [hrule, Attempt.violation]
    | false => simp [hrule]

end Action

/-- The name of the check. -/
def Registration.name : Registration → String
  | .node check => check.name
  | .token check => check.name

namespace CheckVisit

/-- The check that visits. -/
def check : CheckVisit → Registration
  | .node check _ => .node check
  | .token check _ => .token check

/-- Where the visited element stands. -/
def position : CheckVisit → Position
  | .node _ visit => visit.node.position
  | .token _ visit => visit.token.position

/-- What the check does with the element. -/
def action : CheckVisit → Action
  | .node check visit => check.visit visit
  | .token check visit => check.visit visit

theorem outcome_eq (catalog : Catalog) (visit : CheckVisit) :
    visit.outcome catalog
      = .of catalog visit.check.name visit.position visit.action := by
  cases visit <;> rfl

/-- What the visit adds to the violations. -/
theorem violations_outcome (catalog : Catalog) (visit : CheckVisit) :
    (visit.outcome catalog).violations
      = ((visit.action.attempts catalog).filter (catalog.contains ·.rule)).map (·.violation) := by
  rw [outcome_eq, Outcome.of, Action.run_eq]

/-- What the visit adds to the faults: one if it fails, with the name of the check and the place
of the element, and none otherwise. -/
theorem fault?_outcome (catalog : Catalog) (visit : CheckVisit) :
    (visit.outcome catalog).fault?
      = (visit.action.failure? catalog).map fun failure =>
          ⟨visit.check.name, visit.position, failure.message⟩ := by
  rw [outcome_eq, Outcome.of, Action.run_eq]
  rfl

end CheckVisit

/-! ### Visits with the places of their checks -/

/-- The visit of a check to a node, if it lists the kind of the node. -/
def Registration.visitNode? (visit : NodeVisit) : Registration → Option CheckVisit
  | .node check => if visit.node.kind ∈ check.kinds then some (.node check visit) else none
  | .token _ => none

/-- The visit of a check to a token, if it lists the kind of the token. -/
def Registration.visitToken? (visit : TokenVisit) : Registration → Option CheckVisit
  | .node _ => none
  | .token check => if visit.token.kind ∈ check.kinds then some (.token check visit) else none

theorem nodeSchedule_eq (registrations : List Registration) (visit : NodeVisit) :
    nodeSchedule registrations visit = registrations.filterMap (·.visitNode? visit) := by
  induction registrations with
  | nil => rfl
  | cons registration rest ih =>
    rw [List.filterMap_cons, ← ih]
    cases registration with
    | node check =>
      by_cases hkind : visit.node.kind ∈ check.kinds <;>
        simp [nodeSchedule, Registration.visitNode?, Registration.nodeCheck?, hkind]
    | token check => rfl

theorem tokenSchedule_eq (registrations : List Registration) (visit : TokenVisit) :
    tokenSchedule registrations visit = registrations.filterMap (·.visitToken? visit) := by
  induction registrations with
  | nil => rfl
  | cons registration rest ih =>
    rw [List.filterMap_cons, ← ih]
    cases registration with
    | node check => rfl
    | token check =>
      by_cases hkind : visit.token.kind ∈ check.kinds <;>
        simp [tokenSchedule, Registration.visitToken?, Registration.tokenCheck?, hkind]

/-- The visits that placed checks make to one element, each with the place of its check. -/
def placedVisits (visit? : Registration → Option CheckVisit)
    (placed : List (Registration × Nat)) : List (CheckVisit × Nat) :=
  placed.filterMap fun (registration, place) => (visit? registration).map (·, place)

/-- The visits of a pass, each with the place of its check. -/
def placedSchedule (placed : List (Registration × Nat)) (unit : SourceUnit) :
    List (CheckVisit × Nat) :=
  (unit.tree.visits unit.path []).flatMap (fun visit => placedVisits (·.visitNode? visit) placed)
    ++ unit.tokens.zipIdx.flatMap fun (token, index) =>
      placedVisits (·.visitToken? (token.visitAt unit.path unit.tokens index)) placed

theorem placedVisits_fst (visit? : Registration → Option CheckVisit)
    (placed : List (Registration × Nat)) :
    (placedVisits visit? placed).map (·.1) = (placed.map (·.1)).filterMap visit? := by
  rw [placedVisits, List.map_filterMap, List.filterMap_map]
  congr 1
  funext ⟨registration, place⟩
  simp [Function.comp_def]

theorem placedVisits_filter (visit? : Registration → Option CheckVisit) (p : Nat → Bool)
    (placed : List (Registration × Nat)) :
    (placedVisits visit? placed).filter (fun visit => p visit.2)
      = placedVisits visit? (placed.filter fun entry => p entry.2) := by
  rw [placedVisits, placedVisits, List.filter_filterMap, List.filterMap_filter]
  congr 1
  funext ⟨registration, place⟩
  cases hvisit : visit? registration <;> cases hp : p place <;> simp [hvisit, hp]

/-- Without the places, the visits are those of the pass. -/
theorem placedSchedule_fst (placed : List (Registration × Nat)) (unit : SourceUnit) :
    (placedSchedule placed unit).map (·.1) = schedule (placed.map (·.1)) unit := by
  rw [placedSchedule, schedule, List.map_append, List.map_flatMap, List.map_flatMap]
  congr 1
  · refine List.flatMap_congr fun visit _ => ?_
    rw [placedVisits_fst, nodeSchedule_eq]
  · refine List.flatMap_congr fun place _ => ?_
    rw [placedVisits_fst]
    exact (tokenSchedule_eq _ _).symm

/-- **Fewer checks make fewer visits**: what the others see, and when, does not change. -/
theorem placedSchedule_filter (p : Nat → Bool) (placed : List (Registration × Nat))
    (unit : SourceUnit) :
    (placedSchedule placed unit).filter (fun visit => p visit.2)
      = placedSchedule (placed.filter fun entry => p entry.2) unit := by
  rw [placedSchedule, placedSchedule, List.filter_append, List.filter_flatMap,
    List.filter_flatMap]
  simp only [placedVisits_filter]

theorem check_of_mem_schedule {check : Registration} {unit : SourceUnit} {visit : CheckVisit}
    (h : visit ∈ schedule [check] unit) : visit.check = check := by
  simp only [schedule, nodeSchedule_eq, tokenSchedule_eq, List.mem_append, List.mem_flatMap,
    List.mem_filterMap, List.mem_singleton, exists_eq_left] at h
  rcases h with ⟨node, -, hvisit⟩ | ⟨token, -, hvisit⟩
  · cases check with
    | node check =>
      obtain ⟨-, rfl⟩ : _ ∧ _ := by simpa [Registration.visitNode?] using hvisit
      rfl
    | token check => cases hvisit
  · cases check with
    | node check => cases hvisit
    | token check =>
      obtain ⟨-, rfl⟩ : _ ∧ _ := by simpa [Registration.visitToken?] using hvisit
      rfl

/-! ### Who added what -/

/-- What a pass found, each item with the place of the check that added it. -/
structure Ledger where
  violations : List (Violation × Nat)
  faults : List (Fault × Nat)

namespace Ledger

/-- What visits add, each item with the place of the check. -/
def ofVisits (catalog : Catalog) (visits : List (CheckVisit × Nat)) : Ledger where
  violations := visits.flatMap fun (visit, place) =>
    (visit.outcome catalog).violations.map (·, place)
  faults := visits.filterMap fun (visit, place) => (visit.outcome catalog).fault?.map (·, place)

/-- What the checks add in a pass. The place of a check is its number in the order of
registration. -/
def of (catalog : Catalog) (registrations : List Registration) (unit : SourceUnit) : Ledger :=
  ofVisits catalog (placedSchedule registrations.zipIdx unit)

/-- The items of some of the checks. -/
def keep (p : Nat → Bool) (ledger : Ledger) : Ledger where
  violations := ledger.violations.filter fun item => p item.2
  faults := ledger.faults.filter fun item => p item.2

/-- The items of one check. -/
def only (place : Nat) (ledger : Ledger) : Ledger :=
  ledger.keep (· = place)

/-- The items of all checks but one. -/
def without (place : Nat) (ledger : Ledger) : Ledger :=
  ledger.keep (· ≠ place)

/-- The report that does not say who added what. -/
def report (path : String) (ledger : Ledger) : UnitReport :=
  { UnitReport.empty path with
    violations := ledger.violations.map (·.1)
    faults := ledger.faults.map (·.1) }

theorem keep_ofVisits (p : Nat → Bool) (catalog : Catalog) (visits : List (CheckVisit × Nat)) :
    (ofVisits catalog visits).keep p = ofVisits catalog (visits.filter fun visit => p visit.2) := by
  rw [keep, ofVisits, ofVisits, Ledger.mk.injEq]
  constructor
  · -- All items of a visit have its place, so they stay or go together.
    rw [List.filter_flatMap]
    induction visits with
    | nil => rfl
    | cons visit rest ih =>
      rw [List.flatMap_cons, ih, List.filter_cons]
      cases hp : p visit.2 <;> simp [hp]
  · rw [List.filter_filterMap, List.filterMap_filter]
    congr 1
    funext ⟨visit, place⟩
    cases hp : p place <;> cases hfault : (visit.outcome catalog).fault? <;> simp [hp, hfault]

theorem violations_ofVisits (catalog : Catalog) (visits : List (CheckVisit × Nat)) :
    (ofVisits catalog visits).violations.map (·.1)
      = (visits.map (·.1)).flatMap fun visit => (visit.outcome catalog).violations := by
  simp [ofVisits, List.map_flatMap, List.flatMap_map, Function.comp_def]

theorem faults_ofVisits (catalog : Catalog) (visits : List (CheckVisit × Nat)) :
    (ofVisits catalog visits).faults.map (·.1)
      = (visits.map (·.1)).filterMap fun visit => (visit.outcome catalog).fault? := by
  simp [ofVisits, List.map_filterMap, List.filterMap_map, Function.comp_def]

end Ledger

/-! ### One check more or less -/

/-- A pass with placed checks finds what its ledger says. -/
theorem analyze_eq_report (catalog : Catalog) (placed : List (Registration × Nat))
    (unit : SourceUnit) :
    analyze catalog (.ofList (placed.map (·.1))) unit
      = (Ledger.ofVisits catalog (placedSchedule placed unit)).report unit.path := by
  rw [analyze, outcomes_ofList, Ledger.report, Ledger.violations_ofVisits,
    Ledger.faults_ofVisits, placedSchedule_fst, List.flatMap_map, List.filterMap_map]
  rfl

/-- What some of the checks add is what they add when no others are registered. -/
theorem Ledger.keep_of (p : Nat → Bool) (catalog : Catalog) (registrations : List Registration)
    (unit : SourceUnit) :
    (Ledger.of catalog registrations unit).keep p
      = .ofVisits catalog
          (placedSchedule (registrations.zipIdx.filter fun entry => p entry.2) unit) := by
  rw [Ledger.of, keep_ofVisits, placedSchedule_filter]

section

variable (before after : List Registration) (check : Registration)

/-- The place of a check is the number of checks before it, and no other check has it. -/
theorem zipIdx_insert :
    (before ++ check :: after).zipIdx
        = before.zipIdx ++ (check, before.length) :: after.zipIdx (before.length + 1)
      ∧ (∀ entry ∈ before.zipIdx, entry.2 ≠ before.length)
      ∧ ∀ entry ∈ after.zipIdx (before.length + 1), entry.2 ≠ before.length := by
  refine ⟨?_, ?_, ?_⟩
  · rw [List.zipIdx_append, List.zipIdx_cons, Nat.zero_add]
  · intro entry hentry
    have hlt := (List.mem_zipIdx hentry).2.1
    omega
  · intro entry hentry
    have hle := (List.mem_zipIdx hentry).1
    omega

theorem Ledger.only_of (catalog : Catalog) (unit : SourceUnit) :
    (Ledger.of catalog (before ++ check :: after) unit).only before.length
      = .ofVisits catalog (placedSchedule [(check, before.length)] unit) := by
  obtain ⟨hplaces, hbefore, hafter⟩ := zipIdx_insert before after check
  rw [only, keep_of, hplaces, List.filter_append, List.filter_cons_of_pos (by simp),
    List.filter_eq_nil_iff.mpr (by simpa using hbefore),
    List.filter_eq_nil_iff.mpr (by simpa using hafter)]
  rfl

theorem Ledger.without_of (catalog : Catalog) (unit : SourceUnit) :
    (Ledger.of catalog (before ++ check :: after) unit).without before.length
      = .ofVisits catalog
          (placedSchedule (before.zipIdx ++ after.zipIdx (before.length + 1)) unit) := by
  obtain ⟨hplaces, hbefore, hafter⟩ := zipIdx_insert before after check
  rw [without, keep_of, hplaces, List.filter_append, List.filter_cons_of_neg (by simp),
    List.filter_eq_self.mpr (by simpa using hbefore),
    List.filter_eq_self.mpr (by simpa using hafter)]

end

/-- **A check is isolated from the others**: for any checks before and behind it, the report of
a pass with the check is what the ledger says, and less the items that the check added it is the
report of the pass without it. What the check added are the reports of its own visits that the
catalog knows, also of those that fail, and one fault for each visit that fails. -/
theorem analyze_isolates (catalog : Catalog) (before after : List Registration)
    (check : Registration) (unit : SourceUnit) :
    let ledger := Ledger.of catalog (before ++ check :: after) unit
    let added := (ledger.only before.length).report unit.path
    let own := schedule [check] unit
    analyze catalog (.ofList (before ++ check :: after)) unit = ledger.report unit.path
      ∧ analyze catalog (.ofList (before ++ after)) unit
        = (ledger.without before.length).report unit.path
      ∧ (∀ visit ∈ own, visit.check = check)
      ∧ added.violations = own.flatMap (fun visit =>
          ((visit.action.attempts catalog).filter (catalog.contains ·.rule)).map (·.violation))
      ∧ added.faults = own.filterMap fun visit =>
          (visit.action.failure? catalog).map fun failure =>
            ⟨check.name, visit.position, failure.message⟩ := by
  intro ledger added own
  have hvisits : (placedSchedule [(check, before.length)] unit).map (·.1) = own :=
    placedSchedule_fst _ unit
  refine ⟨?_, ?_, fun visit => check_of_mem_schedule, ?_, ?_⟩
  · have h := analyze_eq_report catalog (before ++ check :: after).zipIdx unit
    rwa [List.zipIdx_map_fst] at h
  · -- Without the check the places have a gap, which the report does not show.
    rw [Ledger.without_of, ← analyze_eq_report, List.map_append, List.zipIdx_map_fst,
      List.zipIdx_map_fst]
  · show (ledger.only before.length).violations.map (·.1) = _
    rw [Ledger.only_of, Ledger.violations_ofVisits, hvisits]
    simp only [CheckVisit.violations_outcome]
  · show (ledger.only before.length).faults.map (·.1) = _
    rw [Ledger.only_of, Ledger.faults_ofVisits, hvisits]
    refine List.filterMap_congr fun visit hvisit => ?_
    rw [CheckVisit.fault?_outcome, check_of_mem_schedule hvisit]

end PyStyle
