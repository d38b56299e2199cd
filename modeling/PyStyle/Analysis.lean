import PyStyle.Check
import PyStyle.SourceUnit

/-!
# Analysing a unit

One pass over the tree, parents before children, then one over the tokens from left to
right. Every element is shown to every check that wants its kind, in the order of
registration. A check that fails leaves a fault and the pass goes on.

- `nodeVisits`, `tokenVisits` — the elements of a unit with their surroundings, in the
  order of the pass;
- `Outcome` — what one check did on one element;
- `UnitReport` — what a pass found;
- `analyze` — the pass.
-/

namespace PyStyle

/-- A check that failed on one element. -/
structure Fault where
  check : String
  position : Position
  message : String
deriving DecidableEq, Repr, Inhabited

/-- What was found in one unit. -/
structure UnitReport where
  path : String
  /-- Violations in the order in which they were reported. -/
  violations : List Violation
  faults : List Fault
  /-- Violations that a comment silences. -/
  suppressed : List Violation
  /-- How many violations were dropped because their code is ignored. -/
  ignored : Nat
deriving DecidableEq, Repr, Inhabited

namespace UnitReport

/-- Nothing was found. -/
def empty (path : String) : UnitReport :=
  { path, violations := [], faults := [], suppressed := [], ignored := 0 }

/-- Is there neither a violation nor a fault? -/
def isClean (report : UnitReport) : Bool :=
  report.violations.isEmpty && report.faults.isEmpty

end UnitReport

/-! ### The order of the pass -/

/-- The subtrees still to be entered hold so many nodes. -/
def pendingSize (pending : List (Node × Nat)) : Nat :=
  Node.sizeAll (pending.map (·.1))

/-- Subtrees that all have one depth. -/
def atDepth (depth : Nat) (nodes : List Node) : List (Node × Nat) :=
  nodes.map fun node => (node, depth)

theorem map_fst_atDepth (depth : Nat) (nodes : List Node) :
    (atDepth depth nodes).map (·.1) = nodes := by
  simp [atDepth, Function.comp_def]

/-- The visits to come when `pending` are the subtrees still to be entered, each with its
depth, and `parents` is the path to the node visited last. The ancestors of a node at
depth `d` are the first `d` nodes of that path. -/
def nodeVisitsFrom (path : String) (parents : List Node) (pending : List (Node × Nat)) :
    List NodeVisit :=
  match pending with
  | [] => []
  | (node, depth) :: rest =>
    let ancestors := parents.take depth
    ⟨path, node, ancestors⟩ ::
      nodeVisitsFrom path (ancestors ++ [node])
        (atDepth (depth + 1) node.children ++ rest)
termination_by pendingSize pending
decreasing_by
  simp only [pendingSize, List.map_append, map_fst_atDepth, List.map_cons,
    Node.sizeAll_append, Node.sizeAll_cons]
  omega

/-- The nodes of a unit with their ancestors, parents before children. -/
def nodeVisits (unit : SourceUnit) : List NodeVisit :=
  nodeVisitsFrom unit.path [] [(unit.tree, 0)]

/-- The visits to come when `before` are the tokens visited so far, the nearest first. -/
def tokenVisitsFrom (path : String) (before : List Token) : List Token → List TokenVisit
  | [] => []
  | token :: after => ⟨path, before, token, after⟩ :: tokenVisitsFrom path (token :: before) after

/-- The tokens of a unit with their neighbours, from left to right. -/
def tokenVisits (unit : SourceUnit) : List TokenVisit :=
  tokenVisitsFrom unit.path [] unit.tokens

/-! ### The pass -/

/-- What one check did on one element. -/
structure Outcome where
  check : String
  position : Position
  violations : List Violation
  failure : Option Failure

namespace Outcome

/-- The outcome of an action. -/
def of (catalog : Catalog) (check : String) (position : Position) (action : Action) : Outcome :=
  let (violations, failure) := action.run catalog
  { check, position, violations, failure }

/-- The fault a failure leaves. -/
def fault? (outcome : Outcome) : Option Fault :=
  outcome.failure.map fun f => ⟨outcome.check, outcome.position, f.message⟩

end Outcome

/-- What the checks do on one node. -/
def nodeOutcomes (catalog : Catalog) (registry : Registry) (visit : NodeVisit) : List Outcome :=
  (registry.nodeChecksFor visit.node.kind).map fun check =>
    .of catalog check.name visit.node.position (check.visit visit)

/-- What the checks do on one token. -/
def tokenOutcomes (catalog : Catalog) (registry : Registry) (visit : TokenVisit) : List Outcome :=
  (registry.tokenChecksFor visit.token.kind).map fun check =>
    .of catalog check.name visit.token.position (check.visit visit)

/-- Everything the checks do on a unit, in the order of the pass. -/
def outcomes (catalog : Catalog) (registry : Registry) (unit : SourceUnit) : List Outcome :=
  (nodeVisits unit).flatMap (nodeOutcomes catalog registry)
    ++ (tokenVisits unit).flatMap (tokenOutcomes catalog registry)

/-- What the checks find in a unit. -/
def analyze (catalog : Catalog) (registry : Registry) (unit : SourceUnit) : UnitReport :=
  let all := outcomes catalog registry unit
  { UnitReport.empty unit.path with
    violations := all.flatMap (·.violations)
    faults := all.filterMap (·.fault?) }

end PyStyle
