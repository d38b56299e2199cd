import PyStyle.Catalog
import PyStyle.Node
import PyStyle.Roster
import PyStyle.Token

/-!
# Checks

A check declares which kinds of nodes or tokens it wants to see and says, for each one
it is shown, what it does: report violations one after the other, and perhaps fail. What
it does is data, so a pass can run it against any catalog and keep what was reported
before a failure.

- `Action` — what a check does on one element;
- `Failure` — why a check did not finish with an element;
- `Action.run` — the violations an action adds under a catalog, and its failure;
- `NodeCheck`, `TokenCheck` — the two sorts of checks;
- `Registration` — a check of either sort that is to be registered;
- `Registry` — checks in the order of their registration, with routes from the kinds of
  elements to the checks that want to see them.
-/

namespace PyStyle

/-- Why a check did not finish with an element. -/
inductive Failure where
  /-- It reported a rule that is not in the catalog. -/
  | unregistered (code : Nat) (name : String)
  /-- The element is not what the check can handle. -/
  | malformed (position : Position) (reason : String)
  | failed (reason : String)
  /-- It broke down, with a word on why if there is one. -/
  | crashed (reason : Option String)
deriving DecidableEq, Repr

namespace Failure

/-- The failure in words. -/
def message : Failure → String
  | unregistered code name =>
    "violation " ++ name ++ " (" ++ toString code ++ ") is not in the catalog"
  | malformed position reason => "unexpected input at " ++ position.display ++ ": " ++ reason
  | failed reason => reason
  | crashed reason => "panicked: " ++ reason.getD "unknown panic"

end Failure

/-- What a check does on one element. Reporting tells the check whether the rule was in
the catalog, and it goes on as it sees fit. -/
inductive Action where
  | done
  | fail (failure : Failure)
  | report (rule : Rule) (argument : Option String) (position : Position)
      (next : Bool → Action)

namespace Action

/-- Report a violation and go on; a rule that is not in the catalog is a failure. -/
def require (rule : Rule) (argument : Option String) (position : Position) (next : Action) :
    Action :=
  .report rule argument position fun registered =>
    if registered then next else .fail (.unregistered rule.code rule.name)

/-- The violations an action adds, in order, and the failure it ends with, if any. A rule
that is not in the catalog adds nothing. -/
def run (catalog : Catalog) : Action → List Violation × Option Failure
  | .done => ([], none)
  | .fail failure => ([], some failure)
  | .report rule argument position next =>
    if catalog.contains rule then
      let (violations, failure) := (next true).run catalog
      (Violation.of rule position argument :: violations, failure)
    else (next false).run catalog

end Action

/-! ### What a check is shown -/

/-- A node with its surroundings. -/
structure NodeVisit where
  /-- The path of the unit. -/
  path : String
  node : Node
  /-- The ancestors of the node, outermost first. -/
  parents : List Node

namespace NodeVisit

/-- The node directly above. -/
def parent? (visit : NodeVisit) : Option Node :=
  visit.parents.getLast?

/-- The node above the parent. -/
def grandparent? (visit : NodeVisit) : Option Node :=
  visit.parents.dropLast.getLast?

end NodeVisit

/-- A token with its surroundings. -/
structure TokenVisit where
  /-- The path of the unit. -/
  path : String
  /-- The tokens before it, the nearest first. -/
  before : List Token
  token : Token
  /-- The tokens behind it, the nearest first. -/
  after : List Token

/-- A check that visits nodes. -/
structure NodeCheck where
  name : String
  kinds : List NodeKind
  visit : NodeVisit → Action

/-- A check that visits tokens. -/
structure TokenCheck where
  name : String
  kinds : List TokenKind
  visit : TokenVisit → Action

/-- A check to be registered. -/
inductive Registration where
  | node (check : NodeCheck)
  | token (check : TokenCheck)

/-- The checks of a pass, in the order of their registration. -/
structure Registry where
  nodes : Roster NodeKind NodeCheck
  tokens : Roster TokenKind TokenCheck

namespace Registry

/-- No checks. -/
def empty : Registry :=
  { nodes := .empty, tokens := .empty }

/-- One more check that visits nodes. -/
def withNodeCheck (registry : Registry) (check : NodeCheck) : Registry :=
  { registry with nodes := registry.nodes.add check.kinds check }

/-- One more check that visits tokens. -/
def withTokenCheck (registry : Registry) (check : TokenCheck) : Registry :=
  { registry with tokens := registry.tokens.add check.kinds check }

/-- One more check of either sort. -/
def register (registry : Registry) : Registration → Registry
  | .node check => registry.withNodeCheck check
  | .token check => registry.withTokenCheck check

/-- The registry that a sequence of registrations builds. -/
def ofList (registrations : List Registration) : Registry :=
  registrations.foldl register empty

/-- All checks that visit nodes. -/
def nodeChecks (registry : Registry) : List NodeCheck :=
  registry.nodes.members

/-- All checks that visit tokens. -/
def tokenChecks (registry : Registry) : List TokenCheck :=
  registry.tokens.members

/-- The checks that want to see nodes of a kind. -/
def nodeChecksFor (registry : Registry) (kind : NodeKind) : List NodeCheck :=
  registry.nodes.membersFor kind

/-- The checks that want to see tokens of a kind. -/
def tokenChecksFor (registry : Registry) (kind : TokenKind) : List TokenCheck :=
  registry.tokens.membersFor kind

/-- The names of all checks: first those that visit nodes, then those that visit tokens. -/
def names (registry : Registry) : List String :=
  registry.nodeChecks.map (·.name) ++ registry.tokenChecks.map (·.name)

/-- The number of checks. -/
def size (registry : Registry) : Nat :=
  registry.nodeChecks.length + registry.tokenChecks.length

end Registry

end PyStyle
