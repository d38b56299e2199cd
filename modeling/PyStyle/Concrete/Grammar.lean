import PyStyle.Concrete.Grammar.Statement

/-!
# The grammar

All rules together, and the concrete syntax tree of a source text.

- `Grammar.rules` — which rule answers which goal;
- `Concrete.parse` — the tree of a text, or where it stops making sense.
-/

namespace PyStyle.Concrete

/-- The rule for each goal. -/
def Grammar.rules : Rules := fun solve goal =>
  match goal with
  | .module => Grammar.module solve
  | .statement => Grammar.compoundStatement solve
  | .suite => Grammar.suite solve
  | .simpleStatements => Grammar.simpleStatements solve
  | .rightHandSide => Grammar.rightHandSide solve
  | .expression strength => Grammar.expression solve strength
  | .comprehended => Grammar.comprehended solve
  | .operand strength => Grammar.operand solve strength
  | .target => Grammar.target solve
  | .targets => Grammar.targets solve
  | .type constrained => Grammar.typeAnnotation solve constrained
  | .casePattern => Grammar.casePattern solve
  | .interpolation => Grammar.interpolation solve

/-- How deep goals may lie inside one another: every few of them take a terminal. -/
def depthFor (terminals : List Terminal) : Nat :=
  8 * terminals.length + 16

/-- The concrete syntax tree of a source text, or the position of the first terminal
that fits nowhere. -/
def parse (source : String) : Except Position Concrete :=
  let terminals := terminals source.toList
  let layout : Layout := { indent := 0, closable := false, lineEnd := false }
  let cursor : Cursor := { ahead := terminals, behind := ⟨1, 0⟩ }
  match Grammar.rules.solve (depthFor terminals) .module layout cursor with
  | .ok (tree, _) =>
    let whole := { tree with stop := (terminals.getLast?.map (·.stop)).getD tree.stop }
    .ok ((terminals.flatMap (·.gap.continuations)).foldl (fun c p => c.insertContinuation p) whole)
  | .error p => .error p

end PyStyle.Concrete
