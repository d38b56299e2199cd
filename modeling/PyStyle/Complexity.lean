import PyStyle.Node

/-!
# Cognitive complexity

What breaks the straight flow of a program (branches, loops, jumps) scores, and it
scores more the deeper it is nested. Functions inside functions and lambdas nest without
scoring. A chain of boolean operators scores once, weighted by its nesting.

- `scoreNode`, `score` — the score of a node at a nesting level, and of statements;
- `countBoolOps` — the boolean chains of a subtree;
- `isRecursive` — does a function call itself?
- `cognitiveScore` — the score of a function.
-/

namespace PyStyle

/-- The number of boolean chains in the subtree of a node. -/
def countBoolOps (node : Node) : Nat :=
  (node.walk.filter (·.kind == .boolOp)).length

/-- What a node of this kind scores by itself at a nesting level. -/
def ownScore (kind : NodeKind) (level : Nat) : Nat :=
  match kind with
  | .breakStmt | .continueStmt | .raiseStmt => max level 1
  | .ifStmt | .forLoop | .asyncForLoop | .whileLoop | .ifExpr => level + 1
  | _ => 0

/-- The nesting level inside a node of this kind. -/
def innerLevel (kind : NodeKind) (level : Nat) : Nat :=
  match kind with
  | .ifStmt | .forLoop | .asyncForLoop | .whileLoop | .ifExpr
  | .functionDef | .asyncFunctionDef | .lambda => level + 1
  | _ => level

mutual

/-- The score of a node at a nesting level. The chains below a boolean chain are counted
with it. -/
def scoreNode (level : Nat) : Node → Nat
  | node@⟨kind, _, _, children⟩ =>
    if kind = .boolOp then countBoolOps node * max level 1
    else if kind = .tryStmt then scoreTry level children
    else ownScore kind level + scoreAll (innerLevel kind level) children

/-- The score of nodes side by side. -/
def scoreAll (level : Nat) : List Node → Nat
  | [] => 0
  | node :: rest => scoreNode level node + scoreAll level rest

/-- The score of what stands in a `try`: the protected body stays at its level. -/
def scoreTry (level : Nat) : List Node → Nat
  | [] => 0
  | body :: clauses => scoreNode level body + scoreClauses (level + 1) clauses

/-- The score of the clauses behind a protected body: each scores its level and what is
in it. -/
def scoreClauses (level : Nat) : List Node → Nat
  | [] => 0
  | clause :: rest => max level 1 + scoreNode level clause + scoreClauses level rest

end

/-- The score of statements outside everything. -/
def score (body : List Node) : Nat :=
  scoreAll 0 body

/-- Does a function call itself? A method does so through `self`, too. -/
def isRecursive (function : Node) (isMethod : Bool) : Bool :=
  match function.name with
  | none => false
  | some name =>
    ((function.walk.filter (·.kind == .call)).filterMap (·.name)).any fun callee =>
      callee == name || (isMethod && callee == "self." ++ name)

/-- The score of a function: that of its body, and one more if it calls itself. -/
def cognitiveScore (function : Node) (isMethod : Bool) : Nat :=
  score function.body + if isRecursive function isMethod then 1 else 0

end PyStyle
