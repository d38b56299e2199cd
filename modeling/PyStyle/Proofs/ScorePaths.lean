import Mathlib.Algebra.Order.Ring.Nat
import PyStyle.Complexity

/-!
# The score as a sum over trails

A score is computed by a recursion that hands a nesting level down the tree. It can be read off
each node by itself, from the trail that leads to it:

- `Occurrence` — a node together with its trail, the ancestors and where the trail leaves them;
- `Occurrence.level` — how deep the node is nested;
- `Occurrence.own`, `Occurrence.edge` — what the node adds by itself, and what it adds as a clause
  of a `try`;
- `charges` — what nodes add together, without those inside a boolean chain;
- `charges_occurrences` — the nodes of a tree add what the recursion computes at their level;
- `score_eq_sum` — a score is the sum over all nodes.
-/

namespace PyStyle

/-- A way down a tree: each ancestor and the place of the child through which it is left,
outermost first. -/
abbrev Trail := List (Node × Nat)

/-- A node where it occurs. -/
structure Occurrence where
  /-- The proper ancestors of the node. -/
  trail : Trail
  node : Node

mutual

/-- The node behind a trail and its descendants, each with its own trail. -/
def Node.occurrences (trail : Trail) : Node → List Occurrence
  | node@⟨_, _, _, children⟩ => ⟨trail, node⟩ :: Node.occurrencesFrom trail node 0 children

/-- The children of `parent` from a place on and their descendants. -/
def Node.occurrencesFrom (trail : Trail) (parent : Node) (place : Nat) :
    List Node → List Occurrence
  | [] => []
  | child :: rest =>
    child.occurrences (trail ++ [(parent, place)])
      ++ Node.occurrencesFrom trail parent (place + 1) rest

end

/-! ### What a node adds -/

/-- Does what stands in a node of this kind lie one level deeper? -/
def NodeKind.nests : NodeKind → Bool
  | .ifStmt | .forLoop | .asyncForLoop | .whileLoop | .ifExpr
  | .functionDef | .asyncFunctionDef | .lambda => true
  | _ => false

/-- Does the trail leave a `try` through a child other than the protected body? -/
def leavesByClause (step : Node × Nat) : Bool :=
  step.1.kind == .tryStmt && step.2 != 0

/-- The nesting level at the end of a trail: the ancestors that nest, and those left through a
clause of a `try`. -/
def Trail.level (trail : Trail) : Nat :=
  trail.countP (·.1.kind.nests) + trail.countP leavesByClause

/-- No ancestor is a boolean chain. -/
def Trail.Open (trail : Trail) : Prop :=
  ∀ step ∈ trail, step.1.kind ≠ .boolOp

instance (trail : Trail) : Decidable trail.Open :=
  inferInstanceAs (Decidable (∀ step ∈ trail, step.1.kind ≠ .boolOp))

namespace Occurrence

/-- The nesting level of the node. -/
def level (o : Occurrence) : Nat :=
  o.trail.level

/-- What the node adds by itself. -/
def own (o : Occurrence) : Nat :=
  match o.node.kind with
  | .ifStmt | .forLoop | .asyncForLoop | .whileLoop | .ifExpr => o.level + 1
  | .breakStmt | .continueStmt | .raiseStmt => max 1 o.level
  | .boolOp => max 1 o.level * (o.node.occurrences []).countP (·.node.kind == .boolOp)
  | _ => 0

/-- What the node adds if it is a clause of a `try`, a child other than the first. -/
def edge (o : Occurrence) : Nat :=
  if o.trail.getLast?.any leavesByClause then o.level else 0

end Occurrence

/-- What nodes add together; those inside a boolean chain were counted with it. -/
def charges (occurrences : List Occurrence) : Nat :=
  ((occurrences.filter (·.trail.Open)).map fun o => o.own + o.edge).sum

theorem charges_append (xs ys : List Occurrence) :
    charges (xs ++ ys) = charges xs + charges ys := by
  simp [charges]

theorem charges_cons_of_open {o : Occurrence} (ho : o.trail.Open) (os : List Occurrence) :
    charges (o :: os) = o.own + o.edge + charges os := by
  simp [charges, ho]

/-! ### Trails -/

mutual

/-- Each node occurs once, and in pre-order. -/
theorem Node.map_node_occurrences (trail : Trail) :
    (node : Node) → (node.occurrences trail).map (·.node) = node.preorder
  | ⟨_, _, _, children⟩ => by
    rw [Node.occurrences, Node.preorder, List.map_cons,
      Node.map_node_occurrencesFrom trail _ 0 children]

theorem Node.map_node_occurrencesFrom (trail : Trail) (parent : Node) (place : Nat) :
    (children : List Node) →
      (Node.occurrencesFrom trail parent place children).map (·.node)
        = Node.preorderAll children
  | [] => by rw [Node.occurrencesFrom, Node.preorderAll, List.map_nil]
  | child :: rest => by
    rw [Node.occurrencesFrom, Node.preorderAll, List.map_append,
      Node.map_node_occurrences _ child, Node.map_node_occurrencesFrom trail parent _ rest]

end

mutual

/-- What occurs below a trail has a trail that starts with it. -/
theorem Node.prefix_of_mem_occurrences (trail : Trail) :
    (node : Node) → ∀ o ∈ node.occurrences trail, trail <+: o.trail
  | ⟨_, _, _, children⟩ => by
    intro o ho
    rw [Node.occurrences] at ho
    rcases List.mem_cons.mp ho with rfl | ho
    · exact List.prefix_refl _
    · obtain ⟨place, hplace⟩ := Node.prefix_of_mem_occurrencesFrom trail _ 0 children o ho
      exact (List.prefix_append _ _).trans hplace

theorem Node.prefix_of_mem_occurrencesFrom (trail : Trail) (parent : Node) (place : Nat) :
    (children : List Node) → ∀ o ∈ Node.occurrencesFrom trail parent place children,
      ∃ i, trail ++ [(parent, i)] <+: o.trail
  | [] => by
    intro o ho
    rw [Node.occurrencesFrom] at ho
    cases ho
  | child :: rest => by
    intro o ho
    rw [Node.occurrencesFrom] at ho
    rcases List.mem_append.mp ho with ho | ho
    · exact ⟨place, Node.prefix_of_mem_occurrences _ child o ho⟩
    · exact Node.prefix_of_mem_occurrencesFrom trail parent _ rest o ho

end

/-- Nothing below a boolean chain adds anything. -/
theorem charges_below_boolOp (trail : Trail) (parent : Node) (place : Nat) (children : List Node)
    (hkind : parent.kind = .boolOp) :
    charges (Node.occurrencesFrom trail parent place children) = 0 := by
  have hnone : (Node.occurrencesFrom trail parent place children).filter (·.trail.Open) = [] := by
    refine List.filter_eq_nil_iff.mpr fun o ho => ?_
    obtain ⟨i, hi⟩ := Node.prefix_of_mem_occurrencesFrom trail parent place children o ho
    have hmem : (parent, i) ∈ o.trail := hi.subset (by simp)
    simp only [decide_eq_true_eq]
    intro hopen
    exact hopen (parent, i) hmem hkind
  rw [charges, hnone]
  rfl

theorem innerLevel_eq (kind : NodeKind) (level : Nat) :
    innerLevel kind level = level + if kind.nests then 1 else 0 := by
  cases kind <;> rfl

/-- One step further down, the level is the one that the recursion hands down. -/
theorem Trail.level_concat (trail : Trail) (parent : Node) (place : Nat) :
    Trail.level (trail ++ [(parent, place)])
      = if leavesByClause (parent, place) then trail.level + 1
        else innerLevel parent.kind trail.level := by
  rw [innerLevel_eq, Trail.level, Trail.level, List.countP_append, List.countP_append,
    List.countP_singleton, List.countP_singleton]
  dsimp only
  by_cases hclause : leavesByClause (parent, place)
  · -- A `try` does not nest by itself, so only the clause counts.
    have htry : parent.kind = .tryStmt ∧ place ≠ 0 := by simpa [leavesByClause] using hclause
    have hnests : parent.kind.nests = false := by rw [htry.1]; rfl
    rw [if_pos hclause, if_pos hclause, hnests, if_neg Bool.false_ne_true]
    omega
  · rw [if_neg hclause, if_neg hclause]
    omega

theorem edge_concat (trail : Trail) (parent : Node) (place : Nat) (node : Node) :
    Occurrence.edge ⟨trail ++ [(parent, place)], node⟩
      = if leavesByClause (parent, place) then trail.level + 1 else 0 := by
  rw [Occurrence.edge, Occurrence.level, List.getLast?_concat, Trail.level_concat]
  cases hclause : leavesByClause (parent, place) <;> simp [hclause]

/-- Below a node that is no boolean chain a trail stays open. -/
theorem Trail.Open.concat {trail : Trail} (h : trail.Open) {parent : Node} (place : Nat)
    (hkind : parent.kind ≠ .boolOp) : Trail.Open (trail ++ [(parent, place)]) := by
  intro step hstep
  rcases List.mem_append.mp hstep with hstep | hstep
  · exact h step hstep
  · rw [List.mem_singleton.mp hstep]
    exact hkind

/-! ### The recursion adds up the charges -/

theorem own_of_ne_boolOp {o : Occurrence} (h : o.node.kind ≠ .boolOp) :
    o.own = ownScore o.node.kind o.level := by
  unfold Occurrence.own ownScore
  cases hkind : o.node.kind <;> simp_all [Nat.max_comm]

theorem countBoolOps_eq (node : Node) :
    countBoolOps node = (node.occurrences []).countP (·.node.kind == .boolOp) := by
  rw [countBoolOps, node.walk_eq_preorder, ← Node.map_node_occurrences [] node,
    ← List.countP_eq_length_filter, List.countP_map]
  rfl

/-- What the children of a node from a place on score, each at the level behind its trail and
with what it adds as a clause. -/
def scoreFrom (trail : Trail) (parent : Node) (place : Nat) : List Node → Nat
  | [] => 0
  | child :: rest =>
    Occurrence.edge ⟨trail ++ [(parent, place)], child⟩
      + scoreNode (Trail.level (trail ++ [(parent, place)])) child
      + scoreFrom trail parent (place + 1) rest

theorem scoreFrom_eq_scoreAll (trail : Trail) {parent : Node} (place : Nat) (children : List Node)
    (hkind : parent.kind ≠ .tryStmt) :
    scoreFrom trail parent place children
      = scoreAll (innerLevel parent.kind trail.level) children := by
  have hstep : ∀ i, leavesByClause (parent, i) = false := by
    intro i
    simp [leavesByClause, hkind]
  induction children generalizing place with
  | nil => rw [scoreFrom, scoreAll]
  | cons child rest ih => simp [scoreFrom, scoreAll, ih, edge_concat, Trail.level_concat, hstep]

theorem scoreFrom_eq_scoreClauses (trail : Trail) {parent : Node} (place : Nat)
    (children : List Node) (hkind : parent.kind = .tryStmt) :
    scoreFrom trail parent (place + 1) children = scoreClauses (trail.level + 1) children := by
  have hstep : ∀ i, leavesByClause (parent, i + 1) = true := by
    intro i
    simp [leavesByClause, hkind]
  induction children generalizing place with
  | nil => rw [scoreFrom, scoreClauses]
  | cons child rest ih =>
    simp [scoreFrom, scoreClauses, ih, edge_concat, Trail.level_concat, hstep]

theorem scoreFrom_eq_scoreTry (trail : Trail) {parent : Node} (children : List Node)
    (hkind : parent.kind = .tryStmt) :
    scoreFrom trail parent 0 children = scoreTry trail.level children := by
  cases children with
  | nil => rw [scoreFrom, scoreTry]
  | cons body clauses =>
    have hbody : leavesByClause (parent, 0) = false := by simp [leavesByClause]
    rw [scoreFrom, scoreTry, scoreFrom_eq_scoreClauses trail 0 clauses hkind, edge_concat,
      Trail.level_concat, hbody, hkind]
    simp [innerLevel]

mutual

/-- **The nodes of a tree add what the recursion computes** at the level behind their trail, and
what the root of the tree adds as a clause. -/
theorem charges_occurrences (trail : Trail) (hopen : trail.Open) :
    (node : Node) → charges (node.occurrences trail)
      = Occurrence.edge ⟨trail, node⟩ + scoreNode trail.level node
  | ⟨kind, name, position, children⟩ => by
    rw [Node.occurrences, charges_cons_of_open hopen, scoreNode]
    by_cases hbool : kind = .boolOp
    · -- A boolean chain adds all chains below it at once, and they add nothing.
      rw [charges_below_boolOp _ _ _ _ hbool, if_pos hbool, countBoolOps_eq]
      subst hbool
      simp only [Occurrence.own, Occurrence.level]
      rw [Nat.mul_comm, Nat.max_comm]
      omega
    -- Any other node leaves the trail open, so its children are charged one by one.
    rw [if_neg hbool, charges_occurrencesFrom trail hopen _ hbool 0 children,
      own_of_ne_boolOp hbool]
    by_cases htry : kind = .tryStmt
    · rw [if_pos htry, scoreFrom_eq_scoreTry trail children htry]
      subst htry
      simp only [ownScore]
      omega
    · rw [if_neg htry, scoreFrom_eq_scoreAll trail 0 children htry]
      simp only [Occurrence.level]
      omega

theorem charges_occurrencesFrom (trail : Trail) (hopen : trail.Open) (parent : Node)
    (hkind : parent.kind ≠ .boolOp) (place : Nat) :
    (children : List Node) → charges (Node.occurrencesFrom trail parent place children)
      = scoreFrom trail parent place children
  | [] => by
    rw [Node.occurrencesFrom, scoreFrom]
    rfl
  | child :: rest => by
    rw [Node.occurrencesFrom, charges_append, scoreFrom,
      charges_occurrences _ (hopen.concat place hkind) child,
      charges_occurrencesFrom trail hopen parent hkind (place + 1) rest]

end

/-- **A score is a sum over all nodes**: each node outside of boolean chains adds what its own
trail makes it add. -/
theorem score_eq_sum (body : List Node) :
    score body
      = (((body.flatMap (·.occurrences [])).filter (·.trail.Open)).map
          fun o => o.own + o.edge).sum := by
  show scoreAll 0 body = charges (body.flatMap (·.occurrences []))
  induction body with
  | nil =>
    rw [scoreAll, List.flatMap_nil]
    rfl
  | cons node rest ih =>
    have hopen : Trail.Open [] := fun step hstep => nomatch hstep
    have hroot : Occurrence.edge ⟨[], node⟩ = 0 := rfl
    rw [scoreAll, ih, List.flatMap_cons, charges_append, charges_occurrences [] hopen node, hroot,
      Nat.zero_add]
    rfl

/-- A `raise` in a handler below an `if`: the `if` adds one, and at level two the handler and the
`raise` add two each. -/
example :
    let plain := fun kind => Node.plain kind ⟨1, 0⟩
    let handled := plain .tryStmt [plain .block [], plain .exceptHandler [plain .raiseStmt []]]
    charges ((plain .ifStmt [handled]).occurrences []) = 1 + 2 + 2 := by
  decide

end PyStyle
