import PyStyle.Proofs.ScorePaths

/-!
# More nesting and more code score more

Moving a node deeper never lowers its score, and neither does adding a subtree anywhere. The second
is not plain from the recursion: what is removed can be the protected body of a `try`, so that the
clause behind it takes its place, or stand in a boolean chain, which is counted and not entered.

- `Node.Prunes` — one subtree is removed, at any depth;
- `scoreNode_mono` — a deeper node scores no less;
- `scoreTry_le_scoreClauses` — a clause that becomes a protected body scores no more;
- `Shrinks` — what a list of siblings scores in every role that it can have;
- `shrinks_of_prunes` — a list without a subtree shrinks, by induction on where it was;
- `score_monotone` — the three laws together.
-/

namespace PyStyle

/-- The second list of trees is the first one without one subtree. -/
inductive Node.Prunes : List Node → List Node → Prop
  /-- A whole tree of the list. -/
  | drop (node : Node) (rest : List Node) : Prunes (node :: rest) rest
  /-- A subtree of the first tree. -/
  | inside (node : Node) (rest : List Node) {children : List Node}
      (h : Prunes node.children children) :
      Prunes (node :: rest) ({ node with children } :: rest)
  /-- A subtree of one of the other trees. -/
  | later (node : Node) {rest rest' : List Node} (h : Prunes rest rest') :
      Prunes (node :: rest) (node :: rest')

/-! ### Deeper levels -/

theorem ownScore_mono (kind : NodeKind) {i j : Nat} (h : i ≤ j) :
    ownScore kind i ≤ ownScore kind j := by
  cases kind <;> simp only [ownScore] <;> omega

/-- How much deeper it is inside a node depends on its kind alone. -/
theorem innerLevel_mono (kind : NodeKind) {i j : Nat} (h : i ≤ j) :
    innerLevel kind i ≤ innerLevel kind j := by
  rw [innerLevel_eq, innerLevel_eq]
  exact Nat.add_le_add_right h _

mutual

/-- **A deeper node scores no less.** -/
theorem scoreNode_mono {i j : Nat} (h : i ≤ j) : (node : Node) → scoreNode i node ≤ scoreNode j node
  | ⟨kind, name, position, children⟩ => by
    rw [scoreNode, scoreNode]
    split
    · exact Nat.mul_le_mul_left _ (by omega)
    · split
      · exact scoreTry_mono h children
      · have hown := ownScore_mono kind h
        have hchildren := scoreAll_mono (innerLevel_mono kind h) children
        omega

theorem scoreAll_mono {i j : Nat} (h : i ≤ j) :
    (nodes : List Node) → scoreAll i nodes ≤ scoreAll j nodes
  | [] => Nat.le_of_eq (by rw [scoreAll, scoreAll])
  | node :: rest => by
    have hnode := scoreNode_mono h node
    have hrest := scoreAll_mono h rest
    rw [scoreAll, scoreAll]
    omega

theorem scoreTry_mono {i j : Nat} (h : i ≤ j) :
    (nodes : List Node) → scoreTry i nodes ≤ scoreTry j nodes
  | [] => Nat.le_of_eq (by rw [scoreTry, scoreTry])
  | body :: clauses => by
    have hbody := scoreNode_mono h body
    have hclauses := scoreClauses_mono (Nat.add_le_add_right h 1) clauses
    rw [scoreTry, scoreTry]
    omega

theorem scoreClauses_mono {i j : Nat} (h : i ≤ j) :
    (nodes : List Node) → scoreClauses i nodes ≤ scoreClauses j nodes
  | [] => Nat.le_of_eq (by rw [scoreClauses, scoreClauses])
  | clause :: rest => by
    have hclause := scoreNode_mono h clause
    have hrest := scoreClauses_mono h rest
    rw [scoreClauses, scoreClauses]
    omega

end

/-! ### Less code -/

/-- A clause that becomes a protected body leaves its level and is no longer charged for it. -/
theorem scoreTry_le_scoreClauses (level : Nat) (nodes : List Node) :
    scoreTry level nodes ≤ scoreClauses (level + 1) nodes := by
  cases nodes with
  | nil => exact Nat.le_of_eq (by rw [scoreTry, scoreClauses])
  | cons body clauses =>
    have hbody := scoreNode_mono (Nat.le_add_right level 1) body
    rw [scoreTry, scoreClauses]
    omega

/-- The boolean chains in a list of trees. -/
def boolOpsIn (nodes : List Node) : Nat :=
  (Node.preorderAll nodes).countP (·.kind == .boolOp)

theorem boolOpsIn_cons (node : Node) (rest : List Node) :
    boolOpsIn (node :: rest) = countBoolOps node + boolOpsIn rest := by
  rw [boolOpsIn, Node.preorderAll, List.countP_append, countBoolOps, node.walk_eq_preorder,
    List.countP_eq_length_filter]
  rfl

/-- The boolean chains of a tree are those below it, and perhaps the tree itself. -/
theorem countBoolOps_eq_boolOpsIn (node : Node) :
    countBoolOps node = boolOpsIn node.children + if node.kind == .boolOp then 1 else 0 := by
  rw [countBoolOps, node.walk_eq_preorder, node.preorder_eq, ← List.countP_eq_length_filter,
    List.countP_cons, boolOpsIn]

/-- The second list scores no more than the first one wherever a list of siblings can stand: side
by side, in a `try`, behind its protected body, and in a boolean chain. -/
structure Shrinks (nodes nodes' : List Node) : Prop where
  all : ∀ level, scoreAll level nodes' ≤ scoreAll level nodes
  body : ∀ level, scoreTry level nodes' ≤ scoreTry level nodes
  clauses : ∀ level, scoreClauses level nodes' ≤ scoreClauses level nodes
  boolOps : boolOpsIn nodes' ≤ boolOpsIn nodes

theorem Shrinks.countBoolOps_le {node : Node} {children : List Node}
    (h : Shrinks node.children children) :
    countBoolOps { node with children } ≤ countBoolOps node := by
  rw [countBoolOps_eq_boolOpsIn, countBoolOps_eq_boolOpsIn]
  exact Nat.add_le_add_right h.boolOps _

/-- A node whose children shrink scores no more, whatever its kind. -/
theorem Shrinks.scoreNode_le {node : Node} {children : List Node}
    (h : Shrinks node.children children) (level : Nat) :
    scoreNode level { node with children } ≤ scoreNode level node := by
  have hboolOps := h.countBoolOps_le
  obtain ⟨kind, name, position, old⟩ := node
  rw [scoreNode, scoreNode]
  split
  · exact Nat.mul_le_mul_right _ hboolOps
  · split
    · exact h.body level
    · exact Nat.add_le_add_left (h.all _) _

/-- The step into a node: a node with fewer children in place of the old one. -/
theorem Shrinks.inside {node : Node} {children : List Node} (h : Shrinks node.children children)
    (rest : List Node) : Shrinks (node :: rest) ({ node with children } :: rest) := by
  have hnode := h.scoreNode_le
  have hboolOps := h.countBoolOps_le
  constructor
  · intro level
    have := hnode level
    rw [scoreAll, scoreAll]
    omega
  · intro level
    have := hnode level
    rw [scoreTry, scoreTry]
    omega
  · intro level
    have := hnode level
    rw [scoreClauses, scoreClauses]
    omega
  · rw [boolOpsIn_cons, boolOpsIn_cons]
    omega

/-- The step past a node: what comes behind it shrinks. -/
theorem Shrinks.later {rest rest' : List Node} (h : Shrinks rest rest') (node : Node) :
    Shrinks (node :: rest) (node :: rest') := by
  constructor
  · intro level
    have := h.all level
    rw [scoreAll, scoreAll]
    omega
  · intro level
    have := h.clauses (level + 1)
    rw [scoreTry, scoreTry]
    omega
  · intro level
    have := h.clauses level
    rw [scoreClauses, scoreClauses]
    omega
  · have := h.boolOps
    rw [boolOpsIn_cons, boolOpsIn_cons]
    omega

/-- A list without its first tree. In a `try` the next one becomes the protected body. -/
theorem shrinks_drop (node : Node) (rest : List Node) : Shrinks (node :: rest) rest := by
  constructor
  · intro level
    rw [scoreAll]
    omega
  · -- The first of the rest, if there is one, is promoted to the protected body.
    intro level
    have := scoreTry_le_scoreClauses level rest
    rw [scoreTry]
    omega
  · intro level
    rw [scoreClauses]
    omega
  · rw [boolOpsIn_cons]
    omega

/-- **A list without one of its subtrees shrinks.** -/
theorem shrinks_of_prunes {nodes nodes' : List Node} (h : Node.Prunes nodes nodes') :
    Shrinks nodes nodes' := by
  induction h with
  | drop node rest => exact shrinks_drop node rest
  | inside node rest _ ih => exact ih.inside rest
  | later node _ ih => exact ih.later node

/-! ### More nesting -/

theorem scoreAll_append (level : Nat) (xs ys : List Node) :
    scoreAll level (xs ++ ys) = scoreAll level xs + scoreAll level ys := by
  induction xs with
  | nil => rw [scoreAll, List.nil_append, Nat.zero_add]
  | cons x xs ih =>
    rw [List.cons_append, scoreAll, scoreAll, ih]
    omega

/-- The node is an `if` or a loop around a block of the given statements, and nothing else. -/
structure Node.Wraps (wrapper : Node) (statements : List Node) : Prop where
  kind : wrapper.kind ∈ [.ifStmt, .forLoop, .asyncForLoop, .whileLoop]
  block : ∃ name position, wrapper.children = [⟨.block, name, position, statements⟩]

/-- What is wrapped scores as it does one level deeper, and the wrapper scores its level. -/
theorem scoreNode_wrapper {wrapper : Node} {statements : List Node}
    (h : wrapper.Wraps statements) (level : Nat) :
    scoreNode level wrapper = level + 1 + scoreAll (level + 1) statements := by
  obtain ⟨hkind, name, position, hblock⟩ := h
  obtain ⟨kind, _, _, children⟩ := wrapper
  have hinner : scoreAll (level + 1) children = scoreAll (level + 1) statements := by
    rw [show children = _ from hblock, scoreAll, scoreAll, scoreNode, if_neg (by decide),
      if_neg (by decide)]
    exact Nat.zero_add _
  simp only [List.mem_cons, List.not_mem_nil, or_false] at hkind
  rcases hkind with rfl | rfl | rfl | rfl
  all_goals
    rw [scoreNode, if_neg (by decide), if_neg (by decide)]
    exact congrArg (level + 1 + ·) hinner

/-- Wrapping statements adds what the wrapper scores, and takes nothing away. -/
theorem scoreAll_wrapped {wrapper : Node} {statements : List Node}
    (h : wrapper.Wraps statements) (level : Nat) (front back : List Node) :
    scoreAll level (front ++ statements ++ back) + (level + 1)
      ≤ scoreAll level (front ++ wrapper :: back) := by
  have hdeeper := scoreAll_mono (Nat.le_add_right level 1) statements
  rw [scoreAll_append, scoreAll_append, scoreAll_append, scoreAll, scoreNode_wrapper h]
  omega

/-- **Scores grow with nesting and with code.** A node scores no less on a deeper level; a list of
trees without one of its subtrees, from whatever depth, scores no more; and statements that stand
in a row score at least one more when an `if` or a loop is put around them. -/
theorem score_monotone :
    (∀ (node : Node) (i j : Nat), i ≤ j → scoreNode i node ≤ scoreNode j node)
      ∧ (∀ nodes nodes' : List Node, Node.Prunes nodes nodes' → score nodes' ≤ score nodes)
      ∧ ∀ (front statements back : List Node) (wrapper : Node), wrapper.Wraps statements →
          score (front ++ statements ++ back) + 1 ≤ score (front ++ wrapper :: back) := by
  refine ⟨?_, ?_, ?_⟩
  · intro node i j h
    exact scoreNode_mono h node
  · intro nodes nodes' h
    exact (shrinks_of_prunes h).all 0
  · intro front statements back wrapper h
    exact scoreAll_wrapped h 0 front back

/-- Without its protected body a `try` has its handler in its place, and the `raise` in there moves
one level up. An `if` around the `try` moves all of it one level down. -/
theorem score_monotone_handler :
    let plain := fun kind => Node.plain kind ⟨1, 0⟩
    let handler := plain .exceptHandler [plain .raiseStmt [], plain .breakStmt []]
    let guarded := plain .tryStmt [plain .block [], handler]
    let bare := plain .tryStmt [handler]
    let branch := plain .ifStmt [plain .block [guarded]]
    score [guarded] = 3 ∧ score [bare] = 2 ∧ score [branch] = 7
      ∧ score [bare] ≤ score [guarded] ∧ score [guarded] + 1 ≤ score [branch] := by
  intro plain handler guarded bare branch
  refine ⟨by decide, by decide, by decide, ?_, ?_⟩
  · exact score_monotone.2.1 _ _ (.inside guarded [] (.drop (plain .block []) [handler]))
  · exact score_monotone.2.2 [] [guarded] [] branch ⟨by decide, none, ⟨1, 0⟩, rfl⟩

end PyStyle
