import PyStyle.Proofs.ScorePaths

/-!
# Scores fit into words

A score is a natural number here. Computed with words of 32 bits it is the same number as long as
the tree is neither too large nor too deep:

- `Node.height` — the nodes on the longest way down;
- `scoreNode_add_le` — a node scores at most twice its size times its depth and height together,
  and has its own depth and height left over, to pay for what it adds as a clause;
- `WordArithmetic` — sums and products of words, exact where the exact result is a word;
- `scoreWord`, `cognitiveScoreWord` — the scores computed with words, step by step;
- `Gives` — a computation with words has a result, and it is the word of a number;
- `gives_scoreNodeWord` — if the score of a node is a word, no step on the way to it is too large;
- `score_fits` — the bound, and what it says about scores computed with words.
-/

namespace PyStyle

/-! ### Size and height -/

mutual

/-- The number of nodes on the longest way from the node down to a leaf. -/
def Node.height : Node → Nat
  | ⟨_, _, _, children⟩ => Node.heightAll children + 1

/-- The height of the highest tree of a list. -/
def Node.heightAll : List Node → Nat
  | [] => 0
  | node :: rest => max node.height (Node.heightAll rest)

end

namespace Node

theorem height_eq (node : Node) : node.height = heightAll node.children + 1 := by
  cases node
  rw [height]

theorem le_heightAll_of_mem {nodes : List Node} {node : Node} (h : node ∈ nodes) :
    node.height ≤ heightAll nodes := by
  induction nodes with
  | nil => cases h
  | cons first rest ih =>
    rw [heightAll]
    rcases List.mem_cons.mp h with rfl | hrest
    · exact Nat.le_max_left _ _
    · exact (ih hrest).trans (Nat.le_max_right _ _)

theorem size_le_sizeAll_of_mem {nodes : List Node} {node : Node} (h : node ∈ nodes) :
    node.size ≤ sizeAll nodes := by
  induction nodes with
  | nil => cases h
  | cons first rest ih =>
    rw [sizeAll]
    rcases List.mem_cons.mp h with rfl | hrest
    · exact Nat.le_add_right _ _
    · exact (ih hrest).trans (Nat.le_add_left _ _)

mutual

/-- The size of a tree counts the nodes that come up in it. -/
theorem length_preorder : (node : Node) → node.preorder.length = node.size
  | ⟨_, _, _, children⟩ => by
    rw [preorder, size, List.length_cons, length_preorderAll children]

theorem length_preorderAll : (nodes : List Node) → (preorderAll nodes).length = sizeAll nodes
  | [] => by
    rw [preorderAll, sizeAll]
    rfl
  | node :: rest => by
    rw [preorderAll, sizeAll, List.length_append, length_preorder node, length_preorderAll rest]

end

/-- The first list of trees has no more nodes than the second one, and is no higher. -/
structure NoLarger (nodes nodes' : List Node) : Prop where
  size : sizeAll nodes ≤ sizeAll nodes'
  height : heightAll nodes ≤ heightAll nodes'

theorem NoLarger.trans {xs ys zs : List Node} (h : NoLarger xs ys) (h' : NoLarger ys zs) :
    NoLarger xs zs :=
  ⟨h.size.trans h'.size, h.height.trans h'.height⟩

/-- What stands below a node of a list is no larger than the list. -/
theorem noLarger_children {node : Node} {nodes : List Node} (h : node ∈ nodes) :
    NoLarger node.children nodes := by
  have hsize := size_le_sizeAll_of_mem h
  have hheight := le_heightAll_of_mem h
  rw [size_eq] at hsize
  rw [height_eq] at hheight
  exact ⟨by omega, by omega⟩

mutual

/-- What stands below a node that occurs in a tree is no larger than the children of the tree. -/
theorem noLarger_of_mem_preorder {below : Node} : (node : Node) → below ∈ node.preorder →
    below = node ∨ NoLarger [below] node.children
  | ⟨_, _, _, children⟩ => by
    intro h
    rw [preorder, List.mem_cons] at h
    exact h.imp_right (noLarger_of_mem_preorderAll children)

theorem noLarger_of_mem_preorderAll {below : Node} : (nodes : List Node) →
    below ∈ preorderAll nodes → NoLarger [below] nodes
  | [] => by
    intro h
    rw [preorderAll] at h
    cases h
  | node :: rest => by
    intro h
    rw [preorderAll, List.mem_append] at h
    rcases h with h | h
    · have hnode : NoLarger [below] [node] := by
        rcases noLarger_of_mem_preorder node h with rfl | hchildren
        · exact ⟨Nat.le_refl _, Nat.le_refl _⟩
        · exact hchildren.trans (noLarger_children List.mem_cons_self)
      refine hnode.trans ⟨?_, ?_⟩
      · rw [sizeAll, sizeAll, sizeAll]
        exact Nat.le_add_right _ _
      · rw [heightAll, heightAll, heightAll]
        omega
    · refine (noLarger_of_mem_preorderAll rest h).trans ⟨?_, ?_⟩
      · rw [sizeAll]
        exact Nat.le_add_left _ _
      · rw [heightAll]
        exact Nat.le_max_right _ _

end

/-- The statements of a definition are no more and no higher than the definition. -/
theorem noLarger_body (node : Node) : NoLarger node.body [node] := by
  unfold body
  split
  next block hfind =>
    have hblock : block ∈ node.children := List.mem_reverse.mp (List.mem_of_find?_eq_some hfind)
    exact (noLarger_children hblock).trans (noLarger_children List.mem_cons_self)
  next => exact ⟨by simp, by simp [heightAll]⟩

end Node

open Node (sizeAll heightAll preorderAll)

/-! ### The bound -/

/-- Each boolean chain is a node of the tree. -/
theorem countBoolOps_le_size (node : Node) : countBoolOps node ≤ node.size := by
  rw [countBoolOps, node.walk_eq_preorder, ← node.length_preorder]
  exact List.length_filter_le _ _

/-- A node scores its level and one more, at most. -/
theorem ownScore_le (kind : NodeKind) (level : Nat) : ownScore kind level ≤ level + 1 := by
  cases kind <;> simp only [ownScore] <;> omega

theorem innerLevel_le (kind : NodeKind) (level : Nat) : innerLevel kind level ≤ level + 1 := by
  rw [innerLevel_eq]
  split <;> omega

mutual

/-- **A node pays for its own score.** Where no node lies deeper than `bound`, a node at a level
scores so much less than twice its size times the bound that what it adds as a clause is covered,
too. -/
theorem scoreNode_add_le (level bound : Nat) :
    (node : Node) → level + node.height ≤ bound →
      scoreNode level node + bound ≤ 2 * node.size * bound
  | ⟨kind, name, position, children⟩ => by
    intro h
    rw [Node.height] at h
    rw [scoreNode, Node.size]
    by_cases hbool : kind = .boolOp
    · have hcount := countBoolOps_le_size ⟨kind, name, position, children⟩
      rw [Node.size] at hcount
      have hproduct := Nat.mul_le_mul hcount (show max level 1 ≤ bound by omega)
      rw [if_pos hbool]
      rw [Nat.add_mul] at hproduct
      rw [Nat.mul_add, Nat.add_mul, Nat.mul_assoc]
      omega
    · rw [if_neg hbool]
      have hdouble : 2 * (sizeAll children + 1) * bound
          = 2 * sizeAll children * bound + 2 * bound := by
        rw [Nat.mul_add, Nat.add_mul]
      split
      · have hchildren := scoreTry_le level bound children (by omega)
        omega
      · have hown := ownScore_le kind level
        have hinner := innerLevel_le kind level
        have hchildren := scoreAll_le (innerLevel kind level) bound children (by omega)
        omega

/-- Nodes side by side share the bound: the sizes add up. -/
theorem scoreAll_le (level bound : Nat) :
    (nodes : List Node) → level + heightAll nodes ≤ bound →
      scoreAll level nodes ≤ 2 * sizeAll nodes * bound
  | [] => by
    intro _
    rw [scoreAll]
    exact Nat.zero_le _
  | node :: rest => by
    intro h
    rw [heightAll] at h
    have hnode := scoreNode_add_le level bound node (by omega)
    have hrest := scoreAll_le level bound rest (by omega)
    rw [scoreAll, sizeAll, Nat.mul_add, Nat.add_mul]
    omega

theorem scoreTry_le (level bound : Nat) :
    (nodes : List Node) → level + 1 + heightAll nodes ≤ bound →
      scoreTry level nodes ≤ 2 * sizeAll nodes * bound
  | [] => by
    intro _
    rw [scoreTry]
    exact Nat.zero_le _
  | body :: clauses => by
    intro h
    rw [heightAll] at h
    have hbody := scoreNode_add_le level bound body (by omega)
    have hclauses := scoreClauses_le (level + 1) bound clauses (by omega)
    rw [scoreTry, sizeAll, Nat.mul_add, Nat.add_mul]
    omega

/-- A clause is charged for the level it stands on. What a node leaves of its bound covers that. -/
theorem scoreClauses_le (level bound : Nat) :
    (nodes : List Node) → level + heightAll nodes ≤ bound →
      scoreClauses level nodes ≤ 2 * sizeAll nodes * bound
  | [] => by
    intro _
    rw [scoreClauses]
    exact Nat.zero_le _
  | clause :: rest => by
    intro h
    rw [heightAll] at h
    have hheight := clause.height_eq
    have hclause := scoreNode_add_le level bound clause (by omega)
    have hrest := scoreClauses_le level bound rest (by omega)
    rw [scoreClauses, sizeAll, Nat.mul_add, Nat.add_mul]
    omega

end

/-- **The bound**: a score is at most twice the number of nodes times their height. -/
theorem score_le (nodes : List Node) : score nodes ≤ 2 * sizeAll nodes * heightAll nodes :=
  scoreAll_le 0 _ nodes (Nat.le_of_eq (Nat.zero_add _))

/-! ### Words -/

/-- How words of 32 bits are added and multiplied. A result that is a word is exact; where the exact
result is none, the operation may wrap around, break down or do anything else. -/
structure WordArithmetic where
  add : UInt32 → UInt32 → Option UInt32
  mul : UInt32 → UInt32 → Option UInt32
  add_eq : ∀ a b, a.toNat + b.toNat < 2 ^ 32 → add a b = some (a + b)
  mul_eq : ∀ a b, a.toNat * b.toNat < 2 ^ 32 → mul a b = some (a * b)

namespace WordArithmetic

/-- Operations that break down if their exact result is no word. -/
def checked : WordArithmetic where
  add a b := if a.toNat + b.toNat < 2 ^ 32 then some (a + b) else none
  mul a b := if a.toNat * b.toNat < 2 ^ 32 then some (a * b) else none
  add_eq _ _ h := if_pos h
  mul_eq _ _ h := if_pos h

/-- Operations that drop what does not fit into a word. -/
def wrapping : WordArithmetic where
  add a b := some (a + b)
  mul a b := some (a * b)
  add_eq _ _ _ := rfl
  mul_eq _ _ _ := rfl

end WordArithmetic

/-- The number of boolean chains, cut to a word. -/
def countBoolOpsWord (node : Node) : UInt32 :=
  .ofNat (countBoolOps node)

section Words

variable (arithmetic : WordArithmetic)

/-- The level inside a node of this kind, and what it scores by itself. -/
def enterWord (kind : NodeKind) (level : UInt32) : Option (UInt32 × UInt32) :=
  match kind with
  | .breakStmt | .continueStmt | .raiseStmt => some (level, max level 1)
  | .ifStmt | .forLoop | .asyncForLoop | .whileLoop | .ifExpr => do
    let nested ← arithmetic.add level 1
    some (nested, nested)
  | .functionDef | .asyncFunctionDef | .lambda => do
    let nested ← arithmetic.add level 1
    some (nested, 0)
  | _ => some (level, 0)

mutual

/-- The score of a node at a level. -/
def scoreNodeWord (level : UInt32) : Node → Option UInt32
  | node@⟨kind, _, _, children⟩ =>
    if kind = .boolOp then arithmetic.mul (countBoolOpsWord node) (max level 1)
    else do
      let (inner, own) ← enterWord arithmetic kind level
      let below ←
        (if kind = .tryStmt then scoreTryWord inner children else scoreAllWord inner 0 children)
      arithmetic.add own below

/-- The score of nodes side by side, added to a total. -/
def scoreAllWord (level total : UInt32) : List Node → Option UInt32
  | [] => some total
  | node :: rest => do
    let score ← scoreNodeWord level node
    let total ← arithmetic.add total score
    scoreAllWord level total rest

/-- The score of what stands in a `try`. -/
def scoreTryWord (level : UInt32) : List Node → Option UInt32
  | [] => some 0
  | body :: clauses => do
    let score ← scoreNodeWord level body
    let total ← arithmetic.add 0 score
    scoreClausesWord level total clauses

/-- The score of the clauses of a `try` at a level, added to a total. -/
def scoreClausesWord (level total : UInt32) : List Node → Option UInt32
  | [] => some total
  | clause :: rest => do
    let nested ← arithmetic.add level 1
    let score ← scoreNodeWord nested clause
    let charge ← arithmetic.add (max nested 1) score
    let total ← arithmetic.add total charge
    scoreClausesWord level total rest

end

/-- The score of statements outside everything. -/
def scoreWord (body : List Node) : Option UInt32 :=
  scoreAllWord arithmetic 0 0 body

/-- The score of a function. -/
def cognitiveScoreWord (function : Node) (isMethod : Bool) : Option UInt32 := do
  let total ← scoreWord arithmetic function.body
  if isRecursive function isMethod then arithmetic.add total 1 else some total

end Words

/-! ### No step is too large -/

/-- The computation has a result, and it is the word of the number. -/
def Gives (result : Option UInt32) (number : Nat) : Prop :=
  ∃ word, result = some word ∧ word.toNat = number

theorem gives_some (word : UInt32) : Gives (some word) word.toNat :=
  ⟨word, rfl, rfl⟩

/-- The next step is taken with the word of the number. -/
theorem Gives.bind {result : Option UInt32} {next : UInt32 → Option UInt32} {m n : Nat}
    (h : Gives result m) (hnext : ∀ word, word.toNat = m → Gives (next word) n) :
    Gives (result >>= next) n := by
  obtain ⟨word, rfl, hword⟩ := h
  exact hnext word hword

theorem toNat_max_one (word : UInt32) : (max word 1).toNat = max word.toNat 1 := by
  rw [show max word 1 = if word ≤ 1 then 1 else word from rfl]
  split
  next h =>
    have hle : word.toNat ≤ 1 := UInt32.le_iff_toNat_le.mp h
    exact (Nat.max_eq_right hle).symm
  next h =>
    have hlt : ¬ word.toNat ≤ 1 := fun hle => h (UInt32.le_iff_toNat_le.mpr hle)
    exact (Nat.max_eq_left (by omega)).symm

section Words

variable (arithmetic : WordArithmetic)

/-- A sum that is a word is what comes out of the addition. -/
theorem gives_add {a b : UInt32} (h : a.toNat + b.toNat < 2 ^ 32) :
    Gives (arithmetic.add a b) (a.toNat + b.toNat) := by
  refine ⟨a + b, arithmetic.add_eq a b h, ?_⟩
  rw [UInt32.toNat_add, Nat.mod_eq_of_lt h]

theorem gives_mul {a b : UInt32} (h : a.toNat * b.toNat < 2 ^ 32) :
    Gives (arithmetic.mul a b) (a.toNat * b.toNat) := by
  refine ⟨a * b, arithmetic.mul_eq a b h, ?_⟩
  rw [UInt32.toNat_mul, Nat.mod_eq_of_lt h]

/-- A count that is a word is not cut. -/
theorem toNat_countBoolOpsWord {node : Node} (h : countBoolOps node < 2 ^ 32) :
    (countBoolOpsWord node).toNat = countBoolOps node :=
  UInt32.toNat_ofNat_of_lt' h

/-- Going into a node adds one to the level at most, so the level inside of it is a word, too. -/
theorem enterWord_eq (kind : NodeKind) {level : UInt32} (h : level.toNat + 1 < 2 ^ 32) :
    ∃ inner own, enterWord arithmetic kind level = some (inner, own)
      ∧ inner.toNat = innerLevel kind level.toNat ∧ own.toNat = ownScore kind level.toNat := by
  obtain ⟨nested, hadd, hnested⟩ := gives_add arithmetic (a := level) (b := 1) h
  cases kind
  case breakStmt | continueStmt | raiseStmt => exact ⟨level, _, rfl, rfl, toNat_max_one level⟩
  case ifStmt | forLoop | asyncForLoop | whileLoop | ifExpr =>
    exact ⟨nested, nested, by rw [enterWord, hadd]; rfl, hnested, hnested⟩
  case functionDef | asyncFunctionDef | lambda =>
    exact ⟨nested, 0, by rw [enterWord, hadd]; rfl, hnested, rfl⟩
  all_goals exact ⟨level, 0, rfl, rfl, rfl⟩

mutual

/-- **No step on the way to a score is too large**, if the score is a word and the levels are. The
induction is on the tree: what is added up is never more than what comes out. -/
theorem gives_scoreNodeWord (level : UInt32) :
    (node : Node) → level.toNat + node.height < 2 ^ 32 → scoreNode level.toNat node < 2 ^ 32 →
      Gives (scoreNodeWord arithmetic level node) (scoreNode level.toNat node)
  | ⟨kind, name, position, children⟩ => by
    intro hlevel hscore
    rw [Node.height] at hlevel
    rw [scoreNode] at hscore ⊢
    rw [scoreNodeWord]
    by_cases hbool : kind = .boolOp
    · rw [if_pos hbool] at hscore ⊢
      rw [if_pos hbool]
      -- The second factor is at least one, so the first one is a word as well.
      have hcount := toNat_countBoolOpsWord
        ((Nat.le_mul_of_pos_right _ (Nat.le_max_right level.toNat 1)).trans_lt hscore)
      rw [← hcount, ← toNat_max_one] at hscore ⊢
      exact gives_mul arithmetic hscore
    · obtain ⟨inner, own, henter, hinner, hown⟩ :=
        enterWord_eq arithmetic kind (show level.toNat + 1 < 2 ^ 32 by omega)
      rw [if_neg hbool] at hscore ⊢
      rw [if_neg hbool, henter]
      show Gives ((if kind = .tryStmt then _ else _) >>= fun below => arithmetic.add own below) _
      by_cases htry : kind = .tryStmt
      · rw [if_pos htry] at hscore ⊢
        rw [if_pos htry]
        subst htry
        have hsame : inner.toNat = level.toNat := hinner
        rw [← hsame] at hscore ⊢
        refine (gives_scoreTryWord inner children (by omega) hscore).bind fun below hbelow => ?_
        have hzero : own.toNat = 0 := hown
        rw [← hbelow] at hscore ⊢
        have hsum := gives_add arithmetic (a := own) (b := below) (by omega)
        rwa [hzero, Nat.zero_add] at hsum
      · rw [if_neg htry] at hscore ⊢
        rw [if_neg htry]
        have hdeeper := innerLevel_le kind level.toNat
        rw [← hinner, ← hown] at hscore ⊢
        have hbelow := gives_scoreAllWord inner 0 children (by omega)
          (by rw [UInt32.toNat_zero]; omega)
        rw [UInt32.toNat_zero, Nat.zero_add] at hbelow
        refine hbelow.bind fun below hbelow => ?_
        rw [← hbelow] at hscore ⊢
        exact gives_add arithmetic hscore

theorem gives_scoreAllWord (level total : UInt32) :
    (nodes : List Node) → level.toNat + heightAll nodes < 2 ^ 32 →
      total.toNat + scoreAll level.toNat nodes < 2 ^ 32 →
      Gives (scoreAllWord arithmetic level total nodes)
        (total.toNat + scoreAll level.toNat nodes)
  | [] => by
    intro _ _
    rw [scoreAllWord, scoreAll]
    exact gives_some total
  | node :: rest => by
    intro hlevel hscore
    rw [heightAll] at hlevel
    rw [scoreAll] at hscore ⊢
    rw [scoreAllWord]
    refine (gives_scoreNodeWord level node (by omega) (by omega)).bind fun score hnode => ?_
    rw [← hnode, ← Nat.add_assoc] at hscore ⊢
    refine (gives_add arithmetic (by omega)).bind fun sum hsum => ?_
    rw [← hsum] at hscore ⊢
    exact gives_scoreAllWord level sum rest (by omega) hscore

theorem gives_scoreTryWord (level : UInt32) :
    (nodes : List Node) → level.toNat + 1 + heightAll nodes < 2 ^ 32 →
      scoreTry level.toNat nodes < 2 ^ 32 →
      Gives (scoreTryWord arithmetic level nodes) (scoreTry level.toNat nodes)
  | [] => by
    intro _ _
    rw [scoreTryWord, scoreTry]
    exact gives_some 0
  | body :: clauses => by
    intro hlevel hscore
    rw [heightAll] at hlevel
    rw [scoreTry] at hscore ⊢
    rw [scoreTryWord]
    refine (gives_scoreNodeWord level body (by omega) (by omega)).bind fun score hbody => ?_
    rw [← hbody] at hscore ⊢
    have hstart := gives_add arithmetic (a := 0) (b := score) (by rw [UInt32.toNat_zero]; omega)
    rw [UInt32.toNat_zero, Nat.zero_add] at hstart
    refine hstart.bind fun total htotal => ?_
    rw [← htotal] at hscore ⊢
    exact gives_scoreClausesWord level total clauses (by omega) hscore

theorem gives_scoreClausesWord (level total : UInt32) :
    (nodes : List Node) → level.toNat + 1 + heightAll nodes < 2 ^ 32 →
      total.toNat + scoreClauses (level.toNat + 1) nodes < 2 ^ 32 →
      Gives (scoreClausesWord arithmetic level total nodes)
        (total.toNat + scoreClauses (level.toNat + 1) nodes)
  | [] => by
    intro _ _
    rw [scoreClausesWord, scoreClauses]
    exact gives_some total
  | clause :: rest => by
    intro hlevel hscore
    rw [heightAll] at hlevel
    rw [scoreClauses] at hscore ⊢
    rw [scoreClausesWord]
    have hnested := gives_add arithmetic (a := level) (b := 1) (by rw [UInt32.toNat_one]; omega)
    refine hnested.bind fun nested hnested => ?_
    rw [UInt32.toNat_one] at hnested
    rw [← hnested] at hscore hlevel ⊢
    refine (gives_scoreNodeWord nested clause (by omega) (by omega)).bind fun score hclause => ?_
    rw [← hclause, ← toNat_max_one, ← Nat.add_assoc] at hscore ⊢
    refine (gives_add arithmetic (by omega)).bind fun charge hcharge => ?_
    rw [← hcharge] at hscore ⊢
    refine (gives_add arithmetic (by omega)).bind fun sum hsum => ?_
    rw [← hsum, hnested] at hscore ⊢
    exact gives_scoreClausesWord level sum rest (by omega) hscore

end

end Words

/-! ### Trees that are small enough -/

/-- Twice the number of nodes times their height leaves room for one more in a word. -/
def FitWord (nodes : List Node) : Prop :=
  2 * sizeAll nodes * heightAll nodes + 1 < 2 ^ 32

/-- What is no larger fits if the other does. -/
theorem FitWord.of_noLarger {nodes nodes' : List Node} (h : FitWord nodes')
    (hle : Node.NoLarger nodes nodes') : FitWord nodes := by
  have hproduct := Nat.mul_le_mul (Nat.mul_le_mul_left 2 hle.size) hle.height
  exact Nat.lt_of_le_of_lt (Nat.succ_le_succ hproduct) h

theorem FitWord.height_lt {nodes : List Node} (h : FitWord nodes) : heightAll nodes < 2 ^ 32 := by
  cases nodes with
  | nil => exact Nat.two_pow_pos 32
  | cons node rest =>
    have hsize : 0 < 2 * sizeAll (node :: rest) := by
      rw [Node.sizeAll_cons]
      omega
    have hle := Nat.le_mul_of_pos_left (heightAll (node :: rest)) hsize
    exact (hle.trans (Nat.le_succ _)).trans_lt h

theorem FitWord.size_lt {node : Node} (h : FitWord [node]) : node.size < 2 ^ 32 := by
  have hsize : sizeAll [node] = node.size := by rw [sizeAll, sizeAll, Nat.add_zero]
  have hheight : 0 < heightAll [node] := by
    rw [heightAll, node.height_eq]
    omega
  have hle := Nat.le_mul_of_pos_right (2 * sizeAll [node]) hheight
  rw [FitWord] at h
  omega

/-- The bound keeps the score and all levels below the limit. -/
theorem FitWord.gives_scoreWord (arithmetic : WordArithmetic) {nodes : List Node}
    (h : FitWord nodes) : Gives (scoreWord arithmetic nodes) (score nodes) := by
  have hscore : score nodes < 2 ^ 32 := ((score_le nodes).trans (Nat.le_succ _)).trans_lt h
  have hall := gives_scoreAllWord arithmetic 0 0 nodes
    (by rw [UInt32.toNat_zero, Nat.zero_add]; exact h.height_lt)
    (by rw [UInt32.toNat_zero, Nat.zero_add]; exact hscore)
  rwa [UInt32.toNat_zero, Nat.zero_add] at hall

/-- A recursive function scores one more, for which the bound leaves room. -/
theorem FitWord.gives_cognitiveScoreWord (arithmetic : WordArithmetic) {function : Node}
    (h : FitWord function.body) (isMethod : Bool) :
    Gives (cognitiveScoreWord arithmetic function isMethod)
      (cognitiveScore function isMethod) := by
  rw [cognitiveScoreWord, cognitiveScore]
  refine (h.gives_scoreWord arithmetic).bind fun total htotal => ?_
  rw [← htotal]
  split
  · -- The bound leaves room for the one that recursion adds.
    have hscore := score_le function.body
    rw [FitWord] at h
    exact gives_add arithmetic (b := 1) (by rw [UInt32.toNat_one]; omega)
  · exact gives_some total

/-- **Scores of realistic trees fit into words.** A score is at most twice the number of nodes times
the height of the highest tree. If that number and one more is less than `2 ^ 32`, the score of the
nodes, the number of boolean chains in each of them and the score of a function that is among them
or has them for its body come out right with any arithmetic of words: with one that breaks down when
a sum or a product is no word, so none is too large, and with one that wraps around. -/
theorem score_fits (nodes : List Node) :
    score nodes ≤ 2 * sizeAll nodes * heightAll nodes
      ∧ (2 * sizeAll nodes * heightAll nodes + 1 < 2 ^ 32 → ∀ arithmetic : WordArithmetic,
        Gives (scoreWord arithmetic nodes) (score nodes)
          ∧ (∀ node ∈ preorderAll nodes, (countBoolOpsWord node).toNat = countBoolOps node)
          ∧ ∀ (function : Node) (isMethod : Bool),
            function.body = nodes ∨ function ∈ preorderAll nodes →
              Gives (cognitiveScoreWord arithmetic function isMethod)
                (cognitiveScore function isMethod)) := by
  refine ⟨score_le nodes, fun h arithmetic => ⟨?_, ?_, ?_⟩⟩
  · exact FitWord.gives_scoreWord arithmetic h
  · intro node hnode
    have hfit := FitWord.of_noLarger h (Node.noLarger_of_mem_preorderAll nodes hnode)
    exact toNat_countBoolOpsWord ((countBoolOps_le_size node).trans_lt hfit.size_lt)
  · intro function isMethod hfunction
    have hle : Node.NoLarger function.body nodes := by
      rcases hfunction with rfl | hmem
      · exact ⟨Nat.le_refl _, Nat.le_refl _⟩
      · exact function.noLarger_body.trans (Node.noLarger_of_mem_preorderAll nodes hmem)
    exact (FitWord.of_noLarger h hle).gives_cognitiveScoreWord arithmetic isMethod

/-- A function that raises in a handler if one of two conditions holds, and calls itself before
that. -/
def Node.raisingHandler : Node :=
  let plain := fun kind => Node.plain kind ⟨1, 0⟩
  let condition := plain .boolOp [plain .name [], plain .name []]
  let branch := plain .ifStmt [condition, plain .block [plain .raiseStmt []]]
  let attempt := plain .block [.named .call "f" ⟨1, 0⟩ []]
  .named .functionDef "f" ⟨1, 0⟩
    [plain .block [plain .tryStmt [attempt, plain .exceptHandler [branch]]]]

/-- The handler adds one, the `if` two, its condition and the `raise` two each, and one is for the
call. -/
theorem raisingHandler_fits :
    2 * sizeAll [Node.raisingHandler] * heightAll [Node.raisingHandler] + 1 < 2 ^ 32
      ∧ Node.raisingHandler ∈ preorderAll [Node.raisingHandler]
      ∧ cognitiveScore .raisingHandler false = 8
      ∧ Gives (cognitiveScoreWord .checked .raisingHandler false) 8
      ∧ Gives (cognitiveScoreWord .wrapping .raisingHandler false) 8 := by
  have hfit : 2 * sizeAll [Node.raisingHandler] * heightAll [Node.raisingHandler] + 1 < 2 ^ 32 := by
    decide
  have hmem : Node.raisingHandler ∈ preorderAll [Node.raisingHandler] := by
    rw [preorderAll, Node.preorder_eq]
    exact List.mem_cons_self
  have hscore : cognitiveScore .raisingHandler false = 8 := by decide +kernel
  have hwords := (score_fits [.raisingHandler]).2 hfit
  refine ⟨hfit, hmem, hscore, ?_, ?_⟩
  · exact hscore ▸ (hwords .checked).2.2 _ false (.inr hmem)
  · exact hscore ▸ (hwords .wrapping).2.2 _ false (.inr hmem)

end PyStyle
