import Mathlib.Algebra.Order.Ring.Nat
import PyStyle.Proofs.GrammarRules

/-!
# Counting constructs

Scores count statements, calls and operators. Here is what it means to count them in either kind of
tree, and which parts of a concrete node add to its count.

- `Construct` — what is counted, in either kind of tree;
- `Concrete.occurrences` — the nodes of a concrete tree, each with the node it stands in;
- `Construct.Counts` — a chain of one boolean operator counts once;
- `Concrete.passesOver`, `Concrete.namesParameter` — what is not read;
- `Construct.countIn`, `Construct.countBelow` — how often a construct stands in a tree;
- `Concrete.FollowsRule.countBelow_eq`, `Concrete.FollowsRule.countBelow_roles` — a node that
  follows its rule counts as its parts do.
-/

namespace PyStyle

/-! ### What is counted -/

/-- The constructs that scores tell apart; `async` makes no difference. -/
inductive Construct where
  | breakStmt
  | continueStmt
  | raiseStmt
  | returnStmt
  | call
  | lambda
  | ifExpr
  | tryStmt
  | whileLoop
  | forLoop
  | ifStmt
  | classDef
  | functionDef
  | boolOp
deriving DecidableEq, Repr

/-- The construct that nodes of the kind stand for. -/
def NodeKind.construct? : NodeKind → Option Construct
  | .breakStmt => some .breakStmt
  | .continueStmt => some .continueStmt
  | .raiseStmt => some .raiseStmt
  | .returnStmt => some .returnStmt
  | .call => some .call
  | .lambda => some .lambda
  | .ifExpr => some .ifExpr
  | .tryStmt => some .tryStmt
  | .whileLoop => some .whileLoop
  | .forLoop | .asyncForLoop => some .forLoop
  | .ifStmt => some .ifStmt
  | .classDef => some .classDef
  | .functionDef | .asyncFunctionDef => some .functionDef
  | .boolOp => some .boolOp
  | _ => none

/-- The construct that concrete nodes of the kind stand for: an `elif` is an `if`. -/
def Concrete.Kind.construct? : Kind → Option Construct
  | .breakStatement => some .breakStmt
  | .continueStatement => some .continueStmt
  | .raiseStatement => some .raiseStmt
  | .returnStatement => some .returnStmt
  | .call => some .call
  | .lambda => some .lambda
  | .conditionalExpression => some .ifExpr
  | .tryStatement => some .tryStmt
  | .whileStatement => some .whileLoop
  | .forStatement => some .forLoop
  | .ifStatement | .elifClause => some .ifStmt
  | .classDefinition => some .classDef
  | .functionDefinition => some .functionDef
  | .booleanOperator => some .boolOp
  | _ => none

namespace Concrete

mutual

/-- The nodes below a node, each with the node it stands in. What `hides` says of a node and one of
its children leaves the child out, with all that it holds. -/
def occurrences (hides : Concrete → Concrete → Bool) : Concrete → List (Concrete × Concrete)
  | c@⟨_, _, _, _, _, children⟩ => occurrencesIn hides c children

/-- The nodes of the trees of a list that stand in `parent`. -/
def occurrencesIn (hides : Concrete → Concrete → Bool) (parent : Concrete) :
    List Concrete → List (Concrete × Concrete)
  | [] => []
  | c :: rest =>
    (if hides parent c then [] else (parent, c) :: occurrences hides c)
      ++ occurrencesIn hides parent rest

end

/-- The operator of a boolean operation. -/
def operatorText (c : Concrete) : Option String :=
  (c.field? .operator).map (·.text)

/-- Is the node an operand of a boolean operation, and itself one with the same operator? -/
def ContinuesChain (parent c : Concrete) : Prop :=
  parent.kind = .booleanOperator ∧ c.kind = .booleanOperator
    ∧ (c.field = some .left ∨ c.field = some .right) ∧ c.operatorText = parent.operatorText

instance (parent c : Concrete) : Decidable (ContinuesChain parent c) :=
  inferInstanceAs (Decidable (_ ∧ _ ∧ _ ∧ _))

/-- Type parameters of a definition are not read, nor are parameters of kinds that give no
argument. -/
def passesOver (parent c : Concrete) : Bool :=
  match parent.kind with
  | .functionDefinition | .classDefinition => c.kind == .typeParameter
  | .parameters | .lambdaParameters =>
    !(c.kind == .identifier || c.kind == .listSplatPattern || c.kind == .dictionarySplatPattern
      || c.kind.isParameterForm)
  | _ => false

/-- Does the node give a parameter its name? It is the pattern behind a star, or what stands before
the type and the default value. -/
def namesParameter (parent c : Concrete) : Bool :=
  parent.kind.isParameterList
      && (c.kind == .listSplatPattern || c.kind == .dictionarySplatPattern)
    || parent.kind.isParameterForm && c.field != some .type && c.field != some .value

/-- What is not read: it is passed over, or it is just the name of a parameter. -/
def unread (parent c : Concrete) : Bool :=
  passesOver parent c || namesParameter parent c

end Concrete

namespace Construct

/-- The node is one of the construct; a chain of one boolean operator is counted at its top. -/
def Counts (k : Construct) (place : Concrete × Concrete) : Prop :=
  place.2.kind.construct? = some k ∧ ¬ Concrete.ContinuesChain place.1 place.2

instance (k : Construct) (place : Concrete × Concrete) : Decidable (k.Counts place) :=
  inferInstanceAs (Decidable (_ ∧ _))

/-- How often the construct stands in a tree. -/
def countIn (k : Construct) (tree : Node) : Nat :=
  tree.preorder.countP (·.kind.construct? = some k)

/-- How often it stands below a concrete node. -/
def countBelow (k : Construct) (hides : Concrete → Concrete → Bool) (c : Concrete) : Nat :=
  (c.occurrences hides).countP k.Counts

/-- How often it stands in the trees of a list. -/
def countAll (k : Construct) (trees : List Node) : Nat :=
  (Node.preorderAll trees).countP (·.kind.construct? = some k)

/-- How often what is read of the children `cs` of `parent` has the construct. -/
def countAmong (k : Construct) (parent : Concrete) (cs : List Concrete) : Nat :=
  (Concrete.occurrencesIn Concrete.unread parent cs).countP k.Counts

/-- One if the kind stands for the construct, else zero. -/
def weight (k : Construct) (kind : Concrete.Kind) : Nat :=
  if kind.construct? = some k then 1 else 0

/-! ### Counting in trees -/

section Trees

variable (k : Construct)

@[simp] theorem countAll_nil : k.countAll [] = 0 := by
  rw [countAll, Node.preorderAll, List.countP_nil]

@[simp] theorem countAll_append (front back : List Node) :
    k.countAll (front ++ back) = k.countAll front + k.countAll back := by
  rw [countAll, Node.preorderAll_append, List.countP_append, countAll, countAll]

@[simp] theorem countAll_cons (tree : Node) (rest : List Node) :
    k.countAll (tree :: rest) = k.countIn tree + k.countAll rest := by
  rw [countAll, Node.preorderAll, List.countP_append, countIn, countAll]

theorem countAll_flatMap_append {α : Type} (f g : α → List Node) (xs : List α) :
    k.countAll (xs.flatMap f) + k.countAll (xs.flatMap g)
      = k.countAll (xs.flatMap fun x => f x ++ g x) := by
  induction xs with
  | nil => simp
  | cons x xs ih =>
    simp only [List.flatMap_cons, countAll_append, ← ih]
    omega

theorem countIn_eq (tree : Node) :
    k.countIn tree
      = (if tree.kind.construct? = some k then 1 else 0) + k.countAll tree.children := by
  rw [countIn, Node.preorder_eq, List.countP_cons, countAll, Nat.add_comm]
  simp only [decide_eq_true_eq]

/-- A node of a kind that is not counted adds nothing to its children. -/
theorem countIn_of_none {tree : Node} (h : tree.kind.construct? = none) :
    k.countIn tree = k.countAll tree.children := by
  rw [countIn_eq, h, if_neg (by simp), Nat.zero_add]

/-- Nor does a node around a tree. -/
theorem countIn_around {kind : NodeKind} (h : kind.construct? = none) (position : Position)
    (tree : Node) : k.countIn (.plain kind position [tree]) = k.countIn tree := by
  rw [countIn_of_none k h]
  exact (countAll_cons k tree []).trans (by rw [countAll_nil, Nat.add_zero])

theorem countIn_prepend (tree : Node) (front : List Node) :
    k.countIn { tree with children := front ++ tree.children }
      = k.countAll front + k.countIn tree := by
  rw [countIn_eq, countIn_eq k tree]
  show (if tree.kind.construct? = some k then 1 else 0) + k.countAll (front ++ tree.children) = _
  rw [countAll_append]
  omega

end Trees

/-! ### Counting in concrete trees -/

section Places

variable (k : Construct) {parent c : Concrete}

@[simp] theorem countAmong_nil (parent : Concrete) : k.countAmong parent [] = 0 := by
  rw [countAmong, Concrete.occurrencesIn, List.countP_nil]

theorem countAmong_cons (parent c : Concrete) (rest : List Concrete) :
    k.countAmong parent (c :: rest) = k.countAmong parent [c] + k.countAmong parent rest := by
  simp only [countAmong, Concrete.occurrencesIn, List.countP_append, List.append_nil]

theorem countAmong_append (parent : Concrete) (front back : List Concrete) :
    k.countAmong parent (front ++ back)
      = k.countAmong parent front + k.countAmong parent back := by
  induction front with
  | nil => simp
  | cons c front ih =>
    rw [List.cons_append, countAmong_cons, ih, countAmong_cons k parent c front, Nat.add_assoc]

theorem countAmong_flatMap {α : Type} (parent : Concrete) (f : α → List Concrete) (xs : List α) :
    k.countAmong parent (xs.flatMap f) = (xs.map fun x => k.countAmong parent (f x)).sum := by
  induction xs with
  | nil => exact k.countAmong_nil parent
  | cons x xs ih => rw [List.flatMap_cons, countAmong_append, ih, List.map_cons, List.sum_cons]

theorem countBelow_eq (c : Concrete) :
    k.countBelow Concrete.unread c = k.countAmong c c.children := by
  cases c
  rw [countBelow, Concrete.occurrences, countAmong]

theorem countAmong_of_unread (h : Concrete.unread parent c = true) :
    k.countAmong parent [c] = 0 := by
  rw [countAmong, Concrete.occurrencesIn, h, if_pos rfl, Concrete.occurrencesIn]
  rfl

/-- A child that is read counts itself and what it holds. -/
theorem countAmong_of_read (h : Concrete.unread parent c = false) :
    k.countAmong parent [c]
      = (if k.Counts (parent, c) then 1 else 0) + k.countBelow Concrete.unread c := by
  rw [countAmong, Concrete.occurrencesIn, h, if_neg Bool.false_ne_true, Concrete.occurrencesIn,
    List.append_nil, List.countP_cons, countBelow, Nat.add_comm]
  simp only [decide_eq_true_eq]

theorem weight_of_none {kind : Concrete.Kind} (h : kind.construct? = none) : k.weight kind = 0 := by
  rw [weight, h, if_neg (by simp)]

end Places

end Construct

namespace Concrete

variable {k : Construct} {parent c : Concrete}

/-! ### What is read on its own -/

/-- The child is read, and not as an operand of the chain of its parent. -/
def ReadIn (parent c : Concrete) : Prop :=
  unread parent c = false ∧ ¬ ContinuesChain parent c

theorem ReadIn.countAmong (h : ReadIn parent c) :
    k.countAmong parent [c] = k.weight c.kind + k.countBelow unread c := by
  have hcounts : k.Counts (parent, c) ↔ c.kind.construct? = some k :=
    and_iff_left h.2
  rw [k.countAmong_of_read h.1, Construct.weight]
  simp only [hcounts]

/-- Does a node of the kind read all its children, and each on its own? -/
def Kind.readsAll (kind : Kind) : Bool :=
  kind != .functionDefinition && kind != .classDefinition && kind != .booleanOperator
    && !kind.isParameterList && !kind.isParameterForm

theorem readIn_of_readsAll (h : parent.kind.readsAll = true) : ReadIn parent c := by
  simp only [Kind.readsAll, Bool.and_eq_true, Bool.not_eq_true', bne_iff_ne] at h
  obtain ⟨⟨⟨⟨hfunction, hclass⟩, hboolean⟩, hlist⟩, hform⟩ := h
  refine ⟨?_, fun hchain => hboolean hchain.1⟩
  rw [unread, namesParameter, hlist, hform, passesOver]
  split
  · exact absurd ‹_› hfunction
  · exact absurd ‹_› hclass
  · simp [‹parent.kind = _›, Kind.isParameterList] at hlist
  · simp [‹parent.kind = _›, Kind.isParameterList] at hlist
  · rfl

/-- Of a definition all is read but its type parameters. -/
theorem readIn_of_definition
    (hparent : parent.kind = .functionDefinition ∨ parent.kind = .classDefinition)
    (hkind : c.kind ≠ .typeParameter) : ReadIn parent c := by
  rcases hparent with hparent | hparent <;>
    simp [ReadIn, unread, passesOver, namesParameter, ContinuesChain, hparent, hkind,
      Kind.isParameterList, Kind.isParameterForm]

theorem readIn_of_parameterList (hparent : parent.kind.isParameterList = true)
    (hform : c.kind.isParameterForm = true) : ReadIn parent c := by
  rcases Kind.isParameterList_iff.mp hparent with hparent | hparent <;>
    rcases Kind.isParameterForm_iff.mp hform with hform | hform | hform <;>
    simp [ReadIn, unread, passesOver, namesParameter, ContinuesChain, hparent, hform,
      Kind.isParameterForm]

/-- Other parameters are names, which are not read, but for identifiers. -/
theorem unread_of_parameterList (hparent : parent.kind.isParameterList = true)
    (hform : c.kind.isParameterForm = false) (hname : c.kind ≠ .identifier) :
    unread parent c = true := by
  rcases Kind.isParameterList_iff.mp hparent with hparent | hparent <;>
    by_cases hlist : c.kind = .listSplatPattern <;>
    by_cases hdictionary : c.kind = .dictionarySplatPattern <;>
    simp [unread, passesOver, namesParameter, hparent, hform, hname, hlist, hdictionary,
      Kind.isParameterList]

theorem readIn_of_parameterForm (hparent : parent.kind.isParameterForm = true)
    (hfield : c.field = some .type ∨ c.field = some .value) : ReadIn parent c := by
  rcases Kind.isParameterForm_iff.mp hparent with hparent | hparent | hparent <;>
    rcases hfield with hfield | hfield <;>
    simp [ReadIn, unread, passesOver, namesParameter, ContinuesChain, hparent, hfield,
      Kind.isParameterList]

theorem unread_of_parameterForm (hparent : parent.kind.isParameterForm = true)
    (htype : c.field ≠ some .type) (hvalue : c.field ≠ some .value) : unread parent c = true := by
  simp [unread, namesParameter, hparent, htype, hvalue]

/-! ### Counting parts -/

/-- A node that is not counted and holds nothing that is. -/
theorem countAmong_of_none (hkind : c.kind.construct? = none) (hbelow : k.countBelow unread c = 0) :
    k.countAmong parent [c] = 0 := by
  cases hread : unread parent c with
  | true => exact k.countAmong_of_unread hread
  | false =>
    have hcounts : ¬ k.Counts (parent, c) := by
      intro hcounts
      cases hkind.symm.trans hcounts.1
    rw [k.countAmong_of_read hread, if_neg hcounts, hbelow]

theorem construct?_of_isExtra {kind : Kind} (h : kind.isExtra = true) : kind.construct? = none := by
  cases kind <;> first | rfl | cases h

/-- Trees that are made of the nodes of a list, one by one. -/
theorem countAll_flatMap {make : Concrete → List Node} {cs : List Concrete}
    (h : ∀ d ∈ cs, k.countAll (make d) = k.countAmong parent [d]) :
    k.countAll (cs.flatMap make) = k.countAmong parent cs := by
  induction cs with
  | nil => rw [List.flatMap_nil, k.countAll_nil, k.countAmong_nil]
  | cons d cs ih =>
    obtain ⟨hd, hcs⟩ := List.forall_mem_cons.mp h
    rw [List.flatMap_cons, k.countAll_append, hd, ih hcs, ← k.countAmong_cons]

/-- Trees that are made of the named children are made of the parts, if extras give none. -/
theorem countAll_named {make : Concrete → List Node}
    (h : ∀ d ∈ c.children, d.kind.isExtra = true → k.countAll (make d) = 0) :
    k.countAll (c.namedChildren.flatMap make) = k.countAll (c.parts.flatMap make) := by
  rw [namedChildren, parts]
  generalize c.children = cs at h
  induction cs with
  | nil => rfl
  | cons d cs ih =>
    obtain ⟨hd, hcs⟩ := List.forall_mem_cons.mp h
    rw [List.filter_cons, List.filter_cons]
    cases hextra : d.kind.isExtra with
    | true =>
      split
      · rw [List.flatMap_cons, k.countAll_append, hd hextra, Nat.zero_add, ih hcs]
        rfl
      · exact ih hcs
    | false =>
      rw [isNamed_of_not_isExtra hextra, if_pos rfl, Bool.not_false, if_pos rfl, List.flatMap_cons,
        List.flatMap_cons, k.countAll_append, k.countAll_append, ih hcs]

namespace FollowsRule

variable (h : c.FollowsRule)
include h

/-- **Only parts count.** -/
theorem countBelow_eq : k.countBelow unread c = k.countAmong c c.parts := by
  have hextra : ∀ child ∈ c.children, child.kind.isExtra = true → k.countAmong c [child] = 0 := by
    intro child hchild hkind
    refine countAmong_of_none (construct?_of_isExtra hkind) ?_
    rw [k.countBelow_eq, (h.extra child hchild hkind).1, k.countAmong_nil]
  -- The node stays the parent of all its children, so the induction is on the list alone.
  rw [k.countBelow_eq, parts]
  generalize c.children = cs at hextra
  induction cs with
  | nil => rfl
  | cons child cs ih =>
    obtain ⟨hchild, hcs⟩ := List.forall_mem_cons.mp hextra
    rw [k.countAmong_cons c child cs, ih hcs, List.filter_cons]
    cases hkind : child.kind.isExtra with
    | true =>
      rw [hchild hkind, Nat.zero_add]
      rfl
    | false =>
      rw [Bool.not_false, if_pos rfl, k.countAmong_cons c child (cs.filter _)]

/-- The counts of the parts, role by role. -/
theorem countBelow_roles {roles : List (Option Field)} (hroles : c.kind.roles? = some roles) :
    k.countBelow unread c
      = (roles.map fun role => k.countAmong c (c.partIn role).toList).sum := by
  rw [h.countBelow_eq, h.parts_eq hroles, k.countAmong_flatMap]

/-- The counts of a leaf. -/
theorem countBelow_leaf (hrule : c.kind.rule? = some []) : k.countBelow unread c = 0 := by
  rw [h.countBelow_eq, eq_nil_of_fills (h.rule [] hrule), k.countAmong_nil]

theorem countAmong_identifier (hkind : c.kind = .identifier) : k.countAmong parent [c] = 0 :=
  countAmong_of_none (by rw [hkind]; rfl) (h.countBelow_leaf (by rw [hkind]; rfl))

end FollowsRule

end Concrete

end PyStyle
