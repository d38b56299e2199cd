import PyStyle.Proofs.ElifSpelling

/-!
# The shape of syntax trees

Scores and checks rely on where things stand among the children of a node: the block of a function
comes last, that of a `try` comes first, and an `if` has its condition before its blocks. The
concrete tree does not promise this, since any of its parts may be missing; reading it off does.

- `Concrete.Grammatical` — what the grammar says about expressions and decorated definitions;
- `Concrete.suite` — the statements of the block in a role;
- `FunctionShape`, `IfShape`, … — the children of a node, with the concrete node they come from;
- `Node.Shaped` — the shape that the kind of a node calls for;
- `Concrete.read_of_wrapper`, `Concrete.read_of_decorated` — what reads as one of its children;
- `Concrete.kind_of_read` — nothing reads as a part of a definition;
- `Concrete.kind_ne_block_of_readField` — no expression reads as a block.
-/

namespace PyStyle

namespace Concrete

/-! ### The trees in a tree -/

mutual

/-- The tree and all trees in it. -/
def subtrees : Concrete → List Concrete
  | c@⟨_, _, _, _, _, children⟩ => c :: subtreesAll children

/-- The trees in the trees of a list. -/
def subtreesAll : List Concrete → List Concrete
  | [] => []
  | c :: rest => c.subtrees ++ subtreesAll rest

end

theorem subtreesAll_eq (cs : List Concrete) : subtreesAll cs = cs.flatMap subtrees := by
  induction cs with
  | nil => rw [subtreesAll, List.flatMap_nil]
  | cons c cs ih => rw [subtreesAll, ih, List.flatMap_cons]

theorem subtrees_eq (c : Concrete) : c.subtrees = c :: c.children.flatMap subtrees := by
  cases c
  rw [subtrees, subtreesAll_eq]

theorem mem_subtrees_self (c : Concrete) : c ∈ c.subtrees := by
  rw [subtrees_eq]
  exact List.mem_cons_self

/-- What holds of a tree whenever it holds of its children holds of all trees. -/
theorem induction {motive : Concrete → Prop}
    (step : ∀ c : Concrete, (∀ child ∈ c.children, motive child) → motive c) (c : Concrete) :
    motive c :=
  step c fun child _hchild => induction step child
termination_by sizeOf c
decreasing_by
  have hsize := List.sizeOf_lt_of_mem _hchild
  cases c
  simp_all only [mk.sizeOf_spec]
  omega

/-- What stands below what stands below a node stands below the node. -/
theorem mem_subtrees_trans {a b c : Concrete} (hab : a ∈ b.subtrees) (hbc : b ∈ c.subtrees) :
    a ∈ c.subtrees := by
  induction c using induction with
  | step c ih =>
    rw [subtrees_eq] at hbc ⊢
    rcases List.mem_cons.mp hbc with rfl | hbc
    · rwa [subtrees_eq] at hab
    · obtain ⟨child, hchild, hb⟩ := List.mem_flatMap.mp hbc
      exact List.mem_cons_of_mem _ (List.mem_flatMap.mpr ⟨child, hchild, ih child hchild hb⟩)

theorem mem_subtrees_of_child {child c : Concrete} (h : child ∈ c.children) :
    child ∈ c.subtrees := by
  rw [subtrees_eq]
  exact List.mem_cons_of_mem _ (List.mem_flatMap.mpr ⟨child, h, child.mem_subtrees_self⟩)

theorem mem_children_of_field? {field : Field} {c child : Concrete}
    (h : c.field? field = some child) : child ∈ c.children :=
  List.mem_of_find?_eq_some h

theorem field_of_field? {field : Field} {c child : Concrete} (h : c.field? field = some child) :
    child.field = some field :=
  beq_iff_eq.mp (List.find?_some (p := fun other : Concrete => other.field == some field) h)

theorem mem_children_of_statements {c child : Concrete} (h : child ∈ c.statements) :
    child ∈ c.children :=
  (List.mem_filter.mp (List.mem_filter.mp h).1).1

/-! ### What the grammar promises -/

/-- Is the role that of an expression, of a type or of a default value? -/
def Field.holdsExpression : Field → Bool
  | .condition | .left | .right | .value | .type | .returnType => true
  | _ => false

/-- May a node of the kind stand for an expression? -/
def Kind.isExpression (kind : Kind) : Bool :=
  kind != .block && kind != .module && kind != .comment

/-- The children of the node are of kinds that the grammar allows in their place. Nothing is said
about which children there are. -/
structure Placed (c : Concrete) : Prop where
  /-- Expressions, types and default values are no blocks, modules or comments. -/
  expression : ∀ child ∈ c.children, child.field.any Field.holdsExpression = true →
    child.kind.isExpression = true
  /-- So is what stands in parentheses, comments apart, and what is wrapped as a type. -/
  wrapped : c.kind = .parenthesizedExpression ∨ c.kind = .type →
    ∀ child ∈ c.statements, child.kind.isExpression = true
  /-- Decorators stand before functions and classes. -/
  definition : c.kind = .decoratedDefinition →
    ∀ child ∈ c.field? .definition,
      child.kind = .functionDefinition ∨ child.kind = .classDefinition

instance (c : Concrete) : Decidable c.Placed :=
  decidable_of_iff
    ((∀ child ∈ c.children, child.field.any Field.holdsExpression = true →
        child.kind.isExpression = true)
      ∧ (c.kind = .parenthesizedExpression ∨ c.kind = .type →
        ∀ child ∈ c.statements, child.kind.isExpression = true)
      ∧ (c.kind = .decoratedDefinition → ∀ child ∈ c.field? .definition,
        child.kind = .functionDefinition ∨ child.kind = .classDefinition))
    ⟨fun h => ⟨h.1, h.2.1, h.2.2⟩, fun h => ⟨h.expression, h.wrapped, h.definition⟩⟩

/-- All nodes of the tree have the children that the grammar allows. -/
def Grammatical (root : Concrete) : Prop :=
  ∀ c ∈ root.subtrees, c.Placed

instance (root : Concrete) : Decidable root.Grammatical :=
  inferInstanceAs (Decidable (∀ c ∈ root.subtrees, c.Placed))

/-! ### Parts of what a node reads as -/

/-- What the child in a role reads as. -/
def readField (field : Field) (c : Concrete) : List Node :=
  ((c.field? field).bind read).toList

/-- What the children that are grammar rules read as. -/
def readNamed (c : Concrete) : List Node :=
  c.namedChildren.filterMap read

/-- The statements of a block; what is no block is the only one. -/
def suiteOf : Option Concrete → List Node
  | some inner => if inner.kind = .block then inner.readNamed else inner.read.toList
  | none => []

/-- The statements of the block in a role. -/
def suite (field : Field) (c : Concrete) : List Node :=
  suiteOf (c.field? field)

end Concrete

/-- The node is a block with the given statements. -/
def Node.IsBlockOf (node : Node) (statements : List Node) : Prop :=
  node.kind = .block ∧ node.children = statements

/-! ### Shapes -/

/-- A function has decorators, arguments, default values, at most one return type and its block as
children, in this order; its body is the block of the definition. -/
inductive FunctionShape (c : Concrete) (node : Node) : Prop
  | intro {decorators arguments defaults returns : List Node} {block : Node}
      (children : node.children = decorators ++ (arguments ++ defaults ++ returns ++ [block]))
      (decorators_kind : ∀ n ∈ decorators, n.kind = .decorator)
      (arguments_kind : ∀ n ∈ arguments, n.kind = .argument)
      (defaults_read : ∀ n ∈ defaults, ∃ parameter ∈ c.subtrees, n ∈ parameter.readField .value)
      (defaults_kind : ∀ n ∈ defaults, n.kind ∉ [.decorator, .argument, .returnType, .block])
      (returns_kind : ∀ n ∈ returns, n.kind = .returnType)
      (returns_length : returns.length ≤ 1)
      (block_suite : block.IsBlockOf (c.suite .body))
      (body : node.body = c.suite .body)

/-- The last child of a class is its block. -/
inductive ClassShape (c : Concrete) (node : Node) : Prop
  | intro {front : List Node} {block : Node} (children : node.children = front ++ [block])
      (block_suite : block.IsBlockOf (c.suite .body))

/-- A branch of an `if` is its condition, if there is one, its block, and what stands behind. -/
inductive BranchShape (c : Concrete) (node : Node) (otherwise : List Node) : Prop
  | intro {consequence : Node}
      (children : node.children = c.readField .condition ++ consequence :: otherwise)
      (condition_length : (c.readField .condition).length ≤ 1)
      (condition_kind : ∀ n ∈ c.readField .condition, n.kind ≠ .block)
      (consequence_suite : consequence.IsBlockOf (c.suite .consequence))

/-- An `if` is a branch with at most one block behind it. For an `else` that is its block; for an
`elif` it holds just the `if` of that clause and of those that follow. -/
inductive IfShape : Concrete → List Concrete → Node → Prop
  | last {c : Concrete} {node : Node} (hbranch : BranchShape c node []) : IfShape c [] node
  | otherwise {c clause : Concrete} {rest : List Concrete} {node block : Node}
      (hkind : clause.kind ≠ .elifClause) (hbranch : BranchShape c node [block])
      (hblock : block.IsBlockOf (clause.suite .body)) : IfShape c (clause :: rest) node
  | elif {c clause : Concrete} {rest : List Concrete} {node block inner : Node}
      (hkind : clause.kind = .elifClause) (hbranch : BranchShape c node [block])
      (hblock : block.IsBlockOf [inner])
      (hinner : inner.kind = .ifStmt ∧ inner.position = clause.start)
      (hrest : IfShape clause rest inner) : IfShape c (clause :: rest) node

/-- A loop ends in its block, perhaps with the block of an `else` behind it; at most two nodes
come before them. -/
inductive LoopShape (c : Concrete) (node : Node) : Prop
  | intro {front otherwise : List Node} {block : Node}
      (children : node.children = front ++ block :: otherwise)
      (front_kind : ∀ n ∈ front, n.kind ≠ .block) (front_length : front.length ≤ 2)
      (block_suite : block.IsBlockOf (c.suite .body))
      (otherwise_kind : ∀ n ∈ otherwise, n.kind = .block) (otherwise_length : otherwise.length ≤ 1)

/-- A `try` starts with its protected block; handlers and blocks follow. -/
inductive TryShape (c : Concrete) (node : Node) : Prop
  | intro {block : Node} {clauses : List Node} (children : node.children = block :: clauses)
      (block_suite : block.IsBlockOf (c.suite .body))
      (clauses_kind : ∀ n ∈ clauses, n.kind = .exceptHandler ∨ n.kind = .block)

/-- The node is what `c` reads as, perhaps with decorators before its children. -/
def Node.DecoratedFrom (node : Node) (c : Concrete) : Prop :=
  ∃ inner decorators, c.read = some inner
    ∧ node = { inner with children := decorators ++ inner.children }

/-- The branch `c` with the given clauses behind it is one of an `if` in the tree: its first one,
or the one of an `elif`. -/
def Concrete.IsBranchIn (root c : Concrete) (clauses : List Concrete) : Prop :=
  (c.kind = .ifStatement ∧ clauses = c.alternatives)
    ∨ c.kind = .elifClause ∧ ∃ owner ∈ root.subtrees, owner.kind = .ifStatement
      ∧ c :: clauses <:+ owner.alternatives

/-- The node has the shape that its kind calls for, and comes from a node of the concrete tree. -/
def Node.Shaped (root : Concrete) (node : Node) : Prop :=
  match node.kind with
  | .functionDef | .asyncFunctionDef => ∃ c ∈ root.subtrees, c.kind = .functionDefinition
      ∧ node.DecoratedFrom c ∧ FunctionShape c node
  | .classDef => ∃ c ∈ root.subtrees, c.kind = .classDefinition
      ∧ node.DecoratedFrom c ∧ ClassShape c node
  | .ifStmt => ∃ c ∈ root.subtrees, ∃ clauses, root.IsBranchIn c clauses
      ∧ node.position = c.start ∧ IfShape c clauses node
  | .forLoop | .asyncForLoop | .whileLoop => ∃ c ∈ root.subtrees,
      (c.kind = .forStatement ∨ c.kind = .whileStatement)
      ∧ c.read = some node ∧ LoopShape c node
  | .tryStmt => ∃ c ∈ root.subtrees, c.kind = .tryStatement
      ∧ c.read = some node ∧ TryShape c node
  | .decorator | .returnType => node.children.length = 1
  | .argument => node.children.length ≤ 1
  | _ => True

/-- All nodes of the tree are shaped. -/
def Node.AllShaped (root : Concrete) (tree : Node) : Prop :=
  ∀ node ∈ tree.preorder, node.Shaped root

/-! ### Trees of shaped nodes -/

namespace Node

variable {root : Concrete} {node : Node}

/-- The rule by which trees are built: the node itself and each child. -/
theorem AllShaped.of_children (hnode : node.Shaped root)
    (hchildren : ∀ child ∈ node.children, child.AllShaped root) : node.AllShaped root := by
  have hall : ∀ nodes : List Node, (∀ n ∈ nodes, n.AllShaped root) →
      ∀ n ∈ preorderAll nodes, n.Shaped root := by
    intro nodes hnodes
    induction nodes with
    | nil => simp [preorderAll]
    | cons first rest ih =>
      obtain ⟨hfirst, hrest⟩ := List.forall_mem_cons.mp hnodes
      rw [preorderAll]
      intro n hn
      rcases List.mem_append.mp hn with hn | hn
      · exact hfirst n hn
      · exact ih hrest n hn
  intro n hn
  rw [preorder_eq] at hn
  rcases List.mem_cons.mp hn with rfl | hn
  · exact hnode
  · exact hall node.children hchildren n hn

theorem AllShaped.shaped (h : node.AllShaped root) : node.Shaped root := by
  refine h node ?_
  rw [preorder_eq]
  exact List.mem_cons_self

theorem AllShaped.children (h : node.AllShaped root) :
    ∀ child ∈ node.children, child.AllShaped root := by
  intro child hchild n hn
  refine h n ?_
  obtain ⟨front, back, hsplit⟩ := List.append_of_mem hchild
  rw [preorder_eq, hsplit, preorderAll_append, preorderAll]
  simp [hn]

/-- A block has no shape of its own, so it is shaped if its statements are. -/
theorem IsBlockOf.allShaped {statements : List Node} (h : node.IsBlockOf statements)
    (hstatements : ∀ n ∈ statements, n.AllShaped root) : node.AllShaped root := by
  refine .of_children ?_ (h.2 ▸ hstatements)
  rw [Shaped, h.1]
  trivial

/-- The body of a definition that ends in a block is that block. -/
theorem body_of_last {front : List Node} {block : Node} {statements : List Node}
    (hchildren : node.children = front ++ [block]) (hblock : block.IsBlockOf statements) :
    node.body = statements := by
  rw [body, hchildren, List.reverse_append, List.reverse_singleton, List.singleton_append,
    List.find?_cons_of_pos (by simp [hblock.1])]
  exact hblock.2

end Node

/-! ### Decorators before the children -/

section Decorators

variable {root c : Concrete} {node : Node} {decorators : List Node}

/-- More decorators in front do not change where a definition comes from. -/
theorem Node.DecoratedFrom.decorated (h : node.DecoratedFrom c) :
    Node.DecoratedFrom { node with children := decorators ++ node.children } c := by
  obtain ⟨inner, more, hread, rfl⟩ := h
  refine ⟨inner, decorators ++ more, hread, ?_⟩
  rw [List.append_assoc]

theorem Node.DecoratedFrom.of_read (h : c.read = some node) : node.DecoratedFrom c :=
  ⟨node, [], h, by cases node; rfl⟩

/-- A function stays one with more decorators before its children. -/
theorem FunctionShape.decorated (h : FunctionShape c node)
    (hdecorators : ∀ n ∈ decorators, n.kind = .decorator) :
    FunctionShape c { node with children := decorators ++ node.children } := by
  cases h with
  | @intro more arguments defaults returns block hchildren hmore harguments hdefaults
      hdefaultsKind hreturns hlength hblock _ =>
    have hall : decorators ++ node.children
        = (decorators ++ more) ++ (arguments ++ defaults ++ returns ++ [block]) := by
      rw [hchildren, List.append_assoc decorators]
    refine .intro hall ?_ harguments hdefaults hdefaultsKind hreturns hlength hblock ?_
    · intro n hn
      rcases List.mem_append.mp hn with hn | hn
      · exact hdecorators n hn
      · exact hmore n hn
    · exact Node.body_of_last (hall.trans (List.append_assoc ..).symm) hblock

/-- A class stays one with more decorators before its children. -/
theorem ClassShape.decorated (h : ClassShape c node) :
    ClassShape c { node with children := decorators ++ node.children } := by
  cases h with
  | @intro front block hchildren hblock =>
    have hall : decorators ++ node.children = (decorators ++ front) ++ [block] := by
      rw [hchildren, List.append_assoc]
    exact .intro hall hblock

/-- **Definitions can be decorated** and keep their shape. -/
theorem Node.Shaped.decorated (h : node.Shaped root)
    (hkind : node.kind = .functionDef ∨ node.kind = .asyncFunctionDef ∨ node.kind = .classDef)
    (hdecorators : ∀ n ∈ decorators, n.kind = .decorator) :
    Node.Shaped root { node with children := decorators ++ node.children } := by
  obtain ⟨kind, name, position, children⟩ := node
  rcases hkind with rfl | rfl | rfl <;> obtain ⟨c, hmem, hc, hfrom, hshape⟩ := h
  · exact ⟨c, hmem, hc, hfrom.decorated, hshape.decorated hdecorators⟩
  · exact ⟨c, hmem, hc, hfrom.decorated, hshape.decorated hdecorators⟩
  · exact ⟨c, hmem, hc, hfrom.decorated, hshape.decorated⟩

end Decorators

namespace Concrete

open Reading (ofConcrete ofConcretes)

/-! ### Parts, read off the readings -/

/-- A node is read by the rule of its kind, from what its children read as. -/
theorem read_eq (c : Concrete) :
    c.read = Reading.read c.kind c.start c.text (ofConcretes c.children) :=
  Reading.ofConcrete_node c

/-- What the rules ask of a field, in terms of the concrete tree. -/
theorem fieldNode_eq (field : Field) (c : Concrete) :
    Reading.fieldNode field (ofConcretes c.children) = c.readField field := by
  rw [Reading.fieldNode, Reading.field?_ofConcretes, readField]
  cases c.field? field <;> rfl

theorem named_eq (c : Concrete) :
    Reading.named (ofConcretes c.children) = c.namedChildren.map ofConcrete := by
  rw [Reading.ofConcretes_eq, Reading.named, List.filter_map, namedChildren]
  congr 2
  funext child
  simp

theorem nodes_eq (c : Concrete) : Reading.nodes (ofConcretes c.children) = c.readNamed := by
  rw [Reading.nodes, named_eq, List.filterMap_map]
  rfl

/-- The first child that counts is the first statement: comments are passed over. -/
theorem firstNamed?_eq (c : Concrete) :
    Reading.firstNamed? (ofConcretes c.children) = c.statements.head?.map ofConcrete := by
  rw [Reading.firstNamed?, named_eq, List.find?_map, statements, List.head?_filter]
  congr 2
  funext child
  simp

/-- A block is made of the statements of a suite. -/
theorem isBlockOf_block (child : Option Concrete) (fallback : Position) :
    (Reading.block (child.map ofConcrete) fallback).IsBlockOf (suiteOf child) := by
  cases child with
  | none => exact ⟨rfl, rfl⟩
  | some inner =>
    by_cases hkind : inner.kind = .block
    · have hnode : (ofConcrete inner).node = some (.plain .block inner.start inner.readNamed) := by
        rw [Reading.ofConcrete_node, hkind, Reading.read, nodes_eq]
      rw [Option.map_some, Reading.block, hnode, Reading.ofConcrete_kind, hkind, suiteOf,
        if_pos hkind]
      exact ⟨rfl, rfl⟩
    · rw [Option.map_some, Reading.block_of_ne (by simpa using hkind), suiteOf, if_neg hkind]
      exact ⟨rfl, rfl⟩

theorem isBlockOf_suite (field : Field) (c : Concrete) (fallback : Position) :
    (Reading.block (Reading.field? field (ofConcretes c.children)) fallback).IsBlockOf
      (c.suite field) := by
  rw [Reading.field?_ofConcretes]
  exact isBlockOf_block (c.field? field) fallback

/-- A field holds one node at most. -/
theorem length_readField_le (field : Field) (c : Concrete) : (c.readField field).length ≤ 1 :=
  Option.length_toList_le

theorem mem_readField {field : Field} {c : Concrete} {node : Node} :
    node ∈ c.readField field ↔ ∃ child, c.field? field = some child ∧ child.read = some node := by
  rw [readField, Option.mem_toList, Option.bind_eq_some_iff]

theorem mem_readNamed {c : Concrete} {node : Node} :
    node ∈ c.readNamed ↔ ∃ child ∈ c.namedChildren, child.read = some node :=
  List.mem_filterMap

theorem mem_children_of_named {c child : Concrete} (h : child ∈ c.namedChildren) :
    child ∈ c.children :=
  (List.mem_filter.mp h).1

/-! ### What a node can read as -/

/-- Parentheses and types read as what they hold. -/
theorem read_of_wrapper {c : Concrete}
    (hkind : c.kind = .parenthesizedExpression ∨ c.kind = .type) :
    c.read = some (.plain .generic c.start []) ∨ ∃ inner ∈ c.statements, c.read = inner.read := by
  have hfirst := firstNamed?_eq c
  rw [read_eq]
  cases hhead : c.statements.head? with
  | none =>
    rw [hhead, Option.map_none] at hfirst
    exact Or.inl (by rcases hkind with hkind | hkind <;> simp only [hkind, Reading.read, hfirst])
  | some inner =>
    rw [hhead, Option.map_some] at hfirst
    refine Or.inr ⟨inner, List.mem_of_mem_head? hhead, ?_⟩
    rcases hkind with hkind | hkind <;> (simp only [hkind, Reading.read, hfirst]; rfl)

/-- Each decorator comes from an expression. -/
theorem mem_of_mapM_decoratorNode {expressions : List Reading} {decorators : List Node}
    (h : expressions.mapM Reading.decoratorNode = some decorators) :
    ∀ d ∈ decorators, ∃ r ∈ expressions, Reading.decoratorNode r = some d := by
  induction expressions generalizing decorators with
  | nil =>
    rw [List.mapM_nil] at h
    cases h
    simp
  | cons r expressions ih =>
    rw [List.mapM_cons, Option.bind_eq_bind, Option.bind_eq_some_iff] at h
    obtain ⟨d, hd, h⟩ := h
    rw [Option.bind_eq_bind, Option.bind_eq_some_iff] at h
    obtain ⟨rest, hrest, h⟩ := h
    cases h
    rintro d' (_ | ⟨_, hd'⟩)
    · exact ⟨r, List.mem_cons_self, hd⟩
    · obtain ⟨r', hr', hnode⟩ := ih hrest d' hd'
      exact ⟨r', List.mem_cons_of_mem _ hr', hnode⟩

/-- Decorated definitions read as the definition with decorators before its children. -/
theorem read_of_decorated {c : Concrete} {node : Node} (hkind : c.kind = .decoratedDefinition)
    (h : c.read = some node) :
    ∃ definition decorators inner, c.field? .definition = some definition
      ∧ definition.read = some inner
      ∧ node = { inner with children := decorators ++ inner.children }
      ∧ ∀ d ∈ decorators, ∃ mark ∈ c.children, ∃ expression ∈ mark.children, ∃ e,
        expression.read = some e ∧ d = .plain .decorator e.position [e] := by
  rw [read_eq, hkind, Reading.read, Reading.decorate, Option.bind_eq_bind,
    Option.bind_eq_some_iff] at h
  obtain ⟨decorators, hdecorators, h⟩ := h
  rw [Option.bind_eq_bind, Option.bind_eq_some_iff] at h
  obtain ⟨inner, hinner, h⟩ := h
  rw [Reading.field?_ofConcretes, Option.bind_map, Option.bind_eq_some_iff] at hinner
  obtain ⟨definition, hfield, hdefinition⟩ := hinner
  refine ⟨definition, decorators, inner, hfield, hdefinition, (Option.some_inj.mp h).symm, ?_⟩
  intro d hd
  obtain ⟨r, hr, hnode⟩ := mem_of_mapM_decoratorNode hdecorators d hd
  obtain ⟨mark, hmark, hfirst⟩ := List.mem_filterMap.mp hr
  rw [named_eq] at hmark
  obtain ⟨child, hchild, rfl⟩ := List.mem_map.mp (List.mem_filter.mp hmark).1
  rw [Reading.ofConcrete_children, firstNamed?_eq, Option.map_eq_some_iff] at hfirst
  obtain ⟨expression, hexpression, rfl⟩ := hfirst
  rw [Reading.decoratorNode, Option.map_eq_some_iff] at hnode
  obtain ⟨e, he, rfl⟩ := hnode
  exact ⟨child, mem_children_of_named hchild, expression,
    mem_children_of_statements (List.mem_of_mem_head? hexpression), e, he, rfl⟩

/-- Is a node of the kind read by a rule that makes a node for it? -/
def Kind.isDirect : Kind → Bool
  | .parenthesizedExpression | .type | .decoratedDefinition => false
  | _ => true

/-- No rule makes parts of definitions on their own, and only blocks read as blocks. -/
theorem kind_of_read_direct {c : Concrete} {node : Node} (hdirect : c.kind.isDirect = true)
    (h : c.read = some node) :
    node.kind ∉ [.decorator, .argument, .returnType] ∧ (node.kind = .block → c.kind = .block) := by
  rw [read_eq] at h
  generalize c.kind = kind at *
  unfold Reading.read at h
  split at h <;> try exact absurd hdirect (by decide)
  all_goals simp only [Option.some.injEq, reduceCtorEq] at h
  all_goals subst h
  all_goals simp [Node.plain, Node.named, Reading.ifChain_eq]
  all_goals split <;> simp

/-- Only wrappings and decorated definitions read as something else does. -/
theorem isDirect_eq_false {kind : Kind} (h : kind.isDirect = false) :
    (kind = .parenthesizedExpression ∨ kind = .type) ∨ kind = .decoratedDefinition := by
  cases kind <;> simp_all [Kind.isDirect]

/-- **Nothing reads as a part of a definition.** Decorators, arguments and return types are made for
the definition they belong to. -/
theorem kind_of_read {c : Concrete} {node : Node} (h : c.read = some node) :
    node.kind ∉ [.decorator, .argument, .returnType] := by
  induction c using induction generalizing node with
  | step c ih =>
    cases hdirect : c.kind.isDirect with
    | true => exact (kind_of_read_direct hdirect h).1
    | false =>
      rcases isDirect_eq_false hdirect with hkind | hkind
      · rcases read_of_wrapper hkind with hread | ⟨inner, hinner, hread⟩
        · cases hread.symm.trans h
          simp [Node.plain]
        · exact ih inner (mem_children_of_statements hinner) (hread.symm.trans h)
      · obtain ⟨definition, _, inner, hfield, hread, rfl, _⟩ := read_of_decorated hkind h
        have hinner := ih definition (mem_children_of_field? hfield) hread
        exact hinner

/-- All that stands in a grammatical tree is grammatical. -/
theorem Grammatical.of_mem {root c : Concrete} (h : root.Grammatical) (hc : c ∈ root.subtrees) :
    c.Grammatical :=
  fun d hd => h d (mem_subtrees_trans hd hc)

theorem Grammatical.child {c child : Concrete} (h : c.Grammatical) (hchild : child ∈ c.children) :
    child.Grammatical :=
  h.of_mem (mem_subtrees_of_child hchild)

theorem Grammatical.placed {c : Concrete} (h : c.Grammatical) : c.Placed :=
  h c c.mem_subtrees_self

/-- Expressions do not read as blocks, also not behind parentheses. -/
theorem kind_ne_block_of_isExpression {c : Concrete} {node : Node} (hc : c.Grammatical)
    (hkind : c.kind.isExpression = true) (h : c.read = some node) : node.kind ≠ .block := by
  induction c using induction generalizing node with
  | step c ih =>
    intro hblock
    cases hdirect : c.kind.isDirect with
    | true =>
      rw [(kind_of_read_direct hdirect h).2 hblock] at hkind
      exact absurd hkind (by decide)
    | false =>
      rcases isDirect_eq_false hdirect with hwrapper | hdecorated
      · rcases read_of_wrapper hwrapper with hread | ⟨inner, hinner, hread⟩
        · cases hread.symm.trans h
          cases hblock
        · have hchild := mem_children_of_statements hinner
          exact ih inner hchild (hc.child hchild) (hc.placed.wrapped hwrapper inner hinner)
            (hread.symm.trans h) hblock
      · obtain ⟨definition, _, inner, hfield, hread, rfl, _⟩ := read_of_decorated hdecorated h
        have hdefinition := hc.placed.definition hdecorated definition hfield
        have hblockKind : definition.kind = .block := by
          refine (kind_of_read_direct ?_ hread).2 hblock
          rcases hdefinition with hkind | hkind <;> rw [hkind] <;> rfl
        rcases hdefinition with hkind | hkind <;> rw [hkind] at hblockKind <;> cases hblockKind

/-- What stands in the place of an expression reads as no block. -/
theorem kind_ne_block_of_readField {c : Concrete} {field : Field} {node : Node}
    (hc : c.Grammatical) (hfield : field.holdsExpression = true) (h : node ∈ c.readField field) :
    node.kind ≠ .block := by
  obtain ⟨child, hchild, hread⟩ := mem_readField.mp h
  have hmem := mem_children_of_field? hchild
  refine kind_ne_block_of_isExpression (hc.child hmem) ?_ hread
  refine hc.placed.expression child hmem ?_
  rw [field_of_field? hchild]
  exact hfield

end Concrete

end PyStyle
