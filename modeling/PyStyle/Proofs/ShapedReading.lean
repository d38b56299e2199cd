import PyStyle.Proofs.TreeShape

/-!
# Reading gives shaped trees

Each rule of the reader is looked at once: what it makes is shaped if all that stands below the
node is. Induction on the concrete tree does the rest.

- `Concrete.SoundBelow` — all that stands below a node reads as shaped trees;
- `Concrete.SoundBelow.function`, `Concrete.SoundBelow.decorated`, … — one rule each;
- `Concrete.ifShape_branchNode` — an `if` with all its clauses, by induction on them;
- `Concrete.SoundBelow.read` — the step: all rules together;
- `Concrete.sound_of_mem` — everything in a tree is sound;
- `read_shaped` — all nodes of all trees that are read are shaped.
-/

namespace PyStyle

namespace Concrete

open Reading (ofConcrete ofConcretes)

/-! ### One level of a tree -/

/-- What the node reads as is shaped, also as a part of a chain of boolean operators. -/
structure Sound (root c : Concrete) : Prop where
  node : ∀ tree, c.read = some tree → tree.AllShaped root
  operands : ∀ tree ∈ (ofConcrete c).operands, tree.AllShaped root

/-- All that stands below the node is sound. -/
def SoundBelow (root c : Concrete) : Prop :=
  ∀ child ∈ c.children, ∀ d ∈ child.subtrees, Sound root d

namespace SoundBelow

variable {root c d : Concrete} (h : SoundBelow root c)
include h

/-- A child is below the node, so what it reads as is shaped. -/
theorem sound (hd : d ∈ c.children) : Sound root d :=
  h d hd d d.mem_subtrees_self

/-- What stands below a child stands below the node. -/
theorem child (hd : d ∈ c.children) : SoundBelow root d :=
  fun _ hchild e he => h d hd e (mem_subtrees_trans he (mem_subtrees_of_child hchild))

theorem readField (field : Field) : ∀ n ∈ c.readField field, n.AllShaped root := by
  intro n hn
  obtain ⟨child, hchild, hread⟩ := mem_readField.mp hn
  exact (h.sound (mem_children_of_field? hchild)).node n hread

theorem readNamed : ∀ n ∈ c.readNamed, n.AllShaped root := by
  intro n hn
  obtain ⟨child, hchild, hread⟩ := mem_readNamed.mp hn
  exact (h.sound (mem_children_of_named hchild)).node n hread

/-- The statements of a suite are those of a block, or a single one in its place. -/
theorem suiteOf {child : Option Concrete} (hchild : ∀ d ∈ child, d ∈ c.children) :
    ∀ n ∈ suiteOf child, n.AllShaped root := by
  cases child with
  | none => simp [Concrete.suiteOf]
  | some inner =>
    have hmem := hchild inner rfl
    rw [Concrete.suiteOf]
    split
    · exact (h.child hmem).readNamed
    · intro n hn
      exact (h.sound hmem).node n (Option.mem_toList.mp hn)

theorem block {child : Option Concrete} (hchild : ∀ d ∈ child, d ∈ c.children)
    (fallback : Position) :
    (Reading.block (child.map ofConcrete) fallback).AllShaped root :=
  (isBlockOf_block child fallback).allShaped (h.suiteOf hchild)

theorem blockOf (field : Field) (fallback : Position) :
    (Reading.block (Reading.field? field (ofConcretes c.children)) fallback).AllShaped root := by
  rw [Reading.field?_ofConcretes]
  exact h.block (fun _ hd => mem_children_of_field? hd) fallback

end SoundBelow

/-! ### Parameters -/

/-- The parameters of a function or a `lambda`. -/
def parameterList (c : Concrete) : List Concrete :=
  ((c.field? .parameters).map namedChildren).getD []

/-- The arguments of all parameters come first, and the default values behind them. -/
theorem parameterNodes_eq (c : Concrete) :
    Reading.parameterNodes (Reading.field? .parameters (ofConcretes c.children))
      = c.parameterList.flatMap (fun p => Reading.parameterArgument (ofConcrete p))
        ++ c.parameterList.flatMap (fun p => Reading.parameterDefault (ofConcrete p)) := by
  rw [Reading.field?_ofConcretes, parameterList, Reading.parameterNodes]
  cases c.field? .parameters with
  | none => rfl
  | some params => simp [named_eq, List.flatMap_map]

/-- An argument has its annotation below it, or nothing: a name or a pattern has none. -/
theorem argument_of_mem {p : Concrete} {n : Node}
    (h : n ∈ Reading.parameterArgument (ofConcrete p)) :
    n.kind = .argument ∧ (n.children = [] ∨ n.children = p.readField .type) := by
  rw [Reading.parameterArgument] at h
  split at h
  all_goals simp only [List.mem_singleton, List.not_mem_nil] at h
  all_goals subst h
  · exact ⟨rfl, Or.inl rfl⟩
  · exact ⟨rfl, Or.inl rfl⟩
  · exact ⟨rfl, Or.inl rfl⟩
  all_goals
    rw [Reading.ofConcrete_children, fieldNode_eq]
    exact ⟨rfl, Or.inr rfl⟩

/-- A default value is what the field of its parameter holds. -/
theorem default_of_mem {p : Concrete} {n : Node}
    (h : n ∈ Reading.parameterDefault (ofConcrete p)) : n ∈ p.readField .value := by
  rw [Reading.parameterDefault] at h
  split at h
  all_goals first | rwa [Reading.ofConcrete_children, fieldNode_eq] at h | cases h

/-- Parameters stand two levels below what they belong to. -/
theorem parameterList_subset (c : Concrete) :
    ∀ p ∈ c.parameterList, ∃ params ∈ c.children, p ∈ params.children := by
  intro p hp
  rw [parameterList] at hp
  cases hparams : c.field? .parameters with
  | none => simp [hparams] at hp
  | some params =>
    rw [hparams] at hp
    exact ⟨params, mem_children_of_field? hparams, mem_children_of_named hp⟩

/-- An argument has one child at most, and that is shaped. -/
theorem argument_allShaped {root p : Concrete} {n : Node} (hbelow : SoundBelow root p)
    (hn : n ∈ Reading.parameterArgument (ofConcrete p)) : n.AllShaped root := by
  obtain ⟨hkind, hchildren⟩ := argument_of_mem hn
  refine .of_children ?_ ?_
  · rw [Node.Shaped, hkind]
    show n.children.length ≤ 1
    rcases hchildren with hchildren | hchildren <;> rw [hchildren]
    · exact Nat.zero_le _
    · exact length_readField_le .type p
  · rcases hchildren with hchildren | hchildren <;> rw [hchildren]
    · simp
    · exact hbelow.readField .type

theorem SoundBelow.parameters {root c : Concrete} (h : SoundBelow root c) :
    ∀ n ∈ Reading.parameterNodes (Reading.field? .parameters (ofConcretes c.children)),
      n.AllShaped root := by
  intro n hn
  rw [parameterNodes_eq] at hn
  rcases List.mem_append.mp hn with hn | hn
  all_goals
    obtain ⟨p, hp, hn⟩ := List.mem_flatMap.mp hn
    obtain ⟨params, hparams, hmem⟩ := c.parameterList_subset p hp
    have hbelow := (h.child hparams).child hmem
  · exact argument_allShaped hbelow hn
  · exact hbelow.readField .value n (default_of_mem hn)

/-! ### Definitions -/

section Rules

variable {root c : Concrete} {node : Node}

/-- A function reads as its arguments, their default values, the return type and a block, in this
order. -/
theorem functionShape_of_read (hc : c.Grammatical) (hkind : c.kind = .functionDefinition)
    (h : c.read = some node) :
    FunctionShape c node
      ∧ (node.kind = .functionDef ∨ node.kind = .asyncFunctionDef) := by
  rw [read_eq, hkind, Reading.read, fieldNode_eq, parameterNodes_eq] at h
  cases h
  refine ⟨.intro (List.nil_append _).symm (by simp) ?_ ?_ ?_ ?_ ?_
    (c.isBlockOf_suite .body c.start) ?_, ?_⟩
  · intro n hn
    obtain ⟨p, _, hn⟩ := List.mem_flatMap.mp hn
    exact (argument_of_mem hn).1
  · intro n hn
    obtain ⟨p, hp, hn⟩ := List.mem_flatMap.mp hn
    obtain ⟨params, hparams, hmem⟩ := c.parameterList_subset p hp
    exact ⟨p, mem_subtrees_trans (mem_subtrees_of_child hmem) (mem_subtrees_of_child hparams),
      default_of_mem hn⟩
  · intro n hn
    obtain ⟨p, hp, hn⟩ := List.mem_flatMap.mp hn
    obtain ⟨params, hparams, hmem⟩ := c.parameterList_subset p hp
    have hvalue := default_of_mem hn
    have hblock := kind_ne_block_of_readField ((hc.child hparams).child hmem) rfl hvalue
    obtain ⟨value, _, hread⟩ := mem_readField.mp hvalue
    have hpart := kind_of_read hread
    simp_all
  · intro n hn
    obtain ⟨type, _, rfl⟩ := List.mem_map.mp hn
    rfl
  · rw [List.length_map]
    exact length_readField_le .returnType c
  · exact Node.body_of_last rfl (c.isBlockOf_suite .body c.start)
  · show (if _ then _ else _) = _ ∨ (if _ then _ else _) = _
    split
    · exact Or.inr rfl
    · exact Or.inl rfl

theorem SoundBelow.function (hbelow : SoundBelow root c) (hc : c.Grammatical)
    (hmem : c ∈ root.subtrees) (hkind : c.kind = .functionDefinition) (h : c.read = some node) :
    node.AllShaped root := by
  obtain ⟨hshape, hnodeKind⟩ := functionShape_of_read hc hkind h
  refine .of_children ?_ ?_
  · rcases hnodeKind with hnodeKind | hnodeKind <;> rw [Node.Shaped, hnodeKind] <;>
      exact ⟨c, hmem, hkind, .of_read h, hshape⟩
  · rw [read_eq, hkind, Reading.read, fieldNode_eq] at h
    cases h
    intro child hchild
    rcases List.mem_append.mp hchild with hchild | hchild
    · rcases List.mem_append.mp hchild with hchild | hchild
      · exact hbelow.parameters child hchild
      · obtain ⟨type, htype, rfl⟩ := List.mem_map.mp hchild
        refine .of_children rfl ?_
        intro inner hinner
        rw [List.mem_singleton.mp hinner]
        exact hbelow.readField .returnType type htype
    · rw [List.mem_singleton.mp hchild]
      exact hbelow.blockOf .body c.start

theorem SoundBelow.class (hbelow : SoundBelow root c) (hmem : c ∈ root.subtrees)
    (hkind : c.kind = .classDefinition) (h : c.read = some node) : node.AllShaped root := by
  have hfrom := Node.DecoratedFrom.of_read h
  rw [read_eq, hkind, Reading.read, fieldNode_eq] at h
  cases h
  refine .of_children ⟨c, hmem, hkind, hfrom, .intro rfl (c.isBlockOf_suite .body c.start)⟩ ?_
  intro child hchild
  rcases List.mem_append.mp hchild with hchild | hchild
  · exact hbelow.readField .superclasses child hchild
  · rw [List.mem_singleton.mp hchild]
    exact hbelow.blockOf .body c.start

/-- What can be decorated reads as a definition, whose shape leaves room for decorators. -/
theorem kind_of_definition (hc : c.Grammatical)
    (hkind : c.kind = .functionDefinition ∨ c.kind = .classDefinition) (h : c.read = some node) :
    node.kind = .functionDef ∨ node.kind = .asyncFunctionDef ∨ node.kind = .classDef := by
  rcases hkind with hkind | hkind
  · rcases (functionShape_of_read hc hkind h).2 with hnode | hnode
    · exact Or.inl hnode
    · exact Or.inr (Or.inl hnode)
  · rw [read_eq, hkind, Reading.read] at h
    cases h
    exact Or.inr (Or.inr rfl)

/-- A definition with its decorators in front keeps the shape that it has without them. -/
theorem SoundBelow.decorated (hbelow : SoundBelow root c) (hc : c.Grammatical)
    (hkind : c.kind = .decoratedDefinition) (h : c.read = some node) : node.AllShaped root := by
  obtain ⟨definition, decorators, inner, hfield, hread, rfl, hdecorators⟩ :=
    read_of_decorated hkind h
  have hchild := mem_children_of_field? hfield
  have hinner := (hbelow.sound hchild).node inner hread
  have hkinds : ∀ n ∈ decorators, n.kind = .decorator := by
    intro n hn
    obtain ⟨_, _, _, _, e, _, rfl⟩ := hdecorators n hn
    rfl
  refine .of_children ?_ ?_
  · refine hinner.shaped.decorated ?_ hkinds
    exact kind_of_definition (hc.child hchild) (hc.placed.definition hkind definition hfield) hread
  · intro n hn
    rcases List.mem_append.mp hn with hn | hn
    · obtain ⟨mark, hmark, expression, hexpression, e, he, rfl⟩ := hdecorators n hn
      refine .of_children rfl ?_
      intro child hmem
      rw [List.mem_singleton.mp hmem]
      exact ((hbelow.child hmark).sound hexpression).node e he
    · exact hinner.children n hn

/-! ### Branches -/

/-- A branch reads as its condition, its block and what stands behind it. -/
theorem branchShape_branchNode {head : Concrete} (rest : List Concrete) (hc : head.Grammatical) :
    BranchShape head (Reading.branchNode head rest) (Reading.otherwise (ofConcretes rest)) := by
  rw [Reading.branchNode, Reading.ifChain_eq, fieldNode_eq]
  refine .intro rfl (length_readField_le .condition head) ?_
    (head.isBlockOf_suite .consequence head.start)
  intro n hn
  exact kind_ne_block_of_readField hc rfl hn

/-- Each branch reads as an `if` where it starts, also that of an `elif`. -/
theorem branchNode_kind (head : Concrete) (rest : List Concrete) :
    (Reading.branchNode head rest).kind = .ifStmt
      ∧ (Reading.branchNode head rest).position = head.start := by
  rw [Reading.branchNode, Reading.ifChain_eq]
  exact ⟨rfl, rfl⟩

/-- By induction on the clauses: an `elif` is the branch of those that follow it. -/
theorem ifShape_branchNode {head : Concrete} {rest : List Concrete} (hc : head.Grammatical)
    (hrest : ∀ clause ∈ rest, clause.Grammatical) :
    IfShape head rest (Reading.branchNode head rest) := by
  induction rest generalizing head with
  | nil => exact .last (branchShape_branchNode [] hc)
  | cons next rest ih =>
    obtain ⟨hnext, hrest⟩ := List.forall_mem_cons.mp hrest
    have hbranch := branchShape_branchNode (next :: rest) hc
    by_cases helif : next.kind = .elifClause
    · rw [Reading.otherwise_of_elif helif] at hbranch
      exact .elif helif hbranch ⟨rfl, rfl⟩ (branchNode_kind next rest) (ih hnext hrest)
    · rw [Reading.otherwise_of_else helif] at hbranch
      exact .otherwise helif hbranch (next.isBlockOf_suite .body next.start)

/-- The clauses behind a branch start with the branch of an `elif`, or are no branch. -/
theorem IsBranchIn.next {head next : Concrete} {rest : List Concrete}
    (h : root.IsBranchIn head (next :: rest)) (hmem : head ∈ root.subtrees)
    (helif : next.kind = .elifClause) : root.IsBranchIn next rest := by
  refine Or.inr ⟨helif, ?_⟩
  rcases h with ⟨hkind, hclauses⟩ | ⟨_, owner, howner, hkind, hclauses⟩
  · exact ⟨head, hmem, hkind, hclauses ▸ List.suffix_refl _⟩
  · exact ⟨owner, howner, hkind, (List.suffix_cons head _).trans hclauses⟩

/-- One branch, given that what stands behind it is shaped. -/
theorem SoundBelow.branch {head : Concrete} {rest : List Concrete} (hbelow : SoundBelow root head)
    (hroot : root.Grammatical) (hmem : head ∈ root.subtrees) (hbranch : root.IsBranchIn head rest)
    (hrest : ∀ clause ∈ rest, clause ∈ root.subtrees)
    (hotherwise : ∀ block ∈ Reading.otherwise (ofConcretes rest), block.AllShaped root) :
    (Reading.branchNode head rest).AllShaped root := by
  have hshape := ifShape_branchNode (hroot.of_mem hmem) fun clause hclause =>
    hroot.of_mem (hrest clause hclause)
  obtain ⟨hkind, hposition⟩ := branchNode_kind head rest
  refine .of_children ?_ ?_
  · rw [Node.Shaped, hkind]
    exact ⟨head, hmem, rest, hbranch, hposition, hshape⟩
  · rw [Reading.branchNode, Reading.ifChain_eq, fieldNode_eq]
    intro child hchild
    rcases List.mem_append.mp hchild with hchild | hchild
    · exact hbelow.readField .condition child hchild
    · rcases List.mem_cons.mp hchild with rfl | hchild
      · exact hbelow.blockOf .consequence head.start
      · exact hotherwise child hchild

/-- All branches of an `if`, by induction on the clauses behind the first one. -/
theorem branchNode_allShaped (hroot : root.Grammatical) {head : Concrete} {rest : List Concrete}
    (hmem : head ∈ root.subtrees) (hbelow : SoundBelow root head)
    (hbranch : root.IsBranchIn head rest)
    (hrest : ∀ clause ∈ rest, clause ∈ root.subtrees ∧ SoundBelow root clause) :
    (Reading.branchNode head rest).AllShaped root := by
  induction rest generalizing head with
  | nil =>
    refine hbelow.branch hroot hmem hbranch (by simp) ?_
    intro block hblock
    cases hblock
  | cons next rest ih =>
    have hclauses := fun clause hclause => (hrest clause hclause).1
    obtain ⟨⟨hnext, hnextBelow⟩, hrest⟩ := List.forall_mem_cons.mp hrest
    refine hbelow.branch hroot hmem hbranch hclauses ?_
    intro block hblock
    by_cases helif : next.kind = .elifClause
    · rw [Reading.otherwise_of_elif helif, List.mem_singleton] at hblock
      have hinner := ih hnext hnextBelow (hbranch.next hmem helif) hrest
      have hlone : block.IsBlockOf [Reading.branchNode next rest] := hblock ▸ ⟨rfl, rfl⟩
      exact hlone.allShaped (by simpa using hinner)
    · rw [Reading.otherwise_of_else helif, List.mem_singleton] at hblock
      rw [hblock]
      exact hnextBelow.blockOf .body next.start

/-- The clauses of an `if` are children of it, so they are sound below. -/
theorem SoundBelow.ifStatement (hbelow : SoundBelow root c) (hroot : root.Grammatical)
    (hmem : c ∈ root.subtrees) (hkind : c.kind = .ifStatement) (h : c.read = some node) :
    node.AllShaped root := by
  cases (Reading.node_of_ifStatement hkind).symm.trans h
  refine branchNode_allShaped hroot hmem hbelow (Or.inl ⟨hkind, rfl⟩) ?_
  intro clause hclause
  have hchild : clause ∈ c.children := (List.mem_filter.mp hclause).1
  exact ⟨mem_subtrees_trans (mem_subtrees_of_child hchild) hmem, hbelow.child hchild⟩

/-! ### Loops -/

theorem SoundBelow.loopElse (hbelow : SoundBelow root c) :
    ∀ n ∈ Reading.loopElse (ofConcretes c.children), n.kind = .block ∧ n.AllShaped root := by
  rw [Reading.loopElse, Reading.field?_ofConcretes]
  cases hclause : c.field? .alternative with
  | none => simp
  | some clause =>
    have hbody := (hbelow.child (mem_children_of_field? hclause)).blockOf .body clause.start
    have hblock := clause.isBlockOf_suite .body clause.start
    simpa using ⟨hblock.1, hbody⟩

/-- A loop, given what stands before its block. -/
theorem SoundBelow.loop (hbelow : SoundBelow root c) (hmem : c ∈ root.subtrees)
    (hkind : c.kind = .forStatement ∨ c.kind = .whileStatement) {kind : NodeKind}
    (hloop : kind = .forLoop ∨ kind = .asyncForLoop ∨ kind = .whileLoop) {front : List Node}
    (hread : c.read = some (.plain kind c.start
      (front ++ [Reading.block (Reading.field? .body (ofConcretes c.children)) c.start]
        ++ Reading.loopElse (ofConcretes c.children))))
    (hfront : ∀ n ∈ front, n.kind ≠ .block ∧ n.AllShaped root) (hlength : front.length ≤ 2)
    (h : c.read = some node) : node.AllShaped root := by
  cases hread.symm.trans h
  have hone : (Reading.loopElse (ofConcretes c.children)).length ≤ 1 := by
    rw [Reading.loopElse]
    split
    · exact Nat.le_refl _
    · exact Nat.zero_le _
  have hshape : LoopShape c (Node.plain kind c.start
      (front ++ [Reading.block (Reading.field? .body (ofConcretes c.children)) c.start]
        ++ Reading.loopElse (ofConcretes c.children))) :=
    .intro (List.append_assoc ..) (fun n hn => (hfront n hn).1) hlength
      (c.isBlockOf_suite .body c.start) (fun n hn => (hbelow.loopElse n hn).1) hone
  refine .of_children ?_ ?_
  · rcases hloop with rfl | rfl | rfl <;> exact ⟨c, hmem, hkind, h, hshape⟩
  · intro child hchild
    rcases List.mem_append.mp hchild with hchild | hchild
    · rcases List.mem_append.mp hchild with hchild | hchild
      · exact (hfront child hchild).2
      · rw [List.mem_singleton.mp hchild]
        exact hbelow.blockOf .body c.start
    · exact (hbelow.loopElse child hchild).2

/-- Where the grammar has an expression, there is no block. -/
theorem SoundBelow.expression (hbelow : SoundBelow root c) (hc : c.Grammatical) {field : Field}
    (hfield : field.holdsExpression = true) :
    ∀ n ∈ c.readField field, n.kind ≠ .block ∧ n.AllShaped root :=
  fun n hn => ⟨kind_ne_block_of_readField hc hfield hn, hbelow.readField field n hn⟩

/-- The target and what is looped over stand before the block: at most two nodes, both expressions.
-/
theorem SoundBelow.forStatement (hbelow : SoundBelow root c) (hc : c.Grammatical)
    (hmem : c ∈ root.subtrees) (hkind : c.kind = .forStatement) (h : c.read = some node) :
    node.AllShaped root := by
  have hread := c.read_eq
  rw [hkind, Reading.read, fieldNode_eq, fieldNode_eq] at hread
  refine hbelow.loop hmem (Or.inl hkind) ?_ hread ?_ ?_ h
  · split
    · exact Or.inr (Or.inl rfl)
    · exact Or.inl rfl
  · intro n hn
    rcases List.mem_append.mp hn with hn | hn
    · exact hbelow.expression hc rfl n hn
    · exact hbelow.expression hc rfl n hn
  · have hleft := length_readField_le .left c
    have hright := length_readField_le .right c
    rw [List.length_append]
    omega

theorem SoundBelow.whileStatement (hbelow : SoundBelow root c) (hc : c.Grammatical)
    (hmem : c ∈ root.subtrees) (hkind : c.kind = .whileStatement) (h : c.read = some node) :
    node.AllShaped root := by
  have hread := c.read_eq
  rw [hkind, Reading.read, fieldNode_eq] at hread
  refine hbelow.loop hmem (Or.inr hkind) (Or.inr (Or.inr rfl)) hread (hbelow.expression hc rfl) ?_ h
  have hcondition := length_readField_le .condition c
  omega

/-! ### Protected blocks -/

/-- A clause reads as a handler, or as the block of an `else` or a `finally`. -/
theorem SoundBelow.tryClause (hbelow : SoundBelow root c) :
    ∀ n ∈ Reading.tryClause (ofConcrete c),
      (n.kind = .exceptHandler ∨ n.kind = .block) ∧ n.AllShaped root := by
  intro n hn
  rw [Reading.tryClause, Reading.ofConcrete_children] at hn
  have hhandler : (Node.plain .exceptHandler (ofConcrete c).start
      (Reading.nodes (ofConcretes c.children))).AllShaped root := by
    refine .of_children trivial ?_
    show ∀ child ∈ Reading.nodes (ofConcretes c.children), child.AllShaped root
    rw [nodes_eq]
    exact hbelow.readNamed
  split at hn
  · cases List.mem_singleton.mp hn
    exact ⟨Or.inl rfl, hhandler⟩
  · cases List.mem_singleton.mp hn
    exact ⟨Or.inl rfl, hhandler⟩
  · cases List.mem_singleton.mp hn
    exact ⟨Or.inr (c.isBlockOf_suite .body _).1, hbelow.blockOf .body _⟩
  · cases List.mem_singleton.mp hn
    have hfind : (Reading.named (ofConcretes c.children)).find? (·.kind == .block)
        = (c.namedChildren.find? (·.kind == .block)).map ofConcrete := by
      rw [named_eq, List.find?_map]
      congr 2
      funext child
      simp
    rw [hfind]
    refine ⟨Or.inr (isBlockOf_block _ _).1, hbelow.block ?_ _⟩
    intro d hd
    exact mem_children_of_named (List.mem_of_find?_eq_some hd)
  · cases hn

theorem SoundBelow.tryStatement (hbelow : SoundBelow root c) (hmem : c ∈ root.subtrees)
    (hkind : c.kind = .tryStatement) (h : c.read = some node) : node.AllShaped root := by
  have hclauses : ∀ n ∈ (Reading.named (ofConcretes c.children)).flatMap Reading.tryClause,
      (n.kind = .exceptHandler ∨ n.kind = .block) ∧ n.AllShaped root := by
    intro n hn
    rw [named_eq, List.flatMap_map] at hn
    obtain ⟨clause, hclause, hn⟩ := List.mem_flatMap.mp hn
    exact (hbelow.child (mem_children_of_named hclause)).tryClause n hn
  have hread := h
  rw [read_eq, hkind, Reading.read] at h
  cases h
  refine .of_children ⟨c, hmem, hkind, hread, .intro rfl (c.isBlockOf_suite .body c.start)
    fun n hn => (hclauses n hn).1⟩ ?_
  intro child hchild
  rcases List.mem_cons.mp hchild with rfl | hchild
  · exact hbelow.blockOf .body c.start
  · exact (hclauses child hchild).2

/-! ### Chains of operators -/

theorem SoundBelow.sideOperands (hbelow : SoundBelow root c) (operator : String) (field : Field) :
    ∀ n ∈ Reading.sideOperands operator (Reading.field? field (ofConcretes c.children)),
      n.AllShaped root := by
  rw [Reading.field?_ofConcretes]
  cases hside : c.field? field with
  | none => simp [Reading.sideOperands]
  | some side =>
    have hsound := hbelow.sound (mem_children_of_field? hside)
    intro n hn
    rw [Option.map_some, Reading.sideOperands] at hn
    split at hn
    · exact hsound.operands n hn
    · exact hsound.node n (Option.mem_toList.mp hn)

/-- The operands of a chain, those of nested chains among them. -/
theorem SoundBelow.chainOperands (hbelow : SoundBelow root c) :
    ∀ n ∈ Reading.chainOperands (ofConcretes c.children), n.AllShaped root := by
  intro n hn
  rcases List.mem_append.mp hn with hn | hn
  · exact hbelow.sideOperands _ .left n hn
  · exact hbelow.sideOperands _ .right n hn

/-! ### All rules -/

/-- A call reads as the callee and the arguments. -/
theorem SoundBelow.call (hbelow : SoundBelow root c) (hkind : c.kind = .call)
    (h : c.read = some node) : node.AllShaped root := by
  rw [read_eq, hkind, Reading.read, Reading.field?_ofConcretes] at h
  cases h
  refine .of_children trivial ?_
  intro child hchild
  rcases List.mem_append.mp hchild with hchild | hchild
  · refine hbelow.readField .function child ?_
    rw [← fieldNode_eq, Reading.fieldNode, Reading.field?_ofConcretes]
    exact hchild
  · rw [Reading.field?_ofConcretes] at hchild
    cases hargs : c.field? .arguments with
    | none => simp [hargs] at hchild
    | some args =>
      rw [hargs, Option.map_some, Option.map_some, Option.getD_some, Reading.ofConcrete_children,
        nodes_eq] at hchild
      exact (hbelow.child (mem_children_of_field? hargs)).readNamed child hchild

/-- What is in parentheses, or wrapped as a type, reads as itself, and an empty wrapping as a leaf.
-/
theorem SoundBelow.wrapper (hbelow : SoundBelow root c)
    (hkind : c.kind = .parenthesizedExpression ∨ c.kind = .type) (h : c.read = some node) :
    node.AllShaped root := by
  rcases read_of_wrapper hkind with hread | ⟨inner, hinner, hread⟩
  · cases hread.symm.trans h
    exact .of_children trivial (by simp [Node.plain])
  · exact (hbelow.sound (mem_children_of_statements hinner)).node node (hread.symm.trans h)

theorem SoundBelow.lambda (hbelow : SoundBelow root c) (hkind : c.kind = .lambda)
    (h : c.read = some node) : node.AllShaped root := by
  rw [read_eq, hkind, Reading.read, fieldNode_eq] at h
  cases h
  refine .of_children trivial ?_
  intro child hchild
  rcases List.mem_append.mp hchild with hchild | hchild
  · exact hbelow.parameters child hchild
  · exact hbelow.readField .body child hchild

/-- The rule that makes a node with all that its children read as. -/
theorem SoundBelow.nodes (hbelow : SoundBelow root c) {kind : NodeKind} {position : Position}
    (h : some (.plain kind position (Reading.nodes (ofConcretes c.children))) = some node)
    (hkind : ∀ children, (Node.plain kind position children).Shaped root) :
    node.AllShaped root := by
  rw [nodes_eq] at h
  cases h
  exact .of_children (hkind _) hbelow.readNamed

/-- The rule that makes a node without children. -/
theorem allShaped_leaf (hnode : node.Shaped root) (hchildren : node.children = []) :
    node.AllShaped root := by
  refine .of_children hnode ?_
  rw [hchildren]
  simp

/-- **What a node reads as is shaped if everything below it is**, rule by rule. -/
theorem SoundBelow.read (hbelow : SoundBelow root c) (hroot : root.Grammatical)
    (hmem : c ∈ root.subtrees) (h : c.read = some node) : node.AllShaped root := by
  have hc := hroot.of_mem hmem
  have hread := h
  rw [read_eq] at hread
  unfold Reading.read at hread
  split at hread
  case h_1 => cases hread
  case h_2 => exact hbelow.nodes hread fun _ => trivial
  case h_3 => exact hbelow.nodes hread fun _ => trivial
  case h_4 hkind => exact hbelow.wrapper (Or.inl hkind) h
  case h_5 hkind => exact hbelow.wrapper (Or.inr hkind) h
  case h_6 hkind => exact hbelow.decorated hc hkind h
  case h_7 hkind => exact hbelow.function hc hmem hkind h
  case h_8 hkind => exact hbelow.class hmem hkind h
  case h_9 hkind => exact hbelow.lambda hkind h
  case h_10 hkind => exact hbelow.ifStatement hroot hmem hkind h
  case h_11 hkind => exact hbelow.forStatement hc hmem hkind h
  case h_12 hkind => exact hbelow.whileStatement hc hmem hkind h
  case h_13 hkind => exact hbelow.tryStatement hmem hkind h
  case h_14 => exact hbelow.nodes hread fun _ => trivial
  case h_15 =>
    cases hread
    exact .of_children trivial hbelow.chainOperands
  case h_16 =>
    cases hread
    exact allShaped_leaf trivial rfl
  case h_17 =>
    cases hread
    exact allShaped_leaf trivial rfl
  case h_18 => exact hbelow.nodes hread fun _ => trivial
  case h_19 => exact hbelow.nodes hread fun _ => trivial
  case h_20 hkind => exact hbelow.call hkind h
  case h_21 =>
    cases hread
    exact allShaped_leaf trivial rfl
  case h_22 =>
    rw [fieldNode_eq] at hread
    cases hread
    exact .of_children trivial (hbelow.readField .object)
  case h_23 => exact hbelow.nodes hread fun _ => trivial
  case h_24 => exact hbelow.nodes hread fun _ => trivial

/-- The step of the induction: also the operands that a chain hands on are shaped. -/
theorem SoundBelow.sound_self (hbelow : SoundBelow root c) (hroot : root.Grammatical)
    (hmem : c ∈ root.subtrees) : Sound root c := by
  refine ⟨fun tree h => hbelow.read hroot hmem h, ?_⟩
  intro n hn
  rw [Reading.ofConcrete_eq] at hn
  dsimp only at hn
  split at hn
  · exact hbelow.chainOperands n hn
  · cases hn

/-- By induction on the tree, everything in it is sound. -/
theorem sound_of_mem (hroot : root.Grammatical) (hmem : c ∈ root.subtrees) :
    ∀ d ∈ c.subtrees, Sound root d := by
  induction c using induction with
  | step c ih =>
    have hbelow : SoundBelow root c := fun child hchild =>
      ih child hchild (mem_subtrees_trans (mem_subtrees_of_child hchild) hmem)
    intro d hd
    rw [subtrees_eq] at hd
    rcases List.mem_cons.mp hd with rfl | hd
    · exact hbelow.sound_self hroot hmem
    · obtain ⟨child, hchild, hd⟩ := List.mem_flatMap.mp hd
      exact hbelow child hchild d hd

end Rules

end Concrete

/-- **All nodes of all trees that are read are shaped**, whatever parts of the concrete tree are
missing: of the tree that any concrete node reads as, and of the tree of a module. -/
theorem read_shaped {root : Concrete} (hroot : root.Grammatical) :
    (∀ tree, root.read = some tree → ∀ node ∈ tree.preorder, node.Shaped root)
      ∧ ∀ node ∈ (Node.ofConcrete root).preorder, node.Shaped root := by
  have hall := Concrete.sound_of_mem hroot root.mem_subtrees_self
  have hbelow : Concrete.SoundBelow root root := fun child hchild d hd =>
    hall d (Concrete.mem_subtrees_trans hd (Concrete.mem_subtrees_of_child hchild))
  refine ⟨(hall root root.mem_subtrees_self).node, ?_⟩
  have hmodule : some (.plain .module ⟨1, 0⟩ (Reading.nodes (Reading.ofConcretes root.children)))
      = some (Node.ofConcrete root) := by
    rw [Node.ofConcrete, Reading.ofConcrete_children]
  exact hbelow.nodes hmodule fun _ => trivial

/-- A decorated `async` function with an annotated argument that has a default value, a return type
and a protected block. -/
def Concrete.endpoint : Concrete :=
  .part .module none ⟨1, 0⟩ [.part .decoratedDefinition none ⟨1, 0⟩
    [.part .decorator none ⟨1, 0⟩ [.part .identifier none ⟨1, 1⟩ []],
     .part .functionDefinition (some .definition) ⟨2, 0⟩
      [{ Concrete.part .token none ⟨2, 0⟩ [] with text := "async" },
       .part .parameters (some .parameters) ⟨2, 11⟩
        [.part .typedDefaultParameter none ⟨2, 12⟩
          [.part .identifier (some .name) ⟨2, 12⟩ [],
           .part .type (some .type) ⟨2, 15⟩ [.part .identifier none ⟨2, 15⟩ []],
           .part .noneLiteral (some .value) ⟨2, 21⟩ []]],
       .part .type (some .returnType) ⟨2, 30⟩ [.part .identifier none ⟨2, 30⟩ []],
       .part .block (some .body) ⟨3, 4⟩
        [.part .tryStatement none ⟨3, 4⟩
          [.part .block (some .body) ⟨4, 8⟩ [Concrete.ladder],
           .part .exceptClause none ⟨7, 4⟩ []]]]]]

/-- The handler has no block, and no shape asks for one. -/
theorem endpoint_shaped :
    Concrete.endpoint.Grammatical
      ∧ ((Node.ofConcrete Concrete.endpoint).preorder.map (·.kind)
          = [.module, .asyncFunctionDef, .decorator, .name, .argument, .name, .generic, .returnType,
             .name, .block, .tryStmt, .block, .ifStmt, .generic, .block, .breakStmt, .block,
             .ifStmt, .generic, .block, .continueStmt, .block, .raiseStmt, .exceptHandler])
      ∧ ∀ node ∈ (Node.ofConcrete Concrete.endpoint).preorder, node.Shaped Concrete.endpoint :=
  ⟨by decide, by decide +kernel, (read_shaped (by decide)).2⟩

end PyStyle
