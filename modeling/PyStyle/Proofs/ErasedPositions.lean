import Mathlib.Data.List.Basic
import PyStyle.Complexity
import PyStyle.Node.OfConcrete

/-!
# Trees without positions

What a concrete tree reads as depends on positions only in the positions of the nodes. Forgetting
the positions before or after reading comes to the same, and the scores do not notice.

A statement is known to the nodes around it by what it reads as: they never look at its parts. So
the parts of an `if` statement are forgotten together with the positions.

- `Node.erase` — a tree without its positions;
- `cognitiveScore_erase`, `isRecursive_erase` — the scores of a tree without positions;
- `Reading.erase` — a reading without positions, and without the parts of `if` statements;
- `Reading.read_erase` — reading commutes with forgetting;
- `Reading.erase_congr` — readings agree if those of the children do.
-/

namespace PyStyle

/-- The position of everything that has none. -/
def Position.origin : Position := ⟨0, 0⟩

/-! ### Nodes -/

namespace Node

mutual

/-- The tree without its positions. -/
def erase : Node → Node
  | ⟨kind, name, _, children⟩ => ⟨kind, name, .origin, eraseAll children⟩

/-- The trees of a list without their positions. -/
def eraseAll : List Node → List Node
  | [] => []
  | node :: rest => node.erase :: eraseAll rest

end

theorem eraseAll_eq (nodes : List Node) : eraseAll nodes = nodes.map erase := by
  induction nodes with
  | nil => rfl
  | cons node rest ih => rw [eraseAll, ih, List.map_cons]

/-- Only the position of the node itself is forgotten here, those below it by `erase` of the
children. -/
theorem erase_eq (node : Node) :
    node.erase = ⟨node.kind, node.name, .origin, node.children.map erase⟩ := by
  cases node
  rw [erase, eraseAll_eq]

@[simp] theorem erase_kind (node : Node) : node.erase.kind = node.kind := by
  rw [erase_eq]

@[simp] theorem erase_name (node : Node) : node.erase.name = node.name := by
  rw [erase_eq]

@[simp] theorem erase_position (node : Node) : node.erase.position = .origin := by
  rw [erase_eq]

@[simp] theorem erase_children (node : Node) :
    node.erase.children = node.children.map erase := by
  rw [erase_eq]

@[simp] theorem erase_plain (kind : NodeKind) (position : Position) (children : List Node) :
    (plain kind position children).erase = plain kind .origin (children.map erase) :=
  erase_eq _

@[simp] theorem erase_named (kind : NodeKind) (name : String) (position : Position)
    (children : List Node) :
    (named kind name position children).erase = named kind name .origin (children.map erase) :=
  erase_eq _

mutual

/-- The nodes of the tree come in the same order. The induction follows the two halves of
`preorder`. -/
theorem preorder_erase : (node : Node) → node.erase.preorder = node.preorder.map erase
  | ⟨kind, name, position, children⟩ => by
    rw [preorder_eq, preorder_eq, erase_children, List.map_cons, preorderAll_erase children]

theorem preorderAll_erase :
    (nodes : List Node) → preorderAll (nodes.map erase) = (preorderAll nodes).map erase
  | [] => by simp only [List.map_nil, preorderAll]
  | node :: rest => by
    rw [List.map_cons, preorderAll, preorderAll, preorder_erase node, preorderAll_erase rest,
      List.map_append]

end

/-- The same nodes are visited in the same order: the worklist looks at children only. -/
theorem walk_erase (node : Node) : node.erase.walk = node.walk.map erase := by
  rw [walk_eq_preorder, walk_eq_preorder, preorder_erase]

/-- The body is found by its kind, so it is the same child. -/
theorem body_erase (node : Node) : node.erase.body = node.body.map erase := by
  rw [body, body, erase_children, ← List.map_reverse, List.find?_map]
  have hkind : ((fun child : Node => child.kind == .block) ∘ erase)
      = fun child => child.kind == .block := by
    funext child
    simp
  rw [hkind]
  cases node.children.reverse.find? (·.kind == .block) with
  | none => rfl
  | some block => simp

end Node

/-! ### Scores -/

/-- Boolean chains are counted by the kind of their nodes. -/
theorem countBoolOps_erase (node : Node) : countBoolOps node.erase = countBoolOps node := by
  rw [countBoolOps, countBoolOps, Node.walk_erase, List.filter_map, List.length_map]
  congr 2
  funext n
  simp

mutual

/-- A node adds to the score by its kind and its level, and both stay. The induction follows the
four functions that the score is made of. -/
theorem scoreNode_erase (level : Nat) :
    (node : Node) → scoreNode level node.erase = scoreNode level node
  | ⟨kind, name, position, children⟩ => by
    have hcount := countBoolOps_erase ⟨kind, name, position, children⟩
    rw [Node.erase_eq] at hcount ⊢
    rw [scoreNode, scoreNode, hcount, scoreTry_erase level children,
      scoreAll_erase (innerLevel kind level) children]

theorem scoreAll_erase (level : Nat) :
    (nodes : List Node) → scoreAll level (nodes.map Node.erase) = scoreAll level nodes
  | [] => rfl
  | node :: rest => by
    rw [List.map_cons, scoreAll, scoreAll, scoreNode_erase level node, scoreAll_erase level rest]

theorem scoreTry_erase (level : Nat) :
    (nodes : List Node) → scoreTry level (nodes.map Node.erase) = scoreTry level nodes
  | [] => rfl
  | body :: clauses => by
    rw [List.map_cons, scoreTry, scoreTry, scoreNode_erase level body,
      scoreClauses_erase (level + 1) clauses]

theorem scoreClauses_erase (level : Nat) :
    (nodes : List Node) → scoreClauses level (nodes.map Node.erase) = scoreClauses level nodes
  | [] => rfl
  | clause :: rest => by
    rw [List.map_cons, scoreClauses, scoreClauses, scoreNode_erase level clause,
      scoreClauses_erase level rest]

end

/-- A recursive call is known by its name. -/
theorem isRecursive_erase (function : Node) (isMethod : Bool) :
    isRecursive function.erase isMethod = isRecursive function isMethod := by
  have hcalls : (function.erase.walk.filter (·.kind == .call)).filterMap (·.name)
      = (function.walk.filter (·.kind == .call)).filterMap (·.name) := by
    rw [Node.walk_erase, List.filter_map, List.filterMap_map]
    congr 1
    · funext n
      simp
    · congr 1
      funext n
      simp
  rw [isRecursive, isRecursive, Node.erase_name, hcalls]

/-- **The score of a function does not depend on positions.** -/
theorem cognitiveScore_erase (function : Node) (isMethod : Bool) :
    cognitiveScore function.erase isMethod = cognitiveScore function isMethod := by
  rw [cognitiveScore, cognitiveScore, Node.body_erase, score, score, scoreAll_erase,
    isRecursive_erase]

/-! ### Readings -/

namespace Reading

/-- Is a node of this kind and role known to others only by what it reads as? -/
def isSealed (kind : Concrete.Kind) (field : Option Concrete.Field) : Bool :=
  kind == .ifStatement && field.isNone

mutual

/-- The reading without its positions, and without the parts of `if` statements. -/
def erase : Reading → Reading
  | ⟨kind, field, _, text, node, operands, children⟩ =>
    { kind, field
      start := .origin
      text := if isSealed kind field then "" else text
      node := node.map Node.erase
      operands := operands.map Node.erase
      children := if isSealed kind field then [] else eraseAll children }

/-- The readings of a list without their positions. -/
def eraseAll : List Reading → List Reading
  | [] => []
  | r :: rest => r.erase :: eraseAll rest

end

/-- The parts of the reading are seen by others. -/
def Shows (r : Reading) : Prop := isSealed r.kind r.field = false

/-- Only `if` statements hide their parts. -/
theorem shows_of_kind {r : Reading} (h : r.kind ≠ .ifStatement) : r.Shows := by
  simp [Shows, isSealed, h]

/-- Who looks for a field looks at what is in it, so nothing in a field is hidden. -/
theorem shows_of_field {r : Reading} {field : Concrete.Field} (h : r.field = some field) :
    r.Shows := by
  simp [Shows, isSealed, h]

theorem eraseAll_eq (rs : List Reading) : eraseAll rs = rs.map erase := by
  induction rs with
  | nil => rfl
  | cons r rest ih => rw [eraseAll, ih, List.map_cons]

/-- What is lost: the position, and the text and the children of what is sealed. -/
theorem erase_eq (r : Reading) :
    r.erase =
      { kind := r.kind
        field := r.field
        start := .origin
        text := if isSealed r.kind r.field then "" else r.text
        node := r.node.map Node.erase
        operands := r.operands.map Node.erase
        children := if isSealed r.kind r.field then [] else r.children.map erase } := by
  cases r
  rw [erase, eraseAll_eq]

@[simp] theorem erase_kind (r : Reading) : r.erase.kind = r.kind := by
  rw [erase_eq]

@[simp] theorem erase_field (r : Reading) : r.erase.field = r.field := by
  rw [erase_eq]

@[simp] theorem erase_start (r : Reading) : r.erase.start = .origin := by
  rw [erase_eq]

@[simp] theorem erase_node (r : Reading) : r.erase.node = r.node.map Node.erase := by
  rw [erase_eq]

@[simp] theorem erase_operands (r : Reading) : r.erase.operands = r.operands.map Node.erase := by
  rw [erase_eq]

/-- A text that others may ask for stays. -/
theorem erase_text {r : Reading} (h : r.Shows) : r.erase.text = r.text := by
  rw [erase_eq]
  exact if_neg (by simpa [Shows] using h)

/-- The children that others may look at are still there. -/
theorem erase_children_of_shows {r : Reading} (h : r.Shows) :
    r.erase.children = r.children.map erase := by
  rw [erase_eq]
  exact if_neg (by simpa [Shows] using h)

/-! ### Looking at erased children -/

/-- The child of a field is found by the field alone. -/
@[simp] theorem field?_erase (field : Concrete.Field) (rs : List Reading) :
    field? field (rs.map erase) = (field? field rs).map erase := by
  rw [field?, field?, List.find?_map]
  congr 2
  funext r
  simp

/-- What is found in a field shows its parts, so its text and its children can be asked for. -/
theorem shows_of_field? {field : Concrete.Field} {rs : List Reading} {r : Reading}
    (h : field? field rs = some r) : r.Shows := by
  have hfield := List.find?_some (p := fun r : Reading => r.field == some field) h
  exact shows_of_field (beq_iff_eq.mp hfield)

@[simp] theorem fields_erase (field : Concrete.Field) (rs : List Reading) :
    fields field (rs.map erase) = (fields field rs).map erase := by
  rw [fields, fields, List.filter_map]
  congr 2
  funext r
  simp

theorem shows_of_mem_fields {field : Concrete.Field} {rs : List Reading} {r : Reading}
    (h : r ∈ fields field rs) : r.Shows :=
  shows_of_field (beq_iff_eq.mp (List.mem_filter.mp h).2)

/-- Named children are told from tokens by their kind. -/
@[simp] theorem named_erase (rs : List Reading) :
    named (rs.map erase) = (named rs).map erase := by
  rw [named, named, List.filter_map]
  congr 2
  funext r
  simp

/-- What the named children read as, in order. -/
@[simp] theorem nodes_erase (rs : List Reading) :
    nodes (rs.map erase) = (nodes rs).map Node.erase := by
  rw [nodes, nodes, named_erase, List.filterMap_map, List.map_filterMap]
  congr 1
  funext r
  simp

@[simp] theorem fieldNode_erase (field : Concrete.Field) (rs : List Reading) :
    fieldNode field (rs.map erase) = (fieldNode field rs).map Node.erase := by
  rw [fieldNode, fieldNode, field?_erase]
  cases field? field rs with
  | none => rfl
  | some r =>
    cases hnode : r.node <;> simp [hnode]

/-- The text of a field can be asked for, as what stands in a field is never sealed. -/
@[simp] theorem fieldText_erase (field : Concrete.Field) (rs : List Reading) :
    fieldText field (rs.map erase) = fieldText field rs := by
  rw [fieldText, fieldText, field?_erase]
  cases h : field? field rs with
  | none => rfl
  | some r => simp [erase_text (shows_of_field? h)]

@[simp] theorem firstNamed?_erase (rs : List Reading) :
    firstNamed? (rs.map erase) = (firstNamed? rs).map erase := by
  rw [firstNamed?, firstNamed?, named_erase, List.find?_map]
  congr 2
  funext r
  simp

/-- A statement that stands in place of a block reads as a block with this statement. -/
theorem block_of_ne {r : Reading} (hkind : r.kind ≠ .block) (fallback : Position) :
    block (some r) fallback = .plain .block r.start r.node.toList := by
  rw [block]
  split
  · next h _ => exact absurd h hkind
  · rfl

/-- The fallback is the position of a block that is missing, and so it does not matter. -/
@[simp] theorem block_erase (child : Option Reading) (fallback : Position) :
    block (child.map erase) .origin = (block child fallback).erase := by
  cases child with
  | none => rfl
  | some r =>
    by_cases hkind : r.kind = .block
    · cases hnode : r.node <;> simp [block, hkind, hnode]
    · rw [Option.map_some, block_of_ne hkind, block_of_ne (by simpa using hkind)]
      cases hnode : r.node <;> simp [hnode]

/-- An `async` is a token, and tokens show their text. -/
@[simp] theorem startsWithAsync_erase (rs : List Reading) :
    startsWithAsync (rs.map erase) = startsWithAsync rs := by
  cases rs with
  | nil => rfl
  | cons first rest =>
    rw [List.map_cons, startsWithAsync, startsWithAsync, erase_kind]
    by_cases hkind : first.kind = .token
    · rw [erase_text (shows_of_kind (by simp [hkind]))]
    · rw [beq_eq_false_iff_ne.mpr hkind, Bool.false_and, Bool.false_and]

/-! ### Parameters -/

mutual

/-- The name of a parameter is the first identifier in the patterns around it. The induction goes
through these patterns. -/
theorem parameterName_erase : (r : Reading) → r.Shows → parameterName r.erase = parameterName r
  | ⟨kind, field, start, text, node, operands, children⟩, h => by
    have hsealed : isSealed kind field = false := h
    rw [erase, hsealed, parameterName, parameterName, eraseAll_eq]
    simp only [Bool.false_eq_true, if_false, parameterNameIn_erase children]

theorem parameterNameIn_erase :
    (rs : List Reading) → parameterNameIn (rs.map erase) = parameterNameIn rs
  | [] => rfl
  | child :: rest => by
    rw [List.map_cons, parameterNameIn, parameterNameIn, erase_kind, parameterNameIn_erase rest]
    split
    · next h =>
      -- Only identifiers and patterns are entered, and a statement is neither.
      refine parameterName_erase child (shows_of_kind fun hkind => ?_)
      rw [hkind] at h
      exact absurd h (by decide)
    · rfl

end

/-- A parameter reads as the same argument, whatever form it has. -/
@[simp] theorem parameterArgument_erase (r : Reading) :
    parameterArgument r.erase = (parameterArgument r).map Node.erase := by
  by_cases hkind : r.kind = .ifStatement
  · simp [parameterArgument, hkind]
  · have hshows : r.Shows := shows_of_kind hkind
    have hname : parameterName (((field? .name r.children).map erase).getD r.erase)
        = parameterName ((field? .name r.children).getD r) := by
      cases hfield : field? .name r.children with
      | none => exact parameterName_erase r hshows
      | some inner => exact parameterName_erase inner (shows_of_field? hfield)
    simp only [parameterArgument, erase_kind, erase_start, erase_text hshows,
      erase_children_of_shows hshows, parameterName_erase r hshows, field?_erase, hname,
      fieldNode_erase]
    split <;> simp

/-- A parameter has the same default value. -/
@[simp] theorem parameterDefault_erase (r : Reading) :
    parameterDefault r.erase = (parameterDefault r).map Node.erase := by
  by_cases hkind : r.kind = .ifStatement
  · simp [parameterDefault, hkind]
  · simp only [parameterDefault, erase_kind, erase_children_of_shows (shows_of_kind hkind),
      fieldNode_erase]
    split <;> rfl

/-- The arguments and, behind them, the default values. -/
theorem parameterNodes_erase {params : Option Reading} (h : ∀ p ∈ params, p.Shows) :
    parameterNodes (params.map erase) = (parameterNodes params).map Node.erase := by
  cases params with
  | none => rfl
  | some p =>
    simp [parameterNodes, erase_children_of_shows (h p rfl), List.flatMap_map, List.map_flatMap]

/-! ### Statements -/

/-- The clauses of an `if`, by induction on them. The branch that has been reached is general, as
each `elif` starts the next one. -/
theorem ifChain_erase (start : Position) (condition : List Node) (consequence : Node)
    (alternatives : List Reading) (h : ∀ r ∈ alternatives, r.Shows) :
    ifChain .origin (condition.map Node.erase) consequence.erase (alternatives.map erase)
      = (ifChain start condition consequence alternatives).erase := by
  induction alternatives generalizing start condition consequence with
  | nil => simp [ifChain]
  | cons next rest ih =>
    obtain ⟨hnext, hrest⟩ := List.forall_mem_cons.mp h
    rw [List.map_cons, ifChain, ifChain, erase_kind, erase_start, erase_children_of_shows hnext]
    -- An `elif` goes on with the chain, whatever position the chain has reached.
    by_cases hkind : next.kind = .elifClause
    · simp [hkind, ← ih next.start _ _ hrest, ← block_erase _ next.start]
    · simp [hkind, ← block_erase _ next.start]

/-- The block of an `else` behind a loop. -/
@[simp] theorem loopElse_erase (rs : List Reading) :
    loopElse (rs.map erase) = (loopElse rs).map Node.erase := by
  rw [loopElse, loopElse, field?_erase]
  cases h : field? .alternative rs with
  | none => rfl
  | some clause => simp [erase_children_of_shows (shows_of_field? h), ← block_erase _ clause.start]

/-- A clause of a `try`. No field holds the block of a `finally`: it is looked for by its kind. -/
@[simp] theorem tryClause_erase (clause : Reading) :
    tryClause clause.erase = (tryClause clause).map Node.erase := by
  by_cases hkind : clause.kind = .ifStatement
  · simp [tryClause, hkind]
  · have hbody : ((named clause.children).map erase).find? (·.kind == .block)
        = ((named clause.children).find? (·.kind == .block)).map erase := by
      rw [List.find?_map]
      congr 2
      funext r
      simp
    simp only [tryClause, erase_kind, erase_start, erase_children_of_shows (shows_of_kind hkind),
      nodes_erase, field?_erase, named_erase, hbody]
    split <;> simp [← block_erase _ clause.start]

/-- A decorator stands where its expression stands. -/
@[simp] theorem decoratorNode_erase (expression : Reading) :
    decoratorNode expression.erase = (decoratorNode expression).map Node.erase := by
  rw [decoratorNode, decoratorNode, erase_node]
  cases expression.node <;> simp

/-- The expressions of the decorators. -/
theorem expressions_erase (rs : List Reading) :
    ((named (rs.map erase)).filter (·.kind == .decorator)).filterMap
        (fun d => firstNamed? d.children)
      = (((named rs).filter (·.kind == .decorator)).filterMap
          fun d => firstNamed? d.children).map erase := by
  rw [named_erase]
  induction named rs with
  | nil => rfl
  | cons d rest ih =>
    by_cases hkind : d.kind = .decorator
    · have hshows : d.Shows := shows_of_kind (by simp [hkind])
      simp only [List.map_cons, List.filter_cons, erase_kind, hkind, beq_self_eq_true, if_true,
        List.filterMap_cons, erase_children_of_shows hshows, firstNamed?_erase, ih]
      cases firstNamed? d.children <;> rfl
    · simpa [List.filter_cons, hkind] using ih

/-- All decorators are read, or one of them has no expression that reads as anything, in both cases.
-/
theorem mapM_decoratorNode_erase (rs : List Reading) :
    (rs.map erase).mapM decoratorNode = (rs.mapM decoratorNode).map (·.map Node.erase) := by
  induction rs with
  | nil => rfl
  | cons r rest ih =>
    rw [List.map_cons, List.mapM_cons, List.mapM_cons, decoratorNode_erase, ih]
    cases decoratorNode r with
    | none => rfl
    | some node => cases rest.mapM decoratorNode <;> rfl

/-- A decorated definition: the decorators come in front of its own children. -/
@[simp] theorem decorate_erase (rs : List Reading) :
    decorate (rs.map erase) = (decorate rs).map Node.erase := by
  simp only [decorate, expressions_erase, mapM_decoratorNode_erase, field?_erase]
  cases (((named rs).filter (·.kind == .decorator)).filterMap
    fun d => firstNamed? d.children).mapM decoratorNode with
  | none => rfl
  | some decorators =>
    cases field? .definition rs with
    | none => rfl
    | some r =>
      cases hnode : r.node with
      | none => simp [hnode]
      | some definition => simp [hnode, Node.erase_eq]

/-! ### Expressions -/

/-- The operator of a chain is a text in a field. -/
@[simp] theorem operator?_erase (rs : List Reading) : operator? (rs.map erase) = operator? rs := by
  rw [operator?, operator?, field?_erase]
  cases h : field? .operator rs with
  | none => rfl
  | some r => simp [erase_text (shows_of_field? h)]

@[simp] theorem operator_erase (rs : List Reading) : operator (rs.map erase) = operator rs := by
  rw [operator, operator, operator?_erase]

/-- A side with the operator of the chain gives its operands, and another one what it reads as. -/
theorem sideOperands_erase (operator : String) {side : Option Reading}
    (h : ∀ r ∈ side, r.Shows) :
    sideOperands operator (side.map erase) = (sideOperands operator side).map Node.erase := by
  cases side with
  | none => rfl
  | some r =>
    simp only [sideOperands, Option.map_some, erase_kind, erase_children_of_shows (h r rfl),
      operator?_erase, erase_operands, erase_node]
    split
    · rfl
    · cases r.node <;> rfl

/-- The operands of a chain that leans to either side. -/
@[simp] theorem chainOperands_erase (rs : List Reading) :
    chainOperands (rs.map erase) = (chainOperands rs).map Node.erase := by
  simp only [chainOperands, operator_erase, field?_erase, List.map_append]
  rw [sideOperands_erase _ fun r h => shows_of_field? h,
    sideOperands_erase _ fun r h => shows_of_field? h]

mutual

/-- The dotted name of what is called. The induction goes through the attributes to the first name.
-/
theorem dottedPath_erase : (r : Reading) → r.Shows → dottedPath r.erase = dottedPath r
  | ⟨kind, field, start, text, node, operands, children⟩, h => by
    have hsealed : isSealed kind field = false := h
    rw [erase, hsealed, eraseAll_eq, if_neg (by decide), if_neg (by decide)]
    by_cases hname : kind = .identifier
    · subst hname
      rw [dottedPath, dottedPath]
    by_cases hattribute : kind = .attribute
    · subst hattribute
      rw [dottedPath, dottedPath, objectPath_erase children, field?_erase]
      cases hfield : field? .attribute children with
      | none => rfl
      | some r =>
        have htext := erase_text (shows_of_field? hfield)
        simp only [Option.map_some, bind, Option.bind, htext]
    · rw [dottedPath, dottedPath]
      all_goals assumption

theorem objectPath_erase :
    (rs : List Reading) → dottedPath.objectPath (rs.map erase) = dottedPath.objectPath rs
  | [] => rfl
  | child :: rest => by
    rw [List.map_cons, dottedPath.objectPath, dottedPath.objectPath, erase_field,
      objectPath_erase rest]
    split
    · next h => exact dottedPath_erase child (shows_of_field (beq_iff_eq.mp h))
    · rfl

end

/-- The name that a call has, if what is called is a path. -/
theorem dottedPath_field?_erase (field : Concrete.Field) (rs : List Reading) :
    ((field? field rs).map erase).bind dottedPath = (field? field rs).bind dottedPath := by
  cases h : field? field rs with
  | none => rfl
  | some r => exact dottedPath_erase r (shows_of_field? h)

theorem arguments_erase (rs : List Reading) :
    (((field? .arguments rs).map erase).map fun a => nodes a.children).getD []
      = (((field? .arguments rs).map fun a => nodes a.children).getD []).map Node.erase := by
  cases h : field? .arguments rs with
  | none => rfl
  | some r => simp [erase_children_of_shows (shows_of_field? h)]

/-- A return type stands where the type in it stands, so both positions are forgotten together. -/
theorem returns_erase (types : List Node) :
    (types.map Node.erase).map (fun type => Node.plain .returnType type.position [type])
      = (types.map fun type => Node.plain .returnType type.position [type]).map Node.erase := by
  simp

theorem bind_node_erase (r? : Option Reading) :
    (((r?.map erase).bind (·.node)).toList) = ((r?.bind (·.node)).toList).map Node.erase := by
  cases r? with
  | none => rfl
  | some r => cases hnode : r.node <;> simp [hnode]

/-! ### The rule for each kind -/

/-- **Reading commutes with forgetting.** -/
theorem read_erase (kind : Concrete.Kind) (start : Position) (text : String) (rs : List Reading) :
    read kind .origin text (rs.map erase) = (read kind start text rs).map Node.erase := by
  have hparameters : parameterNodes ((field? .parameters rs).map erase)
      = (parameterNodes (field? .parameters rs)).map Node.erase :=
    parameterNodes_erase fun p h => shows_of_field? h
  have hblock : ∀ field, block ((field? field rs).map erase) .origin
      = (block (field? field rs) start).erase := fun field => block_erase _ start
  have hchain := ifChain_erase start (fieldNode .condition rs)
    (block (field? .consequence rs) start) (fields .alternative rs) fun r h => shows_of_mem_fields h
  have hclauses : ((named rs).map erase).flatMap tryClause
      = ((named rs).flatMap tryClause).map Node.erase := by
    simp [List.flatMap_map, List.map_flatMap]
  unfold read
  split
  -- Parentheses and the wrapping of a type read as what stands in them.
  case h_4 | h_5 =>
    rw [firstNamed?_erase]
    cases firstNamed? rs <;> simp
  all_goals
    simp only [nodes_erase, decorate_erase, startsWithAsync_erase, fieldText_erase,
      fieldNode_erase, field?_erase, fields_erase, named_erase, loopElse_erase, operator_erase,
      chainOperands_erase, returns_erase, dottedPath_field?_erase, arguments_erase,
      bind_node_erase, hparameters, hblock, hchain, hclauses, Option.map_some, Option.map_none,
      Node.erase_plain, Node.erase_named, Node.erase_eq ⟨_, _, _, _⟩, List.map_append,
      List.map_cons, List.map_nil]

/-- **Readings agree if those of the children do**, wherever the nodes stand. -/
theorem erase_congr {kind : Concrete.Kind} {field : Option Concrete.Field} {text : String}
    {start start' stop stop' : Position} {children children' : List Concrete}
    (h : (ofConcretes children).map erase = (ofConcretes children').map erase) :
    (ofConcrete ⟨kind, field, start, stop, text, children⟩).erase
      = (ofConcrete ⟨kind, field, start', stop', text, children'⟩).erase := by
  have hnode : (read kind start text (ofConcretes children)).map Node.erase
      = (read kind start' text (ofConcretes children')).map Node.erase := by
    rw [← read_erase, ← read_erase, h]
  have hoperands :
      (if kind == .booleanOperator then chainOperands (ofConcretes children) else []).map Node.erase
        = (if kind == .booleanOperator then chainOperands (ofConcretes children')
          else []).map Node.erase := by
    split
    · rw [← chainOperands_erase, ← chainOperands_erase, h]
    · rfl
  rw [ofConcrete, ofConcrete, erase, erase, hnode, hoperands, eraseAll_eq, eraseAll_eq, h]

end Reading

end PyStyle
