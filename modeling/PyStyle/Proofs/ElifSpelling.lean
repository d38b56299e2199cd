import Mathlib.Data.List.Forall2
import PyStyle.Proofs.ErasedPositions

/-!
# `elif` and `else: if` are one thing

An `elif` can be written as an `if` that stands alone in the block of an `else`. In the syntax tree
the two spellings differ in positions only, so nothing that is computed from the shape of the tree
can tell them apart.

- `Concrete.Respells` — one program is another one with some of its `elif`s spelled out, anywhere;
- `Concrete.RespellsIf` — the same for two `if` statements;
- `Concrete.elseIfs` — an `if` statement with all its `elif`s spelled out;
- `Node.Agrees` — trees that differ in positions only, and what follows for the scores;
- `elif_agrees_elseIf` — both spellings read as trees that agree.
-/

namespace PyStyle

/-! ### Spellings -/

namespace Concrete

/-- The clauses behind the first branch of an `if`. -/
def alternatives (c : Concrete) : List Concrete :=
  c.children.filter (·.field == some .alternative)

/-- The trees of the list have the role of clauses behind a branch. -/
def AreClauses (cs : List Concrete) : Prop :=
  ∀ a ∈ cs, a.field = some .alternative

/-- The children that are grammar rules and no comments. -/
def statements (c : Concrete) : List Concrete :=
  c.namedChildren.filter (·.kind != .comment)

mutual

/-- The second tree is the first one with some `elif`s spelled out, and anywhere in the text. -/
inductive Respells : Concrete → Concrete → Prop
  | node {kind : Kind} {field : Option Field} {text : String}
      {start stop start' stop' : Position} {children children' : List Concrete}
      (h : RespellsAll children children') :
      Respells ⟨kind, field, start, stop, text, children⟩
        ⟨kind, field, start', stop', text, children'⟩
  /-- An `if` among the statements of a program, which have no roles. -/
  | ifStatement {c c' : Concrete} (hkind : c.kind = .ifStatement) (hkind' : c'.kind = .ifStatement)
      (hfield : c.field = none) (hfield' : c'.field = none)
      (h : RespellsBranch c c.alternatives c' c'.alternatives) : Respells c c'

/-- The trees of a list, one by one. -/
inductive RespellsAll : List Concrete → List Concrete → Prop
  | nil : RespellsAll [] []
  | cons {c c' : Concrete} {cs cs' : List Concrete} (h : Respells c c') (hs : RespellsAll cs cs') :
      RespellsAll (c :: cs) (c' :: cs')

/-- A branch with a condition, its consequence and the clauses that follow. -/
inductive RespellsBranch : Concrete → List Concrete → Concrete → List Concrete → Prop
  | intro {head head' : Concrete} {rest rest' : List Concrete}
      (hcondition : RespellsAll (head.field? .condition).toList (head'.field? .condition).toList)
      (hconsequence :
        RespellsAll (head.field? .consequence).toList (head'.field? .consequence).toList)
      (hrest : RespellsChain rest rest') : RespellsBranch head rest head' rest'

/-- The clauses behind a branch. -/
inductive RespellsChain : List Concrete → List Concrete → Prop
  | nil : RespellsChain [] []
  | clause {next next' : Concrete} {rest rest' : List Concrete} (h : Respells next next')
      (hs : RespellsChain rest rest') : RespellsChain (next :: rest) (next' :: rest')
  /-- An `elif` with all that follows becomes an `else` whose block holds just one `if`. -/
  | nest {elif clause body inner : Concrete} {rest : List Concrete}
      (helif : elif.kind = .elifClause) (hclause : clause.kind = .elseClause)
      (hbody : clause.field? .body = some body) (hblock : body.kind = .block)
      (honly : body.statements = [inner]) (hinner : inner.kind = .ifStatement)
      (h : RespellsBranch elif rest inner inner.alternatives) :
      RespellsChain (elif :: rest) [clause]

end

/-- The second `if` statement is the first one with some `elif`s spelled out. -/
def RespellsIf (c c' : Concrete) : Prop :=
  c.kind = .ifStatement ∧ c'.kind = .ifStatement
    ∧ RespellsBranch c c.alternatives c' c'.alternatives

/-! ### All `elif`s spelled out -/

/-- The children that are no clauses behind a branch. -/
def branch (c : Concrete) : List Concrete :=
  c.children.filter (·.field != some .alternative)

/-- The clauses with every `elif` spelled out. -/
def spellOut : List Concrete → List Concrete
  | [] => []
  | next :: rest =>
    if next.kind = .elifClause then
      let inner : Concrete :=
        { next with kind := .ifStatement, field := none, children := next.branch ++ spellOut rest }
      let body : Concrete := { next with kind := .block, field := some .body, children := [inner] }
      [{ next with kind := .elseClause, children := [body] }]
    else next :: rest

/-- The `if` statement with every `elif` spelled out. -/
def elseIfs (c : Concrete) : Concrete :=
  { c with children := c.branch ++ spellOut c.alternatives }

mutual

theorem Respells.refl : (c : Concrete) → Respells c c
  | ⟨_, _, _, _, _, children⟩ => .node (RespellsAll.refl children)

theorem RespellsAll.refl : (cs : List Concrete) → RespellsAll cs cs
  | [] => .nil
  | c :: cs => .cons (Respells.refl c) (RespellsAll.refl cs)

end

theorem RespellsChain.refl (cs : List Concrete) : RespellsChain cs cs := by
  induction cs with
  | nil => exact .nil
  | cons c cs ih => exact .clause (Respells.refl c) ih

/-- The role of a clause is how it is found. -/
theorem areClauses_alternatives (c : Concrete) : AreClauses c.alternatives :=
  fun _ h => beq_iff_eq.mp (List.mem_filter.mp h).2

/-- An `elif` that is spelled out leaves an `else`, which is a clause as well. -/
theorem areClauses_spellOut {cs : List Concrete} (h : AreClauses cs) :
    AreClauses (spellOut cs) := by
  cases cs with
  | nil => exact h
  | cons next rest =>
    rw [spellOut]
    split
    · intro a ha
      rw [List.mem_singleton.mp ha]
      exact h next (List.mem_cons_self ..)
    · exact h

/-- Clauses that are added do not change what is found in another role. -/
theorem field?_branch_append {field : Field} (hfield : field ≠ .alternative) (c : Concrete)
    {clauses : List Concrete} (h : AreClauses clauses) :
    (c.branch ++ clauses).find? (·.field == some field) = c.field? field := by
  have hnone : clauses.find? (·.field == some field) = none := by
    rw [List.find?_eq_none]
    intro a ha
    rw [h a ha]
    simpa using Ne.symm hfield
  rw [List.find?_append, hnone, Option.or_none, branch, List.find?_filter, Concrete.field?]
  congr 1
  funext a
  by_cases ha : a.field = some field
  · simp [ha, hfield]
  · simp [ha]

/-- Clauses that are put in the place of the old ones are found again. -/
theorem alternatives_branch_append (c : Concrete) {clauses : List Concrete}
    (h : AreClauses clauses) :
    (c.branch ++ clauses).filter (·.field == some .alternative) = clauses := by
  rw [List.filter_append, branch, List.filter_filter]
  have hnone : (c.children.filter fun a =>
      a.field == some .alternative && a.field != some .alternative) = [] := by
    rw [List.filter_eq_nil_iff]
    intro a _
    simp
  rw [hnone, List.nil_append, List.filter_eq_self]
  intro a ha
  rw [h a ha]
  rfl

/-- Only the clauses behind a branch are spelled in another way, so the rest of the branch is the
same. -/
theorem respellsBranch_of_children {c c' : Concrete} {rest clauses : List Concrete}
    (hchildren : c'.children = c.branch ++ clauses) (hclauses : AreClauses clauses)
    (hrest : RespellsChain rest clauses) :
    RespellsBranch c rest c' c'.alternatives := by
  have hfield : ∀ field, field ≠ .alternative → c'.field? field = c.field? field := by
    intro field hne
    rw [Concrete.field?, hchildren]
    exact field?_branch_append hne c hclauses
  have halternatives : c'.alternatives = clauses := by
    rw [alternatives, hchildren]
    exact alternatives_branch_append c hclauses
  rw [halternatives]
  refine .intro ?_ ?_ hrest
  · rw [hfield .condition (by decide)]
    exact RespellsAll.refl _
  · rw [hfield .consequence (by decide)]
    exact RespellsAll.refl _

/-- All clauses spelled out, by induction on them. -/
theorem respellsChain_spellOut {cs : List Concrete} (h : AreClauses cs) :
    RespellsChain cs (spellOut cs) := by
  induction cs with
  | nil => exact .nil
  | cons next rest ih =>
    have hrest : AreClauses rest := (List.forall_mem_cons.mp h).2
    rw [spellOut]
    split
    · next helif =>
      refine .nest helif rfl rfl rfl rfl rfl ?_
      exact respellsBranch_of_children rfl (areClauses_spellOut hrest) (ih hrest)
    · exact RespellsChain.refl _

/-- **An `if` statement can be spelled with no `elif` at all.** -/
theorem respellsIf_elseIfs {c : Concrete} (hkind : c.kind = .ifStatement) :
    RespellsIf c c.elseIfs := by
  have hclauses := c.areClauses_alternatives
  refine ⟨hkind, hkind, respellsBranch_of_children rfl ?_ ?_⟩
  · exact areClauses_spellOut hclauses
  · exact respellsChain_spellOut hclauses

end Concrete

/-! ### What both spellings read as -/

namespace Reading

theorem ofConcretes_eq (cs : List Concrete) : ofConcretes cs = cs.map ofConcrete := by
  induction cs with
  | nil => rfl
  | cons c cs ih => rw [ofConcretes, ih, List.map_cons]

/-- What a node is known by to those around it. -/
theorem ofConcrete_eq (c : Concrete) :
    ofConcrete c =
      { kind := c.kind
        field := c.field
        start := c.start
        text := c.text
        node := read c.kind c.start c.text (ofConcretes c.children)
        operands :=
          if c.kind == .booleanOperator then chainOperands (ofConcretes c.children) else []
        children := ofConcretes c.children } := by
  cases c
  rw [ofConcrete]

@[simp] theorem ofConcrete_kind (c : Concrete) : (ofConcrete c).kind = c.kind := by
  rw [ofConcrete_eq]

@[simp] theorem ofConcrete_field (c : Concrete) : (ofConcrete c).field = c.field := by
  rw [ofConcrete_eq]

@[simp] theorem ofConcrete_start (c : Concrete) : (ofConcrete c).start = c.start := by
  rw [ofConcrete_eq]

@[simp] theorem ofConcrete_children (c : Concrete) :
    (ofConcrete c).children = ofConcretes c.children := by
  rw [ofConcrete_eq]

theorem ofConcrete_node (c : Concrete) :
    (ofConcrete c).node = read c.kind c.start c.text (ofConcretes c.children) := by
  rw [ofConcrete_eq]

/-- A role is found in the concrete tree or among what its children read as. -/
theorem field?_ofConcretes (field : Concrete.Field) (c : Concrete) :
    field? field (ofConcretes c.children) = (c.field? field).map ofConcrete := by
  rw [ofConcretes_eq, field?, List.find?_map, Concrete.field?]
  congr 2
  funext child
  simp

theorem fields_ofConcretes (c : Concrete) :
    fields .alternative (ofConcretes c.children) = ofConcretes c.alternatives := by
  rw [ofConcretes_eq, ofConcretes_eq, fields, List.filter_map, Concrete.alternatives]
  congr 2
  funext child
  simp

theorem node_of_comment {c : Concrete} (h : c.kind = .comment) : (ofConcrete c).node = none := by
  rw [ofConcrete_node, h, read]

/-- Comments read as nothing. -/
theorem nodes_ofConcretes (c : Concrete) :
    nodes (ofConcretes c.children) = c.statements.filterMap fun s => (ofConcrete s).node := by
  rw [Concrete.statements, Concrete.namedChildren, ofConcretes_eq, nodes, named]
  induction c.children with
  | nil => rfl
  | cons child rest ih =>
    by_cases hnamed : child.kind.isNamed = true
    · by_cases hcomment : child.kind = .comment
      · simpa [hcomment, node_of_comment hcomment, List.filter_cons, List.filterMap_cons,
          Concrete.Kind.isNamed] using ih
      · simp [hnamed, hcomment, ih, List.filterMap_cons]
    · simpa [hnamed] using ih

/-- What stands behind the first branch of an `if`, as the block of its `else`. -/
def otherwise : List Reading → List Node
  | [] => []
  | next :: rest =>
    if next.kind == .elifClause then
      [.plain .block next.start
        [ifChain next.start (fieldNode .condition next.children)
          (block (field? .consequence next.children) next.start) rest]]
    else [block (field? .body next.children) next.start]

/-- The clauses behind the first branch come into the chain as one block at most. -/
theorem ifChain_eq (start : Position) (condition : List Node) (consequence : Node)
    (rest : List Reading) :
    ifChain start condition consequence rest
      = .plain .ifStmt start (condition ++ consequence :: otherwise rest) := by
  cases rest with
  | nil => rfl
  | cons next rest =>
    rw [ifChain, otherwise]
    split <;> rfl

/-- The `if` that a branch and the clauses behind it read as. -/
def branchNode (head : Concrete) (rest : List Concrete) : Node :=
  ifChain head.start (fieldNode .condition (ofConcretes head.children))
    (block (field? .consequence (ofConcretes head.children)) head.start) (ofConcretes rest)

/-- An `if` statement reads as its first branch with all its clauses. -/
theorem node_of_ifStatement {c : Concrete} (h : c.kind = .ifStatement) :
    (ofConcrete c).node = some (branchNode c c.alternatives) := by
  rw [ofConcrete_node, h, read, fields_ofConcretes, branchNode]

/-- Nothing but what it reads as is seen of an `if` statement that is in no field. -/
theorem erase_of_ifStatement {c : Concrete} (hkind : c.kind = .ifStatement)
    (hfield : c.field = none) :
    (ofConcrete c).erase
      = ⟨.ifStatement, none, .origin, "", some (branchNode c c.alternatives).erase, [], []⟩ := by
  have hnode := node_of_ifStatement hkind
  rw [erase_eq, hnode, ofConcrete_eq, hkind, hfield]
  rfl

/-- An `elif` reads as a block with just the `if` that it starts. -/
theorem otherwise_of_elif {next : Concrete} (h : next.kind = .elifClause) (rest : List Concrete) :
    otherwise (ofConcretes (next :: rest)) = [.plain .block next.start [branchNode next rest]] := by
  simp [ofConcretes, otherwise, h, branchNode]

/-- An `else` reads as its own block, and nothing comes behind it. -/
theorem otherwise_of_else {next : Concrete} (h : next.kind ≠ .elifClause) (rest : List Concrete) :
    otherwise (ofConcretes (next :: rest))
      = [block (field? .body (ofConcretes next.children)) next.start] := by
  simp [ofConcretes, otherwise, h]

/-- A block with a lone `if` in it. -/
theorem block_of_loneIf {body inner : Concrete} (hblock : body.kind = .block)
    (honly : body.statements = [inner]) (hinner : inner.kind = .ifStatement)
    (fallback : Position) :
    block (some (ofConcrete body)) fallback
      = .plain .block body.start [branchNode inner inner.alternatives] := by
  have hnode : (ofConcrete body).node
      = some (.plain .block body.start [branchNode inner inner.alternatives]) := by
    rw [ofConcrete_node, hblock, read, nodes_ofConcretes, honly]
    simp [node_of_ifStatement hinner]
  simp [block, hblock, hnode]

theorem fieldNode_congr {field : Concrete.Field} {rs rs' : List Reading}
    (h : (field? field rs).map erase = (field? field rs').map erase) :
    (fieldNode field rs).map Node.erase = (fieldNode field rs').map Node.erase := by
  rw [fieldNode, fieldNode, ← bind_node_erase, ← bind_node_erase, h]

theorem block_congr {child child' : Option Reading} (h : child.map erase = child'.map erase)
    (fallback fallback' : Position) :
    (block child fallback).erase = (block child' fallback').erase := by
  rw [← block_erase, ← block_erase, h]

theorem children_congr {r r' : Reading} (h : r.erase = r'.erase) (hshows : r.Shows)
    (hshows' : r'.Shows) : r.children.map erase = r'.children.map erase := by
  rw [← erase_children_of_shows hshows, ← erase_children_of_shows hshows', h]

/-- Branches read alike if their parts do. -/
theorem branchNode_erase {head head' : Concrete} {rest rest' : List Concrete}
    (hcondition : (fieldNode .condition (ofConcretes head.children)).map Node.erase
      = (fieldNode .condition (ofConcretes head'.children)).map Node.erase)
    (hconsequence : (block (field? .consequence (ofConcretes head.children)) head.start).erase
      = (block (field? .consequence (ofConcretes head'.children)) head'.start).erase)
    (hrest : (otherwise (ofConcretes rest)).map Node.erase
      = (otherwise (ofConcretes rest')).map Node.erase) :
    (branchNode head rest).erase = (branchNode head' rest').erase := by
  rw [branchNode, branchNode, ifChain_eq, ifChain_eq, Node.erase_plain, Node.erase_plain,
    List.map_append, List.map_append, List.map_cons, List.map_cons, hcondition, hconsequence, hrest]

/-- A clause and what follows it, given that both parts read alike. -/
theorem otherwise_congr {next next' : Concrete} {rest rest' : List Concrete}
    (hkind : next.kind = next'.kind)
    (hchildren : (ofConcretes next.children).map erase = (ofConcretes next'.children).map erase)
    (hrest : (otherwise (ofConcretes rest)).map Node.erase
      = (otherwise (ofConcretes rest')).map Node.erase) :
    (otherwise (ofConcretes (next :: rest))).map Node.erase
      = (otherwise (ofConcretes (next' :: rest'))).map Node.erase := by
  have hfield : ∀ field, (field? field (ofConcretes next.children)).map erase
      = (field? field (ofConcretes next'.children)).map erase := by
    intro field
    rw [← field?_erase, ← field?_erase, hchildren]
  by_cases helif : next.kind = .elifClause
  · have hbranch : (branchNode next rest).erase = (branchNode next' rest').erase :=
      branchNode_erase (fieldNode_congr (hfield .condition))
        (block_congr (hfield .consequence) _ _) hrest
    rw [otherwise_of_elif helif, otherwise_of_elif (hkind ▸ helif)]
    simp [hbranch]
  · have hblock := block_congr (hfield .body) next.start next'.start
    rw [otherwise_of_else helif, otherwise_of_else (hkind ▸ helif), List.map_singleton,
      List.map_singleton, hblock]

end Reading

namespace Concrete

open Reading (ofConcrete ofConcretes)

/-- One child or none, as a list. -/
theorem RespellsAll.option {x x' : Option Concrete}
    (h : (ofConcretes x.toList).map Reading.erase = (ofConcretes x'.toList).map Reading.erase) :
    (x.map ofConcrete).map Reading.erase = (x'.map ofConcrete).map Reading.erase := by
  cases x <;> cases x' <;> simp_all [Reading.ofConcretes_eq]

mutual

/-- **Both spellings read alike.** -/
theorem Respells.erase : ∀ {c c' : Concrete}, Respells c c' →
    (ofConcrete c).erase = (ofConcrete c').erase
  | _, _, .node h => Reading.erase_congr h.erase
  | c, c', .ifStatement hkind hkind' hfield hfield' h => by
    have hbranch := h.erase c.areClauses_alternatives c'.areClauses_alternatives
    rw [Reading.erase_of_ifStatement hkind hfield, Reading.erase_of_ifStatement hkind' hfield',
      hbranch]

theorem RespellsAll.erase : ∀ {cs cs' : List Concrete}, RespellsAll cs cs' →
    (ofConcretes cs).map Reading.erase = (ofConcretes cs').map Reading.erase
  | _, _, .nil => rfl
  | _, _, .cons h hs => by
    rw [ofConcretes, ofConcretes, List.map_cons, List.map_cons, h.erase, hs.erase]

theorem RespellsBranch.erase : ∀ {head head' : Concrete} {rest rest' : List Concrete},
    RespellsBranch head rest head' rest' → AreClauses rest → AreClauses rest' →
    (Reading.branchNode head rest).erase = (Reading.branchNode head' rest').erase
  | head, head', _, _, .intro hcondition hconsequence hrest, hclauses, hclauses' => by
    have hcondition := RespellsAll.option hcondition.erase
    have hconsequence := RespellsAll.option hconsequence.erase
    simp only [← Reading.field?_ofConcretes] at hcondition hconsequence
    exact Reading.branchNode_erase (Reading.fieldNode_congr hcondition)
      (Reading.block_congr hconsequence _ _) (hrest.erase hclauses hclauses')

theorem RespellsChain.erase : ∀ {cs cs' : List Concrete}, RespellsChain cs cs' →
    AreClauses cs → AreClauses cs' →
    (Reading.otherwise (ofConcretes cs)).map Node.erase
      = (Reading.otherwise (ofConcretes cs')).map Node.erase
  | _, _, .nil, _, _ => rfl
  | next :: rest, next' :: rest', .clause h hs, hclauses, hclauses' => by
    obtain ⟨hnext, hrest⟩ := List.forall_mem_cons.mp hclauses
    obtain ⟨hnext', hrest'⟩ := List.forall_mem_cons.mp hclauses'
    have hkind : next.kind = next'.kind := by
      simpa using congrArg Reading.kind h.erase
    have hshows : (ofConcrete next).Shows := Reading.shows_of_field (by simpa using hnext)
    have hshows' : (ofConcrete next').Shows := Reading.shows_of_field (by simpa using hnext')
    have hchildren := Reading.children_congr h.erase hshows hshows'
    simp only [Reading.ofConcrete_children] at hchildren
    -- A clause has a role, so that its parts are kept and can be compared.
    exact Reading.otherwise_congr hkind hchildren (hs.erase hrest hrest')
  | elif :: rest, [clause], .nest helif hclause hbody hblock honly hinner h, hclauses, _ => by
    -- On the left the chain makes the block itself; on the right it is a block that was read.
    have hbranch := h.erase (List.forall_mem_cons.mp hclauses).2 (areClauses_alternatives _)
    have helse : clause.kind ≠ .elifClause := by
      rw [hclause]
      decide
    rw [Reading.otherwise_of_elif helif, Reading.otherwise_of_else helse,
      Reading.field?_ofConcretes, hbody, Option.map_some,
      Reading.block_of_loneIf hblock honly hinner]
    simp [hbranch]

end

/-- So the trees differ in positions only. -/
theorem Respells.read_erase {c c' : Concrete} (h : Respells c c') :
    c.read.map Node.erase = c'.read.map Node.erase := by
  have hnode := congrArg Reading.node h.erase
  rwa [Reading.erase_node, Reading.erase_node] at hnode

/-- So do the trees of two modules. -/
theorem Respells.ofConcrete_erase {c c' : Concrete} (h : Respells c c')
    (hmodule : c.kind = .module) :
    (Node.ofConcrete c).erase = (Node.ofConcrete c').erase := by
  have hkind : c'.kind = .module := by
    have hkinds := congrArg Reading.kind h.erase
    rw [← hmodule]
    simpa using hkinds.symm
  have hchildren := Reading.children_congr h.erase
    (Reading.shows_of_kind (by simp [hmodule])) (Reading.shows_of_kind (by simp [hkind]))
  rw [Node.ofConcrete, Node.ofConcrete, Node.erase_plain, Node.erase_plain,
    ← Reading.nodes_erase, ← Reading.nodes_erase, hchildren]

end Concrete

/-! ### Scores -/

namespace Node

/-- The two nodes score alike, on any level and as functions. -/
def ScoresAlike (a b : Node) : Prop :=
  (∀ level, scoreNode level a = scoreNode level b)
    ∧ score a.body = score b.body
    ∧ ∀ isMethod, isRecursive a isMethod = isRecursive b isMethod
        ∧ cognitiveScore a isMethod = cognitiveScore b isMethod

/-- The two trees differ in positions only, and node by node they score alike. -/
def Agrees (a b : Node) : Prop :=
  a.erase = b.erase ∧ List.Forall₂ ScoresAlike a.walk b.walk

/-- No score looks at a position. -/
theorem scoresAlike_of_erase {a b : Node} (h : a.erase = b.erase) : ScoresAlike a b := by
  refine ⟨fun level => ?_, ?_, fun isMethod => ⟨?_, ?_⟩⟩
  · rw [← scoreNode_erase, h, scoreNode_erase]
  · rw [score, score, ← scoreAll_erase 0 a.body, ← scoreAll_erase 0 b.body, ← body_erase,
      ← body_erase, h]
  · rw [← isRecursive_erase, h, isRecursive_erase]
  · rw [← cognitiveScore_erase, h, cognitiveScore_erase]

/-- Trees that differ in positions only are visited in the same order, node by node. -/
theorem agrees_of_erase {a b : Node} (h : a.erase = b.erase) : a.Agrees b := by
  refine ⟨h, ?_⟩
  have hwalk : a.walk.map erase = b.walk.map erase := by
    rw [← walk_erase, ← walk_erase, h]
  have hpairs : List.Forall₂ (fun x y : Node => x.erase = y.erase) a.walk b.walk := by
    rw [← List.forall₂_map_right_iff, ← List.forall₂_map_left_iff, hwalk]
    exact List.forall₂_refl _
  exact hpairs.imp fun _ _ hpair => scoresAlike_of_erase hpair

theorem rel_agrees_of_erase {a? b? : Option Node} (h : a?.map erase = b?.map erase) :
    Option.Rel Agrees a? b? := by
  cases a? with
  | none =>
    cases b? with
    | none => exact .none
    | some b => cases h
  | some a =>
    cases b? with
    | none => cases h
    | some b => exact .some (agrees_of_erase (Option.some.inj h))

end Node

/-- **An `if` reads as an `if`**, whichever way its `elif`s are spelled. -/
theorem Concrete.RespellsIf.agrees {c c' : Concrete} (h : RespellsIf c c') :
    ∃ a b, c.read = some a ∧ c'.read = some b ∧ a.kind = .ifStmt ∧ b.kind = .ifStmt
      ∧ a.Agrees b := by
  obtain ⟨hkind, hkind', hbranch⟩ := h
  have hif (head : Concrete) (rest : List Concrete) :
      (Reading.branchNode head rest).kind = .ifStmt := by
    rw [Reading.branchNode, Reading.ifChain_eq]
    rfl
  exact ⟨_, _, Reading.node_of_ifStatement hkind, Reading.node_of_ifStatement hkind', hif _ _,
    hif _ _, Node.agrees_of_erase
      (hbranch.erase c.areClauses_alternatives c'.areClauses_alternatives)⟩

/-- **`elif` cannot be told from `else: if`.** An `if` statement with its `elif`s and the same one
with each `elif` as a lone `if` in the block of an `else` both read as an `if`, and these trees
agree: they differ in positions only and all their nodes score alike. So do `if` statements that are
each other's spelling wherever their parts stand, and whole programs that differ in such `if`
statements, at any depth. -/
theorem elif_agrees_elseIf :
    (∀ c : Concrete, c.kind = .ifStatement →
        ∃ a b, c.read = some a ∧ c.elseIfs.read = some b ∧ a.kind = .ifStmt ∧ b.kind = .ifStmt
          ∧ a.Agrees b)
      ∧ (∀ c c', Concrete.RespellsIf c c' →
        ∃ a b, c.read = some a ∧ c'.read = some b ∧ a.kind = .ifStmt ∧ b.kind = .ifStmt
          ∧ a.Agrees b)
      ∧ (∀ c c', Concrete.Respells c c' → Option.Rel Node.Agrees c.read c'.read)
      ∧ ∀ c c', Concrete.Respells c c' → c.kind = .module →
          Node.Agrees (Node.ofConcrete c) (Node.ofConcrete c') := by
  refine ⟨fun c hkind => ?_, fun c c' h => h.agrees, fun c c' h => ?_, fun c c' h hmodule => ?_⟩
  · exact (Concrete.respellsIf_elseIfs hkind).agrees
  · exact Node.rel_agrees_of_erase h.read_erase
  · exact Node.agrees_of_erase (h.ofConcrete_erase hmodule)

/-- A node at a place, in a role. -/
def Concrete.part (kind : Concrete.Kind) (field : Option Concrete.Field) (place : Position)
    (children : List Concrete) : Concrete :=
  { kind, field, start := place, stop := place, text := "", children }

/-- `if`, `elif`, `else`, each with a jump. -/
def Concrete.ladder : Concrete :=
  .part .ifStatement none ⟨1, 0⟩
    [.part .trueLiteral (some .condition) ⟨1, 3⟩ [],
     .part .block (some .consequence) ⟨1, 9⟩ [.part .breakStatement none ⟨1, 9⟩ []],
     .part .elifClause (some .alternative) ⟨2, 0⟩
       [.part .falseLiteral (some .condition) ⟨2, 5⟩ [],
        .part .block (some .consequence) ⟨2, 12⟩ [.part .continueStatement none ⟨2, 12⟩ []]],
     .part .elseClause (some .alternative) ⟨3, 0⟩
       [.part .block (some .body) ⟨3, 6⟩ [.part .raiseStatement none ⟨3, 6⟩ []]]]

/-- The ladder reads as three nested branches, and so does the one without `elif`. -/
theorem ladder_agrees :
    Concrete.ladder.alternatives.length = 2 ∧ Concrete.ladder.elseIfs.alternatives.length = 1
      ∧ (∃ a b, Concrete.ladder.read = some a ∧ Concrete.ladder.elseIfs.read = some b
        ∧ a.erase = Node.plain .ifStmt .origin
          [.plain .generic .origin [],
           .plain .block .origin [.plain .breakStmt .origin []],
           .plain .block .origin
             [.plain .ifStmt .origin
               [.plain .generic .origin [],
                .plain .block .origin [.plain .continueStmt .origin []],
                .plain .block .origin [.plain .raiseStmt .origin []]]]]
        ∧ a.Agrees b)
      ∧ Node.Agrees (Node.ofConcrete (.part .module none ⟨1, 0⟩ [Concrete.ladder]))
          (Node.ofConcrete (.part .module none ⟨1, 0⟩ [Concrete.ladder.elseIfs])) := by
  have hladder : Concrete.RespellsIf Concrete.ladder Concrete.ladder.elseIfs :=
    Concrete.respellsIf_elseIfs rfl
  obtain ⟨a, b, ha, hb, -, -, hagrees⟩ := elif_agrees_elseIf.1 Concrete.ladder rfl
  refine ⟨rfl, rfl, ⟨a, b, ha, hb, ?_, hagrees⟩, elif_agrees_elseIf.2.2.2 _ _ ?_ rfl⟩
  · cases ha
    rfl
  · exact .node (.cons (.ifStatement rfl rfl rfl rfl hladder.2.2) .nil)

end PyStyle
