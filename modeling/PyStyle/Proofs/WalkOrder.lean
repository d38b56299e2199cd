import Mathlib.Data.Set.Card
import PyStyle.Check.TypeHint
import PyStyle.Complexity

/-!
# What a walk visits

A walk keeps the subtrees that it has not entered on a stack. It takes one off, and puts the
children of its root there instead, the first child on top. What it visits, and when, can be said
without the stack, by the places of the nodes in the tree:

- `Walk.next?`, `Walk.Yields` — one step of a walk, and the nodes of all its steps until it ends;
- `Walk.yields_iff` — every walk ends, and yields the pending subtrees in pre-order, the top of the
  stack first;
- `Node.at?`, `Node.addresses` — the node at an address, and all addresses of a tree;
- `Node.pairwise_addresses`, `Node.mem_addresses_iff` — they are in lexicographic order, so that
  none occurs twice, and none is missing;
- `Node.mem_walk_iff` — a walk comes to the nodes that have an address, and to no others;
- `walk_preorder` — the order of a walk, and what is found by walking.
-/

namespace PyStyle

/-! ### The stack -/

/-- A walk under way. -/
structure Walk where
  /-- The subtrees to be entered, the top of the stack last. -/
  stack : List Node

namespace Walk

/-- The walk that starts at a node. -/
def start (node : Node) : Walk :=
  ⟨[node]⟩

/-- The next node of a walk, and the walk behind it. The children are put on the stack from the
last to the first. -/
def next? (walk : Walk) : Option (Node × Walk) :=
  match walk.stack.getLast? with
  | none => none
  | some node => some (node, ⟨walk.stack.dropLast ++ node.children.reverse⟩)

/-- The walk comes to its end, and these are the nodes on its way. -/
inductive Yields : Walk → List Node → Prop
  | done {walk : Walk} (h : walk.next? = none) : Yields walk []
  | next {walk after : Walk} {node : Node} {nodes : List Node}
      (h : walk.next? = some (node, after)) (hafter : Yields after nodes) :
      Yields walk (node :: nodes)

/-- A walk comes to one end only. -/
theorem Yields.unique {walk : Walk} {nodes nodes' : List Node} (h : walk.Yields nodes)
    (h' : walk.Yields nodes') : nodes = nodes' := by
  induction h generalizing nodes' with
  | done hnone =>
    cases h' with
    | done => rfl
    | next hsome => rw [hnone] at hsome; cases hsome
  | next hsome _ ih =>
    cases h' with
    | done hnone => rw [hnone] at hsome; cases hsome
    | next hsome' hafter' =>
      rw [hsome] at hsome'
      cases hsome'
      rw [ih hafter']

/-- Seen from its top, a stack of pending subtrees is a worklist. -/
theorem next?_reverse_cons (node : Node) (rest : List Node) :
    next? ⟨(node :: rest).reverse⟩ = some (node, ⟨(node.children ++ rest).reverse⟩) := by
  simp [next?]

/-- The induction is on the worklist, whose subtrees get fewer nodes with every step. -/
theorem yields_walkPending (pending : List Node) :
    Yields ⟨pending.reverse⟩ (Node.walkPending pending) := by
  fun_induction Node.walkPending pending with
  | case1 => exact .done rfl
  | case2 node rest ih => exact .next (next?_reverse_cons node rest) ih

/-- **Every walk ends**, and has visited the pending subtrees in pre-order by then. -/
theorem yields_iff (walk : Walk) (nodes : List Node) :
    walk.Yields nodes ↔ nodes = Node.preorderAll walk.stack.reverse := by
  have hyields : walk.Yields (Node.preorderAll walk.stack.reverse) := by
    have h := yields_walkPending walk.stack.reverse
    rwa [List.reverse_reverse, Node.walkPending_eq] at h
  constructor
  · intro h
    exact h.unique hyields
  · rintro rfl
    exact hyields

end Walk

/-! ### Addresses -/

namespace Node

/-- The node at an address, which tells the places of the children on the way down. -/
def at? (node : Node) : List Nat → Option Node
  | [] => some node
  | place :: address =>
    match node.children[place]? with
    | none => none
    | some child => child.at? address

mutual

/-- All addresses of a tree. -/
def addresses : Node → List (List Nat)
  | ⟨_, _, _, children⟩ => [] :: addressesFrom 0 children

/-- The addresses that start with the place of one of the given children. -/
def addressesFrom (place : Nat) : List Node → List (List Nat)
  | [] => []
  | child :: rest => child.addresses.map (place :: ·) ++ addressesFrom (place + 1) rest

end

/-- What the children from a place on have at an address. -/
def childAt? (children : List Node) (place : Nat) : List Nat → Option Node
  | [] => none
  | i :: address => if i < place then none else children[i - place]?.bind (·.at? address)

theorem at?_eq_childAt? (node : Node) {address : List Nat} (h : address ≠ []) :
    node.at? address = childAt? node.children 0 address := by
  cases address with
  | nil => exact absurd rfl h
  | cons place address =>
    rw [at?, childAt?, if_neg (Nat.not_lt_zero place), Nat.sub_zero]
    cases node.children[place]? <;> rfl

theorem childAt?_here (child : Node) (rest : List Node) (place : Nat) (address : List Nat) :
    childAt? (child :: rest) place (place :: address) = child.at? address := by
  simp [childAt?]

theorem childAt?_later (child : Node) (rest : List Node) {place i : Nat} (h : place < i)
    (address : List Nat) :
    childAt? (child :: rest) place (i :: address) = childAt? rest (place + 1) (i :: address) := by
  obtain ⟨k, rfl⟩ := Nat.exists_eq_add_of_lt h
  rw [childAt?, childAt?, if_neg (by omega), if_neg (by omega),
    show place + k + 1 - place = k + 1 by omega, show place + k + 1 - (place + 1) = k by omega,
    List.getElem?_cons_succ]

/-- The addresses of the children from a place on start with a place that is no earlier. -/
theorem exists_of_mem_addressesFrom {place : Nat} {children : List Node} {address : List Nat}
    (h : address ∈ addressesFrom place children) :
    ∃ i below, place ≤ i ∧ address = i :: below := by
  induction children generalizing place with
  | nil =>
    rw [addressesFrom] at h
    cases h
  | cons child rest ih =>
    rw [addressesFrom, List.mem_append, List.mem_map] at h
    rcases h with ⟨below, -, rfl⟩ | h
    · exact ⟨place, below, Nat.le_refl place, rfl⟩
    · obtain ⟨i, below, hi, rfl⟩ := ih h
      exact ⟨i, below, Nat.le_of_succ_le hi, rfl⟩

mutual

/-- **The addresses are in lexicographic order**: a node comes before what is below it, and what
is below a node before what is below its later siblings. -/
theorem pairwise_addresses : (node : Node) → node.addresses.Pairwise (· < ·)
  | ⟨_, _, _, children⟩ => by
    rw [addresses, List.pairwise_cons]
    refine ⟨fun address h => ?_, pairwise_addressesFrom 0 children⟩
    obtain ⟨i, below, -, rfl⟩ := exists_of_mem_addressesFrom h
    exact List.nil_lt_cons i below

theorem pairwise_addressesFrom (place : Nat) :
    (children : List Node) → (addressesFrom place children).Pairwise (· < ·)
  | [] => by
    rw [addressesFrom]
    exact List.Pairwise.nil
  | child :: rest => by
    rw [addressesFrom, List.pairwise_append, List.pairwise_map]
    refine ⟨?_, pairwise_addressesFrom (place + 1) rest, ?_⟩
    · refine (pairwise_addresses child).imp fun h => ?_
      exact List.cons_lt_cons_self.mpr h
    · intro address h later hlater
      obtain ⟨below, -, rfl⟩ := List.mem_map.mp h
      obtain ⟨i, below', hi, rfl⟩ := exists_of_mem_addressesFrom hlater
      exact List.cons_lt_cons_iff.mpr (.inl hi)

end

theorem nodup_addresses (node : Node) : node.addresses.Nodup := by
  refine (pairwise_addresses node).imp ?_
  rintro address _ h rfl
  exact List.lt_irrefl address h

mutual

/-- The nodes at the addresses are those of the tree in pre-order. -/
theorem map_at?_addresses : (node : Node) → node.addresses.map node.at? = node.preorder.map some
  | ⟨kind, name, position, children⟩ => by
    have hchildren : (addressesFrom 0 children).map (at? ⟨kind, name, position, children⟩)
        = (addressesFrom 0 children).map (childAt? children 0) := by
      refine List.map_congr_left fun address h => at?_eq_childAt? _ ?_
      obtain ⟨i, below, -, rfl⟩ := exists_of_mem_addressesFrom h
      exact List.cons_ne_nil i below
    rw [addresses, preorder, List.map_cons, List.map_cons, hchildren,
      map_childAt?_addressesFrom 0 children]
    rfl

theorem map_childAt?_addressesFrom (place : Nat) :
    (children : List Node) →
      (addressesFrom place children).map (childAt? children place)
        = (preorderAll children).map some
  | [] => by
    rw [addressesFrom, preorderAll]
    rfl
  | child :: rest => by
    have hlater : (addressesFrom (place + 1) rest).map (childAt? (child :: rest) place)
        = (addressesFrom (place + 1) rest).map (childAt? rest (place + 1)) := by
      refine List.map_congr_left fun address h => ?_
      obtain ⟨i, below, hi, rfl⟩ := exists_of_mem_addressesFrom h
      exact childAt?_later child rest hi below
    rw [addressesFrom, preorderAll, List.map_append, List.map_append, List.map_map, hlater,
      map_childAt?_addressesFrom (place + 1) rest, ← map_at?_addresses child]
    refine congrArg (· ++ _) (List.map_congr_left fun address _ => ?_)
    exact childAt?_here child rest place address

end

mutual

/-- **No address is missing.** -/
theorem mem_addresses_of_isSome : (node : Node) → ∀ address, (node.at? address).isSome →
    address ∈ node.addresses
  | ⟨_, _, _, children⟩ => by
    intro address h
    rw [addresses]
    by_cases hnil : address = []
    · exact hnil ▸ List.mem_cons_self
    · rw [at?_eq_childAt? _ hnil] at h
      exact List.mem_cons_of_mem _ (mem_addressesFrom_of_isSome 0 children address h)

theorem mem_addressesFrom_of_isSome (place : Nat) : (children : List Node) →
    ∀ address, (childAt? children place address).isSome → address ∈ addressesFrom place children
  | [] => by
    intro address h
    cases address with
    | nil => cases h
    | cons i below => simp [childAt?] at h
  | child :: rest => by
    intro address h
    rw [addressesFrom, List.mem_append, List.mem_map]
    cases address with
    | nil => cases h
    | cons i below =>
      rcases Nat.lt_trichotomy i place with hi | rfl | hi
      · simp [childAt?, hi] at h
      · rw [childAt?_here] at h
        exact .inl ⟨below, mem_addresses_of_isSome child below h, rfl⟩
      · rw [childAt?_later _ _ hi] at h
        exact .inr (mem_addressesFrom_of_isSome (place + 1) rest _ h)

end

theorem mem_addresses_iff {node : Node} {address : List Nat} :
    address ∈ node.addresses ↔ (node.at? address).isSome := by
  refine ⟨fun h => ?_, mem_addresses_of_isSome node address⟩
  have hmem : node.at? address ∈ node.addresses.map node.at? := List.mem_map_of_mem h
  rw [map_at?_addresses] at hmem
  obtain ⟨below, -, hbelow⟩ := List.mem_map.mp hmem
  rw [← hbelow]
  rfl

/-- **A walk comes to every node that has an address**, and to no others. -/
theorem mem_walk_iff {node below : Node} :
    below ∈ node.walk ↔ ∃ address, node.at? address = some below := by
  have hsome : below ∈ node.walk ↔ some below ∈ node.addresses.map node.at? := by
    rw [map_at?_addresses, walk_eq_preorder]
    simp
  rw [hsome, List.mem_map]
  constructor
  · rintro ⟨address, -, h⟩
    exact ⟨address, h⟩
  · rintro ⟨address, h⟩
    exact ⟨address, mem_addresses_iff.mpr (by rw [h]; rfl), h⟩

/-- Counting along a walk counts places in the tree. -/
theorem ncard_addresses (node : Node) (p : Node → Bool) :
    {address | ∃ below, node.at? address = some below ∧ p below}.ncard
      = (node.walk.filter p).length := by
  have hset : {address | ∃ below, node.at? address = some below ∧ p below}
      = ((node.addresses.filter fun address => (node.at? address).any p).toFinset : Set _) := by
    ext address
    simp only [Set.mem_ofPred_eq, List.coe_toFinset, List.mem_filter, mem_addresses_iff]
    cases node.at? address <;> simp
  have hcount : node.addresses.countP (fun address => (node.at? address).any p)
      = node.walk.countP p := by
    rw [walk_eq_preorder, ← Function.comp_def (Option.any p), ← List.countP_map,
      map_at?_addresses, List.countP_map]
    rfl
  rw [hset, Set.ncard_coe_finset, List.toFinset_card_of_nodup (node.nodup_addresses.filter _),
    ← List.countP_eq_length_filter, ← List.countP_eq_length_filter, hcount]

end Node

/-! ### What is found by walking -/

theorem countBoolOps_eq_ncard (node : Node) :
    countBoolOps node
      = {address | ∃ chain, node.at? address = some chain ∧ chain.kind = .boolOp}.ncard := by
  rw [countBoolOps, ← Node.ncard_addresses]
  simp only [beq_iff_eq]

theorem isRecursive_iff (function : Node) (isMethod : Bool) :
    isRecursive function isMethod
      ↔ ∃ name, function.name = some name
        ∧ ∃ address call callee, function.at? address = some call
          ∧ call.kind = .call ∧ call.name = some callee
          ∧ (callee = name ∨ isMethod ∧ callee = "self." ++ name) := by
  unfold isRecursive
  cases hname : function.name with
  | none => simp
  | some name =>
    simp only [List.any_eq_true, List.mem_filterMap, List.mem_filter, Node.mem_walk_iff,
      beq_iff_eq, Bool.or_eq_true, Bool.and_eq_true, Option.some.injEq]
    constructor
    · rintro ⟨callee, ⟨call, ⟨⟨address, hcall⟩, hkind⟩, hcallee⟩, hself⟩
      exact ⟨name, rfl, address, call, callee, hcall, hkind, hcallee, hself⟩
    · rintro ⟨_, rfl, address, call, callee, hcall, hkind, hcallee, hself⟩
      exact ⟨callee, ⟨call, ⟨⟨address, hcall⟩, hkind⟩, hcallee⟩, hself⟩

theorem spansLines_iff (node : Node) :
    Check.spansLines node
      ↔ ∃ address below, node.at? address = some below
        ∧ below.position.line ≠ node.position.line := by
  simp only [Check.spansLines, List.any_eq_true, Node.mem_walk_iff, bne_iff_ne]
  constructor
  · rintro ⟨below, ⟨address, hbelow⟩, hline⟩
    exact ⟨address, below, hbelow, hline⟩
  · rintro ⟨address, below, hbelow, hline⟩
    exact ⟨below, ⟨address, hbelow⟩, hline⟩

/-- **A walk is the pre-order of the tree.** The stack runs empty, with the nodes of the tree taken
from it in the order of the recursion: those at all addresses, each once, in lexicographic order, in
which a node comes before its children and the subtree of an earlier sibling before that of a later
one. So the boolean chains are counted once each, a call counts as recursion and a line as another
one wherever in the subtree it stands, and nowhere else. -/
theorem walk_preorder (node : Node) :
    (∀ nodes, (Walk.start node).Yields nodes ↔ nodes = node.walk)
      ∧ node.walk = node.preorder
      ∧ (∃ addresses : List (List Nat), addresses.Pairwise (· < ·)
        ∧ (∀ address, address ∈ addresses ↔ (node.at? address).isSome)
        ∧ addresses.map node.at? = node.walk.map some)
      ∧ countBoolOps node
        = {address | ∃ chain, node.at? address = some chain ∧ chain.kind = .boolOp}.ncard
      ∧ (∀ isMethod : Bool, isRecursive node isMethod
        ↔ ∃ name, node.name = some name
          ∧ ∃ address call callee, node.at? address = some call
            ∧ call.kind = .call ∧ call.name = some callee
            ∧ (callee = name ∨ isMethod ∧ callee = "self." ++ name))
      ∧ (Check.spansLines node
        ↔ ∃ address below, node.at? address = some below
          ∧ below.position.line ≠ node.position.line) := by
  refine ⟨fun nodes => ?_, node.walk_eq_preorder, ?_, countBoolOps_eq_ncard node,
    isRecursive_iff node, spansLines_iff node⟩
  · rw [Walk.yields_iff, Node.walk, Node.walkPending_eq]
    rfl
  · refine ⟨node.addresses, node.pairwise_addresses, fun _ => Node.mem_addresses_iff, ?_⟩
    rw [node.map_at?_addresses, node.walk_eq_preorder]

end PyStyle
