import Mathlib.Data.List.Basic
import PyStyle.Analysis

/-!
# The order of a pass

A pass works off a stack of pending subtrees, each with its depth, and keeps the path to the
node visited last; checks are found through routes. None of this shows in what a pass does:

- `Node.visits` — the nodes of a tree with their ancestors, by recursion over the tree;
- `schedule` — who is shown what, and when, said without stack, depths and routes;
- `Stacked` — the invariant of the stack: pending depths never grow towards the bottom, and
  the path is long enough for all of them;
- `nodeVisitsFrom_eq` — under the invariant, the pending subtrees are visited in pre-order,
  each below its true ancestors;
- `analyze_eq_schedule` — a report is what the visits of the schedule emit, one after the other.
-/

namespace PyStyle

/-! ### The order, by recursion -/

mutual

/-- The visits to a node below `ancestors` and to its descendants: the node before its
children, an earlier sibling's subtree before a later one's. -/
def Node.visits (path : String) (ancestors : List Node) : Node → List NodeVisit
  | node@⟨_, _, _, children⟩ =>
    ⟨path, node, ancestors⟩ :: Node.visitsAll path (ancestors ++ [node]) children

/-- The visits to siblings below `ancestors` and to their descendants. -/
def Node.visitsAll (path : String) (ancestors : List Node) : List Node → List NodeVisit
  | [] => []
  | node :: rest => node.visits path ancestors ++ Node.visitsAll path ancestors rest

end

theorem Node.visits_eq (path : String) (ancestors : List Node) (node : Node) :
    node.visits path ancestors
      = ⟨path, node, ancestors⟩ :: Node.visitsAll path (ancestors ++ [node]) node.children := by
  cases node
  rw [Node.visits]

theorem Node.visitsAll_eq_flatMap (path : String) (ancestors : List Node) (nodes : List Node) :
    Node.visitsAll path ancestors nodes = nodes.flatMap (·.visits path ancestors) := by
  induction nodes with
  | nil => rw [Node.visitsAll, List.flatMap_nil]
  | cons node rest ih => rw [Node.visitsAll, ih, List.flatMap_cons]

/-- The visit to the token at an index. -/
def Token.visitAt (path : String) (tokens : List Token) (token : Token) (index : Nat) :
    TokenVisit :=
  ⟨path, (tokens.take index).reverse, token, tokens.drop (index + 1)⟩

/-! ### Who is shown what, and when -/

/-- One check is shown one element. -/
inductive CheckVisit where
  | node (check : NodeCheck) (visit : NodeVisit)
  | token (check : TokenCheck) (visit : TokenVisit)

/-- What the check does with the element it is shown. -/
def CheckVisit.outcome (catalog : Catalog) : CheckVisit → Outcome
  | .node check visit => .of catalog check.name visit.node.position (check.visit visit)
  | .token check visit => .of catalog check.name visit.token.position (check.visit visit)

/-- The check, if it visits nodes. -/
def Registration.nodeCheck? : Registration → Option NodeCheck
  | .node check => some check
  | .token _ => none

/-- The check, if it visits tokens. -/
def Registration.tokenCheck? : Registration → Option TokenCheck
  | .node _ => none
  | .token check => some check

/-- A node is shown, in the order of registration, to the checks that list its kind. -/
def nodeSchedule (registrations : List Registration) (visit : NodeVisit) : List CheckVisit :=
  ((registrations.filterMap (·.nodeCheck?)).filter (visit.node.kind ∈ ·.kinds)).map
    (.node · visit)

/-- A token is shown, in the order of registration, to the checks that list its kind. -/
def tokenSchedule (registrations : List Registration) (visit : TokenVisit) : List CheckVisit :=
  ((registrations.filterMap (·.tokenCheck?)).filter (visit.token.kind ∈ ·.kinds)).map
    (.token · visit)

/-- The visits of a pass: to the nodes in pre-order, then to the tokens by index. -/
def schedule (registrations : List Registration) (unit : SourceUnit) : List CheckVisit :=
  (unit.tree.visits unit.path []).flatMap (nodeSchedule registrations)
    ++ unit.tokens.zipIdx.flatMap fun (token, index) =>
      tokenSchedule registrations (token.visitAt unit.path unit.tokens index)

/-! ### Routes lead to the checks that list the kind -/

/-- Sign up a member, if there is one, for the kinds it lists. -/
def Roster.addSome {Kind Member : Type} [DecidableEq Kind] (kinds : Member → List Kind)
    (roster : Roster Kind Member) : Option Member → Roster Kind Member
  | some member => roster.add (kinds member) member
  | none => roster

/-- After any sequence of registrations, the members called for a kind are those that list
it, in the order of registration. -/
theorem Roster.membersFor_foldl {Kind Member Entry : Type} [DecidableEq Kind]
    (kinds : Member → List Kind) (member? : Entry → Option Member) (kind : Kind)
    (entries : List Entry) (roster : Roster Kind Member) :
    (entries.foldl (fun roster entry => roster.addSome kinds (member? entry)) roster).membersFor
        kind
      = roster.membersFor kind ++ (entries.filterMap member?).filter (kind ∈ kinds ·) := by
  induction entries generalizing roster with
  | nil => simp
  | cons entry entries ih =>
    rw [List.foldl_cons, ih]
    cases h : member? entry with
    | none => simp [h, Roster.addSome]
    | some member =>
      rw [Roster.addSome, Roster.membersFor_add, List.append_assoc, List.filterMap_cons, h]
      by_cases hk : kind ∈ kinds member <;> simp [hk]

theorem nodes_register (registry : Registry) (registration : Registration) :
    (registry.register registration).nodes
      = registry.nodes.addSome (·.kinds) registration.nodeCheck? := by
  cases registration <;> rfl

theorem tokens_register (registry : Registry) (registration : Registration) :
    (registry.register registration).tokens
      = registry.tokens.addSome (·.kinds) registration.tokenCheck? := by
  cases registration <;> rfl

theorem nodeChecksFor_ofList (registrations : List Registration) (kind : NodeKind) :
    (Registry.ofList registrations).nodeChecksFor kind
      = (registrations.filterMap (·.nodeCheck?)).filter (kind ∈ ·.kinds) := by
  have hnodes : registrations.foldl
        (fun roster r => roster.addSome (·.kinds) r.nodeCheck?) Registry.empty.nodes
      = (Registry.ofList registrations).nodes :=
    List.foldl_hom Registry.nodes fun registry r => (nodes_register registry r).symm
  rw [Registry.nodeChecksFor, ← hnodes, Roster.membersFor_foldl]
  rfl

theorem tokenChecksFor_ofList (registrations : List Registration) (kind : TokenKind) :
    (Registry.ofList registrations).tokenChecksFor kind
      = (registrations.filterMap (·.tokenCheck?)).filter (kind ∈ ·.kinds) := by
  have htokens : registrations.foldl
        (fun roster r => roster.addSome (·.kinds) r.tokenCheck?) Registry.empty.tokens
      = (Registry.ofList registrations).tokens :=
    List.foldl_hom Registry.tokens fun registry r => (tokens_register registry r).symm
  rw [Registry.tokenChecksFor, ← htokens, Roster.membersFor_foldl]
  rfl

/-- What the checks do on a node is what they do on the visits scheduled for it. -/
theorem nodeOutcomes_ofList (catalog : Catalog) (registrations : List Registration)
    (visit : NodeVisit) :
    nodeOutcomes catalog (.ofList registrations) visit
      = (nodeSchedule registrations visit).map (·.outcome catalog) := by
  rw [nodeOutcomes, nodeChecksFor_ofList, nodeSchedule, List.map_map]
  rfl

/-- What the checks do on a token is what they do on the visits scheduled for it. -/
theorem tokenOutcomes_ofList (catalog : Catalog) (registrations : List Registration)
    (visit : TokenVisit) :
    tokenOutcomes catalog (.ofList registrations) visit
      = (tokenSchedule registrations visit).map (·.outcome catalog) := by
  rw [tokenOutcomes, tokenChecksFor_ofList, tokenSchedule, List.map_map]
  rfl

/-! ### The stack of pending subtrees -/

/-- The invariant of the stack: no entry lies deeper than the one above it, and the path to
the node visited last holds the ancestors of all of them. -/
structure Stacked (parents : List Node) (pending : List (Node × Nat)) : Prop where
  depth_le : ∀ entry ∈ pending, entry.2 ≤ parents.length
  sorted : pending.Pairwise fun upper lower => lower.2 ≤ upper.2

/-- Entering the top subtree keeps the invariant: its children come to lie on the stack one
level deeper, and the path is cut back to its ancestors before it grows by the node itself. -/
theorem Stacked.enter {parents : List Node} {node : Node} {depth : Nat}
    {rest : List (Node × Nat)} (h : Stacked parents ((node, depth) :: rest)) :
    Stacked (parents.take depth ++ [node]) (atDepth (depth + 1) node.children ++ rest) := by
  have hdepth : depth ≤ parents.length := h.depth_le (node, depth) List.mem_cons_self
  have hlength : (parents.take depth ++ [node]).length = depth + 1 := by
    simp [Nat.min_eq_left hdepth]
  have hchildren : ∀ entry ∈ atDepth (depth + 1) node.children, entry.2 = depth + 1 := by
    intro entry hentry
    obtain ⟨child, _, rfl⟩ := List.mem_map.mp hentry
    rfl
  have hrest : ∀ entry ∈ rest, entry.2 ≤ depth := (List.pairwise_cons.mp h.sorted).1
  constructor
  · intro entry hentry
    rw [hlength]
    rcases List.mem_append.mp hentry with hc | hr
    · exact Nat.le_of_eq (hchildren entry hc)
    · exact Nat.le_succ_of_le (hrest entry hr)
  · -- The children lie at one depth, and what was below their parent lies no deeper.
    refine List.pairwise_append.mpr ⟨?_, (List.pairwise_cons.mp h.sorted).2, ?_⟩
    · refine List.pairwise_of_forall_mem_list fun upper hu lower hl => ?_
      exact Nat.le_of_eq ((hchildren lower hl).trans (hchildren upper hu).symm)
    · intro upper hu lower hl
      rw [hchildren upper hu]
      exact Nat.le_succ_of_le (hrest lower hl)

/-- **The stack visits in pre-order**: what is still to come is, for each pending subtree from
the top down, the recursive visits below the ancestors that the path holds for its depth. -/
theorem nodeVisitsFrom_eq (path : String) (parents : List Node) (pending : List (Node × Nat))
    (h : Stacked parents pending) :
    nodeVisitsFrom path parents pending
      = pending.flatMap fun entry => entry.1.visits path (parents.take entry.2) := by
  -- The induction follows the machine: one step enters the top subtree.
  fun_induction nodeVisitsFrom path parents pending with
  | case1 parents => rfl
  | case2 parents node depth rest ancestors ih =>
    have hdepth : depth ≤ parents.length := h.depth_le (node, depth) List.mem_cons_self
    have hlength : ancestors.length = depth := List.length_take_of_le hdepth
    have hchildren : (atDepth (depth + 1) node.children).flatMap
          (fun entry => entry.1.visits path ((ancestors ++ [node]).take entry.2))
        = Node.visitsAll path (ancestors ++ [node]) node.children := by
      rw [Node.visitsAll_eq_flatMap, atDepth, List.flatMap_map]
      refine List.flatMap_congr fun child _ => ?_
      rw [List.take_of_length_le (by simp [hlength])]
    -- The entries below see the same ancestors as before: the path was cut no shorter.
    have hrest : rest.flatMap
          (fun entry => entry.1.visits path ((ancestors ++ [node]).take entry.2))
        = rest.flatMap fun entry => entry.1.visits path (parents.take entry.2) := by
      refine List.flatMap_congr fun entry hentry => ?_
      have hle : entry.2 ≤ depth := (List.pairwise_cons.mp h.sorted).1 entry hentry
      rw [List.take_append_of_le_length (by rw [hlength]; exact hle), List.take_take,
        Nat.min_eq_left hle]
    rw [ih h.enter, List.flatMap_append, hchildren, hrest, List.flatMap_cons, Node.visits_eq]
    rfl

theorem nodeVisits_eq (unit : SourceUnit) :
    nodeVisits unit = unit.tree.visits unit.path [] := by
  have hstart : Stacked [] [(unit.tree, 0)] := ⟨by simp, by simp⟩
  rw [nodeVisits, nodeVisitsFrom_eq _ _ _ hstart]
  simp

/-! ### The pass over the tokens -/

/-- Each token is visited with everything before it, the nearest first, and everything
behind it. -/
theorem tokenVisitsFrom_eq (path : String) (before tokens : List Token) :
    tokenVisitsFrom path before tokens
      = (tokens.zipIdx before.length).map fun (token, index) =>
        token.visitAt path (before.reverse ++ tokens) index := by
  induction tokens generalizing before with
  | nil => rfl
  | cons token rest ih =>
    have hshift : (token :: before).reverse ++ rest = before.reverse ++ token :: rest := by
      simp
    rw [tokenVisitsFrom, ih, List.zipIdx_cons, List.map_cons, hshift, List.length_cons]
    congr 1
    simp [Token.visitAt, List.drop_append]

theorem tokenVisits_eq (unit : SourceUnit) :
    tokenVisits unit
      = unit.tokens.zipIdx.map fun (token, index) =>
        token.visitAt unit.path unit.tokens index :=
  tokenVisitsFrom_eq unit.path [] unit.tokens

/-! ### The whole pass -/

theorem outcomes_ofList (catalog : Catalog) (registrations : List Registration)
    (unit : SourceUnit) :
    outcomes catalog (.ofList registrations) unit
      = (schedule registrations unit).map (·.outcome catalog) := by
  rw [outcomes, schedule, nodeVisits_eq, tokenVisits_eq, List.map_append, List.map_flatMap,
    List.map_flatMap, List.flatMap_map]
  congr 1
  · exact List.flatMap_congr fun visit _ => nodeOutcomes_ofList catalog registrations visit
  · exact List.flatMap_congr fun entry _ => tokenOutcomes_ofList catalog registrations _

end PyStyle
