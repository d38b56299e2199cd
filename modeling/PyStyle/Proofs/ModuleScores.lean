import Mathlib.Data.List.Basic
import PyStyle.Check.Complexity
import PyStyle.Proofs.VisitOrder

/-!
# Two checks, one set of scores

Functions are scored twice: one check visits them during the pass, and another one starts a
recursion of its own at each module. Whether a function is a method is read off the nodes above
it, and below a module both see the same ones:

- `NodeVisit.below` — the visits to the descendants of a node, as a run of the pass;
- `BelowFirst`, `below_eq` — the run holds the recursive visits below the node;
- `Check.collected` — the functions that the recursion scores, and which it takes for methods;
- `collected_eq_visits` — the recursion sees what visits from its start would see;
- `isMethod_under` — nodes above a module make no difference below it;
- `moduleScores_eq_visitScores` — the scores of a module are those of the visits below it.
-/

namespace PyStyle

/-! ### The visits below a node -/

/-- The visits below a visit: of the visits that come after it, the run of those that lie
deeper. -/
def NodeVisit.below (visit : NodeVisit) (after : List NodeVisit) : List NodeVisit :=
  after.takeWhile fun later => visit.parents.length < later.parents.length

mutual

/-- The ancestors of what is visited start with those of the root. -/
theorem Node.prefix_of_mem_visits (path : String) (ancestors : List Node) :
    (node : Node) → ∀ v ∈ node.visits path ancestors, ancestors <+: v.parents
  | ⟨_, _, _, children⟩ => by
    intro v hv
    rw [Node.visits] at hv
    rcases List.mem_cons.mp hv with rfl | hv
    · exact List.prefix_refl _
    · have h := Node.prefix_of_mem_visitsAll path _ children v hv
      exact (List.prefix_append _ _).trans h

theorem Node.prefix_of_mem_visitsAll (path : String) (ancestors : List Node) :
    (nodes : List Node) → ∀ v ∈ Node.visitsAll path ancestors nodes, ancestors <+: v.parents
  | [] => by
    intro v hv
    rw [Node.visitsAll] at hv
    cases hv
  | node :: rest => by
    intro v hv
    rw [Node.visitsAll] at hv
    rcases List.mem_append.mp hv with hv | hv
    · exact Node.prefix_of_mem_visits path ancestors node v hv
    · exact Node.prefix_of_mem_visitsAll path ancestors rest v hv

end

/-- What comes first among siblings lies directly below the ancestors. -/
theorem Node.parents_of_head_visitsAll {path : String} {ancestors nodes : List Node}
    {v : NodeVisit} (h : v ∈ (Node.visitsAll path ancestors nodes).head?) :
    v.parents = ancestors := by
  cases nodes with
  | nil =>
    rw [Node.visitsAll] at h
    cases h
  | cons node rest =>
    rw [Node.visitsAll, Node.visits_eq] at h
    cases h
    rfl

/-- After the visit at an index come the visits below it, and what comes then lies no deeper. -/
def BelowFirst (path : String) (visits : List NodeVisit) (index : Nat) (visit : NodeVisit) :
    Prop :=
  ∃ later, visits.drop (index + 1)
      = Node.visitsAll path (visit.parents ++ [visit.node]) visit.node.children ++ later
    ∧ ∀ v ∈ later.head?, v.parents.length ≤ visit.parents.length

mutual

theorem Node.belowFirst_visits (path : String) (ancestors : List Node) (index : Nat)
    (visit : NodeVisit) :
    (node : Node) → (node.visits path ancestors)[index]? = some visit →
      BelowFirst path (node.visits path ancestors) index visit
  | ⟨kind, name, position, children⟩ => by
    intro h
    rw [Node.visits] at h ⊢
    cases index with
    | zero =>
      cases h
      exact ⟨[], by simp, by simp⟩
    | succ index => exact Node.belowFirst_visitsAll path _ index visit children h

theorem Node.belowFirst_visitsAll (path : String) (ancestors : List Node) (index : Nat)
    (visit : NodeVisit) :
    (nodes : List Node) → (Node.visitsAll path ancestors nodes)[index]? = some visit →
      BelowFirst path (Node.visitsAll path ancestors nodes) index visit
  | [] => by
    intro h
    rw [Node.visitsAll] at h
    cases h
  | node :: rest => by
    intro h
    rw [Node.visitsAll] at h ⊢
    by_cases hindex : index < (node.visits path ancestors).length
    · rw [List.getElem?_append_left hindex] at h
      obtain ⟨later, hlater, hhead⟩ := Node.belowFirst_visits path ancestors index visit node h
      refine ⟨later ++ Node.visitsAll path ancestors rest, ?_, ?_⟩
      · rw [List.drop_append_of_le_length hindex, hlater, List.append_assoc]
      · intro v hv
        cases later with
        | nil =>
          -- The next sibling lies where the first one does, above all that is in it.
          rw [Node.parents_of_head_visitsAll hv]
          have hmem := List.mem_of_getElem? h
          exact (Node.prefix_of_mem_visits path ancestors node visit hmem).length_le
        | cons first later => exact hhead v hv
    · have hle := Nat.le_of_not_lt hindex
      rw [List.getElem?_append_right hle] at h
      obtain ⟨later, hlater, hhead⟩ :=
        Node.belowFirst_visitsAll path ancestors _ visit rest h
      refine ⟨later, ?_, hhead⟩
      rw [List.drop_append, List.drop_of_length_le (by omega), List.nil_append, ← hlater]
      congr 1
      omega

end

/-- **The run below a visit is the recursion below its node.** -/
theorem below_eq {unit : SourceUnit} {index : Nat} {visit : NodeVisit}
    (h : (nodeVisits unit)[index]? = some visit) :
    visit.below ((nodeVisits unit).drop (index + 1))
      = Node.visitsAll unit.path (visit.parents ++ [visit.node]) visit.node.children := by
  rw [nodeVisits_eq] at h ⊢
  obtain ⟨later, hlater, hhead⟩ := Node.belowFirst_visits unit.path [] index visit unit.tree h
  have hdeeper : ∀ v ∈ Node.visitsAll unit.path (visit.parents ++ [visit.node])
      visit.node.children, decide (visit.parents.length < v.parents.length) = true := by
    intro v hv
    have hle := (Node.prefix_of_mem_visitsAll unit.path _ visit.node.children v hv).length_le
    rw [List.length_append, List.length_singleton] at hle
    exact decide_eq_true hle
  rw [NodeVisit.below, hlater, List.takeWhile_append_of_pos hdeeper]
  cases later with
  | nil => rw [List.takeWhile_nil, List.append_nil]
  | cons first later =>
    have hfirst := hhead first rfl
    rw [List.takeWhile_cons_of_neg (by simpa using hfirst), List.append_nil]

/-! ### The recursion of the module check -/

namespace Check

mutual

/-- The functions scored in a subtree, each with whether it is taken for a method. -/
def collected (parent grandparent : Option Node) : Node → List (Node × Bool)
  | node@⟨kind, _, _, children⟩ =>
    (if kind.isFunction then [(node, isMethod parent grandparent)] else [])
      ++ collectedAll (some node) parent children

/-- The functions scored in subtrees side by side. -/
def collectedAll (parent grandparent : Option Node) : List Node → List (Node × Bool)
  | [] => []
  | node :: rest =>
    collected parent grandparent node ++ collectedAll parent grandparent rest

end

mutual

/-- The scores are those of the functions that are scored, and nothing else. -/
theorem functionScores_eq (parent grandparent : Option Node) :
    (node : Node) → functionScores parent grandparent node
      = (collected parent grandparent node).map fun entry => cognitiveScore entry.1 entry.2
  | ⟨kind, name, position, children⟩ => by
    rw [functionScores, collected, List.map_append, functionScoresAll_eq _ _ children]
    cases kind.isFunction <;> rfl

theorem functionScoresAll_eq (parent grandparent : Option Node) :
    (nodes : List Node) → functionScoresAll parent grandparent nodes
      = (collectedAll parent grandparent nodes).map fun entry => cognitiveScore entry.1 entry.2
  | [] => by
    rw [functionScoresAll, collectedAll, List.map_nil]
  | node :: rest => by
    rw [functionScoresAll, collectedAll, List.map_append, functionScores_eq _ _ node,
      functionScoresAll_eq _ _ rest]

end

/-- What a visit makes of a function. -/
def judged (v : NodeVisit) : Node × Bool :=
  (v.node, isMethod v.parent? v.grandparent?)

/-- The functions among visited nodes, as the visits judge them. -/
def judgedFunctions (visits : List NodeVisit) : List (Node × Bool) :=
  (visits.filter (·.node.kind.isFunction)).map judged

theorem judgedFunctions_append (xs ys : List NodeVisit) :
    judgedFunctions (xs ++ ys) = judgedFunctions xs ++ judgedFunctions ys := by
  simp [judgedFunctions]

theorem judgedFunctions_cons (v : NodeVisit) (visits : List NodeVisit) :
    judgedFunctions (v :: visits)
      = (if v.node.kind.isFunction then [judged v] else []) ++ judgedFunctions visits := by
  cases h : v.node.kind.isFunction <;> simp [judgedFunctions, h]

mutual

/-- **The recursion sees what visits from its start would see**: the two nodes handed down are the
last two ancestors. -/
theorem collected_eq_visits (path : String) (ancestors : List Node) :
    (node : Node) → collected ancestors.getLast? ancestors.dropLast.getLast? node
      = judgedFunctions (node.visits path ancestors)
  | ⟨kind, name, position, children⟩ => by
    have hchildren := collectedAll_eq_visits path
      (ancestors ++ [⟨kind, name, position, children⟩]) children
    rw [List.getLast?_concat, List.dropLast_concat] at hchildren
    rw [collected, Node.visits, judgedFunctions_cons, hchildren]
    rfl

theorem collectedAll_eq_visits (path : String) (ancestors : List Node) :
    (nodes : List Node) → collectedAll ancestors.getLast? ancestors.dropLast.getLast? nodes
      = judgedFunctions (Node.visitsAll path ancestors nodes)
  | [] => by
    rw [collectedAll, Node.visitsAll]
    rfl
  | node :: rest => by
    rw [collectedAll, Node.visitsAll, judgedFunctions_append,
      collected_eq_visits path ancestors node, collectedAll_eq_visits path ancestors rest]

end

/-! ### What lies above a module -/

/-- The visit with more ancestors on top. -/
def under (outer : List Node) (v : NodeVisit) : NodeVisit :=
  { v with parents := outer ++ v.parents }

mutual

theorem visits_under (path : String) (outer ancestors : List Node) :
    (node : Node) → node.visits path (outer ++ ancestors)
      = (node.visits path ancestors).map (under outer)
  | ⟨kind, name, position, children⟩ => by
    rw [Node.visits, Node.visits, List.map_cons, List.append_assoc,
      visitsAll_under path outer _ children]
    rfl

theorem visitsAll_under (path : String) (outer ancestors : List Node) :
    (nodes : List Node) → Node.visitsAll path (outer ++ ancestors) nodes
      = (Node.visitsAll path ancestors nodes).map (under outer)
  | [] => by
    rw [Node.visitsAll, Node.visitsAll, List.map_nil]
  | node :: rest => by
    rw [Node.visitsAll, Node.visitsAll, List.map_append, visits_under path outer ancestors node,
      visitsAll_under path outer ancestors rest]

end

/-- Nodes above a module make no difference below it: a child of the module is no method, and any
deeper node has its parent and grandparent at or below the module. -/
theorem isMethod_under {module : Node} (hkind : module.kind = .module) {v : NodeVisit}
    (hparents : [module] <+: v.parents) (outer : List Node) :
    isMethod (under outer v).parent? (under outer v).grandparent?
      = isMethod v.parent? v.grandparent? := by
  obtain ⟨inner, hinner⟩ := hparents
  have hne : module :: inner ≠ [] := List.cons_ne_nil _ _
  show isMethod (outer ++ v.parents).getLast? (outer ++ v.parents).dropLast.getLast?
    = isMethod v.parents.getLast? v.parents.dropLast.getLast?
  rw [← hinner, List.singleton_append, List.getLast?_append_of_ne_nil _ hne,
    List.dropLast_append_of_ne_nil hne]
  cases inner with
  | nil => simp [isMethod, hkind]
  | cons below inner =>
    -- There is a grandparent at or below the module, so the added nodes are not looked at.
    rw [List.dropLast_cons_cons, List.getLast?_append_of_ne_nil _ (List.cons_ne_nil _ _)]

theorem judgedFunctions_under {module : Node} (hkind : module.kind = .module) (path : String)
    (outer nodes : List Node) :
    judgedFunctions (Node.visitsAll path (outer ++ [module]) nodes)
      = judgedFunctions (Node.visitsAll path [module] nodes) := by
  rw [visitsAll_under, judgedFunctions, judgedFunctions, List.filter_map, List.map_map]
  refine List.map_congr_left fun v hv => ?_
  have hmem := List.mem_of_mem_filter hv
  have hprefix := Node.prefix_of_mem_visitsAll path [module] nodes v hmem
  exact Prod.ext rfl (isMethod_under hkind hprefix outer)

/-- What the recursion collects from a module is what the visits below it judge, wherever the
module stands. -/
theorem collected_module {module : Node} (hkind : module.kind = .module) (path : String)
    (outer : List Node) :
    collected none none module
      = judgedFunctions (Node.visitsAll path (outer ++ [module]) module.children) := by
  have hstart : collected none none module = judgedFunctions (module.visits path []) :=
    collected_eq_visits path [] module
  rw [hstart, Node.visits_eq, judgedFunctions_cons, judgedFunctions_under hkind path outer, hkind]
  rfl

end Check

/-! ### The two checks agree -/

mutual

theorem Node.map_node_visits (path : String) (ancestors : List Node) :
    (node : Node) → (node.visits path ancestors).map (·.node) = node.preorder
  | ⟨_, _, _, children⟩ => by
    rw [Node.visits, Node.preorder, List.map_cons, Node.map_node_visitsAll path _ children]

theorem Node.map_node_visitsAll (path : String) (ancestors : List Node) :
    (nodes : List Node) →
      (Node.visitsAll path ancestors nodes).map (·.node) = Node.preorderAll nodes
  | [] => by
    rw [Node.visitsAll, Node.preorderAll, List.map_nil]
  | node :: rest => by
    rw [Node.visitsAll, Node.preorderAll, List.map_append,
      Node.map_node_visits path ancestors node, Node.map_node_visitsAll path ancestors rest]

end

/-- **Both checks score the same functions alike**: for every module that a pass visits, the run
of visits below it holds its descendants; the scores that the check of modules collects from it are
those of the functions in that run, one by one, and both checks take the same functions for
methods. -/
theorem moduleScores_eq_visitScores (limit : Nat) (unit : SourceUnit) (index : Nat)
    (visit : NodeVisit) (hvisit : (nodeVisits unit)[index]? = some visit)
    (hkind : visit.node.kind = .module) :
    let below := visit.below ((nodeVisits unit).drop (index + 1))
    let shown := below.filter (·.node.kind ∈ (Check.cognitiveComplexity limit).kinds)
    (visit :: below).map (·.node) = visit.node.preorder
      ∧ Check.functionScores none none visit.node = shown.map Check.visitScore
      ∧ Check.collected none none visit.node
        = shown.map fun v => (v.node, Check.isMethod v.parent? v.grandparent?) := by
  intro below shown
  have hbelow : below
      = Node.visitsAll unit.path (visit.parents ++ [visit.node]) visit.node.children :=
    below_eq hvisit
  have hshown : shown = below.filter (·.node.kind.isFunction) := by
    refine List.filter_congr fun v _ => ?_
    show decide (v.node.kind ∈ [.functionDef, .asyncFunctionDef]) = v.node.kind.isFunction
    cases v.node.kind <;> rfl
  have hcollected : Check.collected none none visit.node = shown.map Check.judged := by
    rw [hshown, hbelow, Check.collected_module hkind unit.path visit.parents]
    rfl
  refine ⟨?_, ?_, hcollected⟩
  · rw [List.map_cons, hbelow, Node.map_node_visitsAll, Node.preorder_eq]
  · rw [Check.functionScores_eq, hcollected, List.map_map]
    rfl

/-- A module in the body of a class, with a class of its own whose method calls itself. -/
def moduleInClass : SourceUnit :=
  let plain := fun kind => Node.plain kind ⟨1, 0⟩
  let method := Node.named .functionDef "f" ⟨1, 0⟩
    [plain .block [Node.named .call "self.f" ⟨1, 0⟩ []]]
  let inner := plain .module [plain .classDef [plain .block [method]], method]
  { path := "m.py"
    tree := plain .module [plain .classDef [plain .block [inner]]]
    tokens := [] }

/-- Below the inner module the first function is a method and the second one is not. -/
theorem moduleInClass_scores :
    ∃ visit, (nodeVisits moduleInClass)[3]? = some visit ∧ visit.node.kind = .module
      ∧ visit.parents.length = 3
      ∧ (Check.collected none none visit.node).map (·.2) = [true, false]
      ∧ Check.functionScores none none visit.node
        = ((visit.below ((nodeVisits moduleInClass).drop 4)).filter
            (·.node.kind ∈ (Check.cognitiveComplexity 0).kinds)).map Check.visitScore := by
  have hvisits := nodeVisits_eq moduleInClass
  have hvisit : (nodeVisits moduleInClass)[3]? = some (((moduleInClass.tree.visits "m.py" []).get
      ⟨3, by decide⟩)) := by
    rw [hvisits]
    rfl
  exact ⟨_, hvisit, rfl, rfl, rfl,
    (moduleScores_eq_visitScores 0 moduleInClass 3 _ hvisit rfl).2.1⟩

end PyStyle
