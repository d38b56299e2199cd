import PyStyle.Proofs.FaithfulParts

/-!
# Reading keeps what is counted

One rule of the reader at a time it is shown that a node adds what it counts itself to what stands
below it; induction on the concrete tree does the rest.

- `Concrete.FaithfulBelow.functionDefinition`, `Concrete.FaithfulBelow.ifStatement`, … — one rule
  each;
- `Concrete.FaithfulBelow.kept` — the step: all rules together;
- `Concrete.faithful_of_mem` — by induction, everything in a tree is faithful;
- `constructs_conserved` — the counts of whole modules.
-/

namespace PyStyle

namespace Concrete

open Reading (ofConcrete ofConcretes)

variable {k : Construct} {c d : Concrete}

namespace FaithfulBelow

variable (h : FaithfulBelow k c)
include h

/-! ### Definitions -/

/-- A name does not count. -/
theorem identifierPart {role : Option Field}
    (hkind : ∀ d, c.partIn role = some d → d.kind = .identifier) :
    k.countAmong c (c.partIn role).toList = 0 := by
  cases hd : c.partIn role with
  | none => exact k.countAmong_nil c
  | some d => exact (h.child (mem_parts_of_partIn hd)).rule.countAmong_identifier (hkind d hd)

/-- The name of a definition does not count, nor do its type parameters. -/
theorem definitionName (hdef : c.kind = .functionDefinition ∨ c.kind = .classDefinition) :
    k.countAmong c (c.partIn (some .name)).toList = 0
      ∧ k.countAmong c (c.partIn none).toList = 0 := by
  constructor
  · refine h.identifierPart fun d hd => ?_
    have hallows := h.rule.allows hd
    rcases hdef with hkind | hkind <;>
      simpa [hkind, Kind.allows, Kind.rule?] using hallows
  · cases hd : c.partIn none with
    | none => exact k.countAmong_nil c
    | some d =>
      have hallows := h.rule.allows hd
      refine k.countAmong_of_unread ?_
      rcases hdef with hkind | hkind <;>
        simp_all [Kind.allows, Kind.rule?, unread, passesOver]

/-- The other parts of a definition are read on their own, but for parameters. -/
theorem definitionPart (hdef : c.kind = .functionDefinition ∨ c.kind = .classDefinition)
    {role : Field} (hrole : role ∈ [Field.returnType, .superclasses, .body]) :
    ∀ d ∈ c.partIn (some role), ReadAlone c d := by
  intro d hd
  have hallows := h.rule.allows hd
  have hkinds : d.kind = .type ∨ d.kind = .argumentList ∨ d.kind = .block := by
    simp only [List.mem_cons, List.not_mem_nil, or_false] at hrole
    rcases hdef with hkind | hkind <;> rcases hrole with rfl | rfl | rfl <;>
      simp_all [Kind.allows, Kind.rule?]
  rcases hkinds with hkind | hkind | hkind <;>
    exact ⟨by rw [hkind]; rfl, readIn_of_definition hdef (by rw [hkind]; decide)⟩

theorem functionDefinition (hkind : c.kind = .functionDefinition) : Kept k c := by
  have hroles : c.kind.roles?
      = some [some .name, none, some .parameters, some .returnType, some .body] := by
    rw [hkind]
    rfl
  obtain ⟨hname, htypes⟩ := h.definitionName (Or.inl hkind)
  have hparams := h.parameters fun d hd => by
    have hd : d.kind = .parameters := by
      simpa [hkind, Kind.allows, Kind.rule?] using h.rule.allows hd
    exact ⟨by rw [hd]; rfl, readIn_of_definition (Or.inl hkind) (by rw [hd]; decide)⟩
  have hreturns := h.readField .returnType (by decide) (h.definitionPart (Or.inl hkind) (by decide))
  have hreturnNodes : k.countAll ((c.readField .returnType).map fun type =>
      Node.plain .returnType type.position [type]) = k.countAll (c.readField .returnType) := by
    induction c.readField .returnType with
    | nil => rfl
    | cons type rest ih =>
      rw [List.map_cons, k.countAll_cons, k.countAll_cons, ih, k.countIn_around rfl]
  have hread := c.read_eq
  rw [hkind, Reading.read, fieldNode_eq] at hread
  refine .intro hread ?_ ?_
  · rw [hkind]
    show NodeKind.construct? (if _ then _ else _) = _
    split <;> rfl
  · show k.countAll (_ ++ _ ++ [_]) = _
    rw [k.countAll_append, k.countAll_append, hparams, hreturnNodes, hreturns, k.countAll_cons,
      h.blockOf .body (by decide) (h.definitionPart (Or.inl hkind) (by decide)),
      h.rule.countBelow_roles hroles]
    simp only [List.map_cons, List.map_nil, List.sum_cons, List.sum_nil, k.countAll_nil]
    omega

theorem classDefinition (hkind : c.kind = .classDefinition) : Kept k c := by
  have hroles : c.kind.roles? = some [some .name, none, some .superclasses, some .body] := by
    rw [hkind]
    rfl
  obtain ⟨hname, htypes⟩ := h.definitionName (Or.inr hkind)
  have hread := c.read_eq
  rw [hkind, Reading.read, fieldNode_eq] at hread
  refine .intro hread (by rw [hkind]; rfl) ?_
  show k.countAll (_ ++ [_]) = _
  rw [k.countAll_append, k.countAll_cons, k.countAll_nil,
    h.readField .superclasses (by decide) (h.definitionPart (Or.inr hkind) (by decide)),
    h.blockOf .body (by decide) (h.definitionPart (Or.inr hkind) (by decide)),
    h.rule.countBelow_roles hroles]
  simp only [List.map_cons, List.map_nil, List.sum_cons, List.sum_nil]
  omega

/-- What stands around another node counts as that one does. -/
theorem wrapped (hkind : c.kind.isWrapper = true) :
    ∃ inner tree, c.statements = [inner] ∧ inner.read = some tree
      ∧ k.countIn tree = k.countBelow unread c := by
  obtain ⟨inner, hstatements, hparts, halone⟩ := h.rule.wrapped_eq hkind
  have hreads : c.kind.readsAll = true := by
    generalize c.kind = kind at hkind ⊢
    cases kind <;> first | rfl | cases hkind
  have hinner : inner ∈ c.parts := by rw [hparts]; exact List.mem_singleton_self inner
  obtain ⟨tree, hread, hcount⟩ := (h.faithful hinner).node halone
  refine ⟨inner, tree, hstatements, hread, ?_⟩
  rw [hcount, h.rule.countBelow_eq, hparts, (readIn_of_readsAll hreads).countAmong]

theorem wrapper (hkind : c.kind = .parenthesizedExpression ∨ c.kind = .type) : Kept k c := by
  obtain ⟨inner, tree, hstatements, hread, hcount⟩ :=
    h.wrapped (by rcases hkind with hkind | hkind <;> rw [hkind] <;> rfl)
  have hfirst := firstNamed?_eq c
  rw [hstatements, List.head?_cons, Option.map_some] at hfirst
  refine ⟨tree, ?_, ?_⟩
  · rw [← hread, read_eq]
    rcases hkind with hkind | hkind <;> (simp only [hkind, Reading.read, hfirst]; rfl)
  · rw [hcount, k.weight_of_none (by rcases hkind with hkind | hkind <;> rw [hkind] <;> rfl),
      Nat.zero_add]

/-- By induction on the decorators, each has an expression that is read. -/
theorem decorators {marks : List Concrete} (hreads : c.kind.readsAll = true)
    (hmarks : ∀ mark ∈ marks, mark ∈ c.parts ∧ mark.kind = .decorator) :
    ∃ nodes, ((marks.map ofConcrete).filterMap fun r => Reading.firstNamed? r.children).mapM
        Reading.decoratorNode = some nodes
      ∧ k.countAll nodes = k.countAmong c marks := by
  induction marks with
  | nil => exact ⟨[], rfl, by rw [k.countAll_nil, k.countAmong_nil]⟩
  | cons mark marks ih =>
    obtain ⟨⟨hmem, hkind⟩, hmarks⟩ := List.forall_mem_cons.mp hmarks
    obtain ⟨nodes, hnodes, hcountNodes⟩ := ih hmarks
    obtain ⟨inner, tree, hstatements, hread, hcount⟩ :=
      (h.child hmem).wrapped (by rw [hkind]; rfl)
    have hfirst := firstNamed?_eq mark
    rw [hstatements, List.head?_cons, Option.map_some, ← Reading.ofConcrete_children] at hfirst
    have hnode : Reading.decoratorNode (ofConcrete inner)
        = some (.plain .decorator tree.position [tree]) := by
      rw [Reading.decoratorNode, show (ofConcrete inner).node = some tree from hread]
      rfl
    refine ⟨.plain .decorator tree.position [tree] :: nodes, ?_, ?_⟩
    · rw [List.map_cons, List.filterMap_cons, hfirst, List.mapM_cons, hnode, hnodes]
      rfl
    · rw [k.countAll_cons, k.countIn_around rfl, hcount, hcountNodes,
        k.countAmong_cons c mark marks, (readIn_of_readsAll hreads).countAmong,
        k.weight_of_none (by rw [hkind]; rfl), Nat.zero_add]

theorem decoratedDefinition (hkind : c.kind = .decoratedDefinition) : Kept k c := by
  obtain ⟨marks, rest, hparts, hmarks, hrest⟩ := fills_many (h.rule.rule _ (by rw [hkind]; rfl))
  obtain ⟨definition, rest, rfl, hfield, hdefinition, hrest⟩ := fills_once hrest
  rw [eq_nil_of_fills hrest] at hparts
  have hreads : c.kind.readsAll = true := by rw [hkind]; rfl
  obtain ⟨decorators, hdecorators, hcountDecorators⟩ := h.decorators hreads fun mark hmark =>
    ⟨by rw [hparts]; exact List.mem_append_left _ hmark, beq_iff_eq.mp (hmarks mark hmark).2⟩
  rw [Bool.or_eq_true, beq_iff_eq, beq_iff_eq] at hdefinition
  have hnamed : (Reading.named (ofConcretes c.children)).filter (·.kind == .decorator)
      = marks.map ofConcrete := by
    rw [named_of_kind rfl, hparts, List.filter_append,
      List.filter_eq_self.mpr fun mark hmark => (hmarks mark hmark).2]
    rcases hdefinition with hdefinition | hdefinition <;> simp [hdefinition]
  -- Decorators have no role, so the definition is the first part in its role.
  have hfound : c.field? .definition = some definition := by
    have hnone : marks.find? (·.field == some .definition) = none := by
      rw [List.find?_eq_none]
      intro mark hmark
      rw [(hmarks mark hmark).1]
      decide
    rw [h.rule.field?_eq (by decide), partIn, hparts, List.find?_append, hnone, Option.none_or]
    simp [hfield]
  have hmem : definition ∈ c.parts := by
    rw [hparts]
    exact List.mem_append_right _ (List.mem_singleton_self definition)
  obtain ⟨tree, hread, hcount⟩ := (h.faithful hmem).node
    (by rcases hdefinition with hdefinition | hdefinition <;> rw [hdefinition] <;> rfl)
  refine ⟨{ tree with children := decorators ++ tree.children }, ?_, ?_⟩
  · rw [read_eq, hkind, Reading.read, Reading.decorate, hnamed, hdecorators,
      Reading.field?_ofConcretes, hfound]
    simp [show (ofConcrete definition).node = some tree from hread]
  · have hweight : k.weight c.kind = 0 := k.weight_of_none (by rw [hkind]; rfl)
    rw [k.countIn_prepend, hcountDecorators, hcount, hweight, Nat.zero_add, h.rule.countBelow_eq,
      hparts, k.countAmong_append, (readIn_of_readsAll hreads).countAmong]

/-! ### Branches and loops -/

/-- An `else` counts as its block. -/
theorem elseClause (hd : d ∈ c.parts) (hkind : d.kind = .elseClause) (hread : ReadIn c d) :
    k.countIn (Reading.block (Reading.field? .body (ofConcretes d.children)) d.start)
      = k.countAmong c [d] := by
  have hbelow := h.child hd
  have hroles : d.kind.roles? = some [some .body] := by rw [hkind]; rfl
  have halone := hbelow.readAlone (by rw [hkind]; rfl) (by rw [hkind]; rfl)
  rw [hbelow.blockOf .body (by decide) fun body hbody => halone body (mem_parts_of_partIn hbody),
    hread.countAmong, k.weight_of_none (by rw [hkind]; rfl), hbelow.rule.countBelow_roles hroles]
  simp

/-- A branch of an `if`, without the clauses behind it. -/
theorem branch (hkind : c.kind = .ifStatement ∨ c.kind = .elifClause) (rest : List Concrete) :
    k.countIn (Reading.branchNode c rest)
      = k.weight c.kind + k.countAmong c (c.partIn (some .condition)).toList
        + k.countAmong c (c.partIn (some .consequence)).toList
        + k.countAll (Reading.otherwise (ofConcretes rest)) := by
  have halone : ∀ role, role = .condition ∨ role = .consequence →
      ∀ d ∈ c.partIn (some role), ReadAlone c d := by
    intro role hrole d hd
    have hallows := h.rule.allows hd
    refine ⟨?_, readIn_of_readsAll (by rcases hkind with hkind | hkind <;> rw [hkind] <;> rfl)⟩
    have hkinds : d.kind.standsAlone = true ∨ d.kind = .block := by
      rcases hkind with hkind | hkind <;> rcases hrole with rfl | rfl <;>
        simp_all [Kind.allows, Kind.rule?]
    rcases hkinds with halone | hblock
    · exact halone
    · rw [hblock]
      rfl
  have hweight : k.weight c.kind = k.weight .ifStatement := by
    rcases hkind with hkind | hkind
    · rw [hkind]
    · rw [hkind]
      rfl
  rw [Reading.branchNode, Reading.ifChain_eq, fieldNode_eq, k.countIn_eq, hweight]
  show _ + k.countAll (_ ++ _ :: _) = _
  rw [k.countAll_append, k.countAll_cons,
    h.readField .condition (by decide) (halone _ (Or.inl rfl)),
    h.blockOf .consequence (by decide) (halone _ (Or.inr rfl)), ← Nat.add_assoc, ← Nat.add_assoc]
  rfl

/-- By induction on the clauses of an `if`, of which only the last one may be an `else`. -/
theorem clauses {elifs : List Concrete} {last : Option Concrete} (hreads : c.kind.readsAll = true)
    (helifs : ∀ d ∈ elifs, d ∈ c.parts ∧ d.kind = .elifClause)
    (hlast : ∀ d ∈ last, d ∈ c.parts ∧ d.kind = .elseClause) :
    k.countAll (Reading.otherwise (ofConcretes (elifs ++ last.toList)))
      = k.countAmong c (elifs ++ last.toList) := by
  induction elifs with
  | nil =>
    cases last with
    | none => rw [List.nil_append, Option.toList_none, k.countAmong_nil]; rfl
    | some d =>
      obtain ⟨hd, hkind⟩ := hlast d rfl
      rw [List.nil_append, Option.toList_some, Reading.otherwise_of_else (by rw [hkind]; decide),
        k.countAll_cons, k.countAll_nil, h.elseClause hd hkind (readIn_of_readsAll hreads),
        Nat.add_zero]
  | cons elif elifs ih =>
    -- The block around the `if` of an `elif` adds nothing, so the clause counts as a branch does.
    obtain ⟨⟨hd, hkind⟩, helifs⟩ := List.forall_mem_cons.mp helifs
    have hbelow := h.child hd
    have hroles : elif.kind.roles? = some [some .condition, some .consequence] := by
      rw [hkind]
      rfl
    rw [List.cons_append, Reading.otherwise_of_elif hkind, k.countAll_cons, k.countAll_nil,
      k.countIn_around rfl, hbelow.branch (Or.inr hkind), ih helifs,
      k.countAmong_cons c elif (elifs ++ last.toList), (readIn_of_readsAll hreads).countAmong,
      hbelow.rule.countBelow_roles hroles]
    simp [Nat.add_assoc]

/-- The clauses are nested in each other, and nothing in them is lost or read twice. -/
theorem ifStatement (hkind : c.kind = .ifStatement) : Kept k c := by
  have hreads : c.kind.readsAll = true := by rw [hkind]; rfl
  obtain ⟨condition, rest, hparts, hcondition, _, hrest⟩ :=
    fills_once (h.rule.rule _ (by rw [hkind]; rfl))
  obtain ⟨consequence, rest, rfl, hconsequence, _, hrest⟩ := fills_once hrest
  obtain ⟨elifs, rest, rfl, helifs, hrest⟩ := fills_many hrest
  obtain ⟨last, rest, rfl, hlast, hrest⟩ := fills_optional hrest
  rw [eq_nil_of_fills hrest, List.append_nil] at hparts
  have hclauses : ∀ d ∈ elifs ++ last.toList, d.field = some .alternative := by
    intro d hd
    rcases List.mem_append.mp hd with hd | hd
    · exact (helifs d hd).1
    · exact (hlast d (Option.mem_toList.mp hd)).1
  have halternatives : c.alternatives = elifs ++ last.toList := by
    rw [alternatives, h.rule.filter_field (by decide), hparts, List.filter_cons_of_neg,
      List.filter_cons_of_neg, List.filter_eq_self]
    · intro d hd
      rw [hclauses d hd]
      rfl
    · rw [hconsequence]
      decide
    · rw [hcondition]
      decide
  have hmem : ∀ d ∈ elifs ++ last.toList, d ∈ c.parts := by
    intro d hd
    rw [hparts]
    exact List.mem_cons_of_mem _ (List.mem_cons_of_mem _ hd)
  have hcount := h.clauses hreads
    (fun d hd => ⟨hmem d (List.mem_append_left _ hd), beq_iff_eq.mp (helifs d hd).2⟩)
    (fun d hd => ⟨hmem d (List.mem_append_right _ (Option.mem_toList.mpr hd)),
      beq_iff_eq.mp (hlast d hd).2⟩)
  have hfound : c.partIn (some .condition) = some condition
      ∧ c.partIn (some .consequence) = some consequence := by
    simp [partIn, hparts, hcondition, hconsequence]
  refine ⟨_, Reading.node_of_ifStatement hkind, ?_⟩
  rw [h.branch (Or.inl hkind), halternatives, hcount, hfound.1, hfound.2, h.rule.countBelow_eq,
    hparts, k.countAmong_cons c condition, k.countAmong_cons c consequence]
  simp only [Option.toList_some, Nat.add_assoc]

/-- A loop: its block and the one of an `else`, behind what stands before them. -/
theorem loop (hkind : c.kind = .forStatement ∨ c.kind = .whileStatement) (front : List Node) :
    k.countAll (front ++ [Reading.block (Reading.field? .body (ofConcretes c.children)) c.start]
        ++ Reading.loopElse (ofConcretes c.children))
      = k.countAll front + (k.countAmong c (c.partIn (some .body)).toList
        + k.countAmong c (c.partIn (some .alternative)).toList) := by
  have halone : ∀ d ∈ c.parts, ReadAlone c d := by
    rcases hkind with hkind | hkind <;> exact h.readAlone (by rw [hkind]; rfl) (by rw [hkind]; rfl)
  have helse : k.countAll (Reading.loopElse (ofConcretes c.children))
      = k.countAmong c (c.partIn (some .alternative)).toList := by
    rw [Reading.loopElse, Reading.field?_ofConcretes, h.rule.field?_eq (by decide)]
    cases hd : c.partIn (some .alternative) with
    | none => exact k.countAll_nil
    | some d =>
      have hallows := h.rule.allows hd
      have hclause : d.kind = .elseClause := by
        rcases hkind with hkind | hkind <;> simpa [hkind, Kind.allows, Kind.rule?] using hallows
      have hmem := mem_parts_of_partIn hd
      simpa using h.elseClause hmem hclause (halone d hmem).2
  rw [k.countAll_append, k.countAll_append, k.countAll_cons, k.countAll_nil, helse,
    h.blockOf .body (by decide) fun d hd => halone d (mem_parts_of_partIn hd), Nat.add_zero,
    Nat.add_assoc]

theorem forStatement (hkind : c.kind = .forStatement) : Kept k c := by
  have halone := h.readAlone (by rw [hkind]; rfl) (by rw [hkind]; rfl)
  have hroles : c.kind.roles?
      = some [some .left, some .right, some .body, some .alternative] := by
    rw [hkind]
    rfl
  have hread := c.read_eq
  rw [hkind, Reading.read, fieldNode_eq, fieldNode_eq] at hread
  refine .intro hread ?_ ?_
  · rw [hkind]
    show NodeKind.construct? (if _ then _ else _) = _
    split <;> rfl
  · refine (h.loop (Or.inl hkind) _).trans ?_
    rw [k.countAll_append,
      h.readField .left (by decide) fun d hd => halone d (mem_parts_of_partIn hd),
      h.readField .right (by decide) fun d hd => halone d (mem_parts_of_partIn hd),
      h.rule.countBelow_roles hroles]
    simp [Nat.add_assoc]

theorem whileStatement (hkind : c.kind = .whileStatement) : Kept k c := by
  have halone := h.readAlone (by rw [hkind]; rfl) (by rw [hkind]; rfl)
  have hroles : c.kind.roles? = some [some .condition, some .body, some .alternative] := by
    rw [hkind]
    rfl
  have hread := c.read_eq
  rw [hkind, Reading.read, fieldNode_eq] at hread
  refine .intro hread (by rw [hkind]; rfl) ?_
  refine (h.loop (Or.inr hkind) _).trans ?_
  rw [h.readField .condition (by decide) fun d hd => halone d (mem_parts_of_partIn hd),
    h.rule.countBelow_roles hroles]
  simp

/-! ### Protected blocks -/

theorem finallyClause (hd : d ∈ c.parts) (hkind : d.kind = .finallyClause) (hread : ReadIn c d) :
    k.countIn (Reading.block
        ((Reading.named (ofConcretes d.children)).find? (·.kind == .block)) d.start)
      = k.countAmong c [d] := by
  have hbelow := h.child hd
  obtain ⟨body, rest, hparts, _, hblock, hrest⟩ :=
    fills_once (hbelow.rule.rule _ (by rw [hkind]; rfl))
  rw [eq_nil_of_fills hrest] at hparts
  have hfound : (Reading.named (ofConcretes d.children)).find? (·.kind == .block)
      = (some body).map ofConcrete := by
    rw [← List.head?_filter, named_of_kind rfl, hparts, List.filter_cons, if_pos hblock]
    rfl
  have halone := hbelow.readAlone (by rw [hkind]; rfl) (by rw [hkind]; rfl)
  have hmem : body ∈ d.parts := by rw [hparts]; exact List.mem_singleton_self body
  rw [hfound, hbelow.block, hread.countAmong, k.weight_of_none (by rw [hkind]; rfl),
    hbelow.rule.countBelow_eq, hparts, Nat.zero_add]
  · rfl
  · rintro _ ⟨⟩
    exact ⟨hmem, halone body hmem⟩

/-- Each clause of a `try` is read as a handler or as a block. -/
theorem tryClause (hd : d ∈ c.parts) (hread : ReadIn c d)
    (hkind : d.kind = .exceptClause ∨ d.kind = .exceptGroupClause ∨ d.kind = .elseClause
      ∨ d.kind = .finallyClause) :
    k.countAll (Reading.tryClause (ofConcrete d)) = k.countAmong c [d] := by
  have hhandler : d.kind.readsAll = true → d.kind.holdsAlone = true → d.kind.construct? = none →
      k.countAll [.plain .exceptHandler d.start (Reading.nodes (ofConcretes d.children))]
        = k.countAmong c [d] := by
    intro hreads halone hnone
    rw [k.countAll_cons, k.countIn_of_none rfl, hread.countAmong, k.weight_of_none hnone,
      Nat.zero_add, k.countAll_nil, Nat.add_zero]
    show k.countAll (Reading.nodes _) = _
    rw [nodes_eq, (h.child hd).readNamed ((h.child hd).readAlone halone hreads)]
  rw [Reading.tryClause, Reading.ofConcrete_kind, Reading.ofConcrete_start,
    Reading.ofConcrete_children]
  rcases hkind with hkind | hkind | hkind | hkind <;> simp only [hkind]
  · exact hhandler (by rw [hkind]; rfl) (by rw [hkind]; rfl) (by rw [hkind]; rfl)
  · exact hhandler (by rw [hkind]; rfl) (by rw [hkind]; rfl) (by rw [hkind]; rfl)
  · rw [k.countAll_cons, h.elseClause hd hkind hread, k.countAll_nil, Nat.add_zero]
  · rw [k.countAll_cons, h.finallyClause hd hkind hread, k.countAll_nil, Nat.add_zero]

theorem tryStatement (hkind : c.kind = .tryStatement) : Kept k c := by
  have halone := h.readAlone (by rw [hkind]; rfl) (by rw [hkind]; rfl)
  obtain ⟨body, clauses, hparts, hbody, hblock, hclauses⟩ :=
    fills_once (h.rule.rule _ (by rw [hkind]; rfl))
  have hfound : c.partIn (some .body) = some body := by simp [partIn, hparts, hbody]
  have hextra : ∀ d ∈ c.children, d.kind.isExtra = true →
      k.countAll (Reading.tryClause (ofConcrete d)) = 0 := by
    intro d _ hextra
    rw [Reading.tryClause, Reading.ofConcrete_kind]
    cases hd : d.kind <;> first | exact k.countAll_nil | simp [hd, Kind.isExtra] at hextra
  have hclause : ∀ d ∈ clauses,
      k.countAll (Reading.tryClause (ofConcrete d)) = k.countAmong c [d] := by
    intro d hd
    have hmem : d ∈ c.parts := by rw [hparts]; exact List.mem_cons_of_mem _ hd
    refine h.tryClause hmem (halone d hmem).2 ?_
    obtain ⟨slot, hslot, _, hkinds⟩ := mem_of_fills hclauses d hd
    simp only [List.mem_cons, List.not_mem_nil, or_false] at hslot
    rcases hslot with rfl | rfl | rfl <;> simp only [Bool.or_eq_true, beq_iff_eq] at hkinds
    · rcases hkinds with hkind | hkind
      · exact Or.inl hkind
      · exact Or.inr (Or.inl hkind)
    · exact Or.inr (Or.inr (Or.inl hkinds))
    · exact Or.inr (Or.inr (Or.inr hkinds))
  -- The protected block is named as well, but it is no clause and counts only once.
  have hbodyClause : Reading.tryClause (ofConcrete body) = [] := by
    rw [Reading.tryClause, Reading.ofConcrete_kind, beq_iff_eq.mp hblock]
  have hread := c.read_eq
  rw [hkind, Reading.read, named_eq, List.flatMap_map] at hread
  refine .intro hread (by rw [hkind]; rfl) ?_
  show k.countAll (_ :: _) = _
  rw [k.countAll_cons, countAll_named hextra, hparts, List.flatMap_cons, hbodyClause,
    List.nil_append, countAll_flatMap hclause,
    h.blockOf .body (by decide) fun d hd => halone d (mem_parts_of_partIn hd), hfound,
    h.rule.countBelow_eq, hparts, k.countAmong_cons c body clauses]
  rfl

/-! ### Expressions -/

/-- One side of a boolean operation: a chain of the same operator gives its operands. -/
theorem sideOperands (hkind : c.kind = .booleanOperator) (role : Field)
    (hrole : role = .left ∨ role = .right) :
    k.countAll (Reading.sideOperands (Reading.operator (ofConcretes c.children))
        (Reading.field? role (ofConcretes c.children)))
      = k.countAmong c (c.partIn (some role)).toList := by
  have hne : role ≠ .operator := by rcases hrole with rfl | rfl <;> decide
  obtain ⟨operator, hoperator⟩ := Option.isSome_iff_exists.mp (h.rule.operator hkind)
  have hown : c.operatorText = some operator.text := by
    rw [operatorText, hoperator, Option.map_some]
  have htext : Reading.operator (ofConcretes c.children) = operator.text := by
    rw [Reading.operator, operator?_eq, hown, Option.getD_some]
  rw [Reading.field?_ofConcretes, h.rule.field?_eq hne, htext]
  cases hd : c.partIn (some role) with
  | none => exact k.countAll_nil
  | some d =>
    have hmem := mem_parts_of_partIn hd
    have hread : unread c d = false := by
      simp [unread, passesOver, namesParameter, hkind, Kind.isParameterList, Kind.isParameterForm]
    have hchain : ContinuesChain c d
        ↔ (d.kind == .booleanOperator && d.operatorText == some operator.text) = true := by
      rw [ContinuesChain, hown, field_of_partIn hd]
      simpa [hkind] using fun _ _ => hrole
    rw [Option.map_some, Reading.sideOperands, Reading.ofConcrete_kind, Reading.ofConcrete_children,
      operator?_eq, Option.toList_some]
    split
    · next hsame =>
      -- The side is part of the chain: it is not counted, and its operands stand in its place.
      have hcontinues := hchain.mpr hsame
      rw [k.countAmong_of_read hread, if_neg fun hcounts => hcounts.2 hcontinues, Nat.zero_add]
      exact (h.faithful hmem).operands hcontinues.2.1
    · next hother =>
      refine h.read hmem ⟨h.rule.standsAlone (by rw [hkind]; rfl) hmem, hread, ?_⟩
      exact fun hcontinues => hother (hchain.mp hcontinues)

/-- Nothing is lost of either side, whether it is one operand or a chain of its own. -/
theorem chainOperands (hkind : c.kind = .booleanOperator) :
    k.countAll (Reading.chainOperands (ofConcretes c.children)) = k.countBelow unread c := by
  have hroles : c.kind.roles? = some [some .left, some .right] := by rw [hkind]; rfl
  rw [Reading.chainOperands, k.countAll_append, h.sideOperands hkind .left (Or.inl rfl),
    h.sideOperands hkind .right (Or.inr rfl), h.rule.countBelow_roles hroles]
  simp

theorem lambda (hkind : c.kind = .lambda) : Kept k c := by
  have hreads : c.kind.readsAll = true := by rw [hkind]; rfl
  have hroles : c.kind.roles? = some [some .parameters, some .body] := by rw [hkind]; rfl
  have hparams := h.parameters fun d hd => by
    have hd : d.kind = .lambdaParameters := by
      simpa [hkind, Kind.allows, Kind.rule?] using h.rule.allows hd
    exact ⟨by rw [hd]; rfl, readIn_of_readsAll hreads⟩
  have hbody := h.readField .body (by decide) fun d hd => by
    have hd : d.kind.standsAlone = true := by
      simpa [hkind, Kind.allows, Kind.rule?] using h.rule.allows hd
    exact ⟨hd, readIn_of_readsAll hreads⟩
  have hread := c.read_eq
  rw [hkind, Reading.read, fieldNode_eq] at hread
  refine .intro hread (by rw [hkind]; rfl) ?_
  show k.countAll (_ ++ _) = _
  rw [k.countAll_append, hparams, hbody, h.rule.countBelow_roles hroles]
  simp

/-- The arguments of a call. -/
theorem arguments (hkind : c.kind = .call) :
    k.countAll (((Reading.field? .arguments (ofConcretes c.children)).map fun a =>
        Reading.nodes a.children).getD [])
      = k.countAmong c (c.partIn (some .arguments)).toList := by
  rw [Reading.field?_ofConcretes, h.rule.field?_eq (by decide)]
  cases hd : c.partIn (some .arguments) with
  | none => exact k.countAll_nil
  | some d =>
    have hbelow := h.child (mem_parts_of_partIn hd)
    have hkinds : d.kind = .argumentList ∨ d.kind = .generatorExpression := by
      simpa [hkind, Kind.allows, Kind.rule?] using h.rule.allows hd
    have halone : ∀ e ∈ d.parts, ReadAlone d e := by
      rcases hkinds with hd | hd <;> exact hbelow.readAlone (by rw [hd]; rfl) (by rw [hd]; rfl)
    have hweight : k.weight d.kind = 0 :=
      k.weight_of_none (by rcases hkinds with hd | hd <;> rw [hd] <;> rfl)
    have hread : ReadIn c d := readIn_of_readsAll (by rw [hkind]; rfl)
    rw [Option.toList_some, hread.countAmong, hweight, Nat.zero_add, ← hbelow.readNamed halone,
      ← nodes_eq]
    simp

/-- What is called and the arguments are read; the list of arguments itself is not a node. -/
theorem call (hkind : c.kind = .call) : Kept k c := by
  have halone := h.readAlone (by rw [hkind]; rfl) (by rw [hkind]; rfl)
  have hroles : c.kind.roles? = some [some .function, some .arguments] := by rw [hkind]; rfl
  have hcallee := h.readField .function (by decide) fun d hd => halone d (mem_parts_of_partIn hd)
  rw [← fieldNode_eq, Reading.fieldNode] at hcallee
  have hread := c.read_eq
  rw [hkind, Reading.read] at hread
  refine .intro hread (by rw [hkind]; rfl) ?_
  show k.countAll (_ ++ _) = _
  rw [k.countAll_append, hcallee, h.arguments hkind, h.rule.countBelow_roles hroles]
  simp

theorem attributeOf (hkind : c.kind = .attribute) : Kept k c := by
  have halone := h.readAlone (by rw [hkind]; rfl) (by rw [hkind]; rfl)
  have hroles : c.kind.roles? = some [some .object, some .attribute] := by rw [hkind]; rfl
  have hname : k.countAmong c (c.partIn (some .attribute)).toList = 0 := by
    refine h.identifierPart fun d hd => ?_
    simpa [hkind, Kind.allows, Kind.rule?] using h.rule.allows hd
  have hread := c.read_eq
  rw [hkind, Reading.read, fieldNode_eq] at hread
  refine .intro hread (by rw [hkind]; rfl) ?_
  show k.countAll (c.readField .object) = _
  rw [h.readField .object (by decide) fun d hd => halone d (mem_parts_of_partIn hd),
    h.rule.countBelow_roles hroles]
  simp [hname]

/-! ### All rules -/

/-- The rule that makes a node without children. -/
theorem leaf {tree : Node} (hread : c.read = some tree) (hrule : c.kind.rule? = some [])
    (hkind : tree.kind.construct? = c.kind.construct?) (hchildren : tree.children = []) :
    Kept k c := by
  refine .intro hread hkind ?_
  rw [hchildren, k.countAll_nil, h.rule.countBelow_leaf hrule]

/-- The rule that makes a node with all that its children read as. -/
theorem nodes {kind : NodeKind}
    (hread : c.read = some (.plain kind c.start (Reading.nodes (ofConcretes c.children))))
    (hkind : c.kind.holdsAlone = true ∧ c.kind.readsAll = true
      ∧ kind.construct? = c.kind.construct?) : Kept k c := by
  obtain ⟨halone, hreads, hkind⟩ := hkind
  refine .intro hread hkind ?_
  show k.countAll (Reading.nodes _) = _
  rw [nodes_eq, h.readNamed (h.readAlone halone hreads)]

/-- **A node is kept if everything below it is**, rule by rule. -/
theorem kept (halone : c.kind.standsAlone = true) : Kept k c := by
  have hread := c.read_eq
  unfold Reading.read at hread
  split at hread
  case h_1 hkind =>
    rw [hkind] at halone
    cases halone
  case h_2 hkind => exact h.nodes hread (by rw [hkind]; decide)
  case h_3 hkind => exact h.nodes hread (by rw [hkind]; decide)
  case h_4 hkind => exact h.wrapper (Or.inl hkind)
  case h_5 hkind => exact h.wrapper (Or.inr hkind)
  case h_6 hkind => exact h.decoratedDefinition hkind
  case h_7 hkind => exact h.functionDefinition hkind
  case h_8 hkind => exact h.classDefinition hkind
  case h_9 hkind => exact h.lambda hkind
  case h_10 hkind => exact h.ifStatement hkind
  case h_11 hkind => exact h.forStatement hkind
  case h_12 hkind => exact h.whileStatement hkind
  case h_13 hkind => exact h.tryStatement hkind
  case h_14 hkind => exact h.nodes hread (by rw [hkind]; decide)
  case h_15 hkind => exact .intro hread (by rw [hkind]; rfl) (h.chainOperands hkind)
  case h_16 hkind => exact h.leaf hread (by rw [hkind]; rfl) (by rw [hkind]; rfl) rfl
  case h_17 hkind => exact h.leaf hread (by rw [hkind]; rfl) (by rw [hkind]; rfl) rfl
  case h_18 hkind => exact h.nodes hread (by rw [hkind]; decide)
  case h_19 hkind => exact h.nodes hread (by rw [hkind]; decide)
  case h_20 hkind => exact h.call hkind
  case h_21 hkind => exact h.leaf hread (by rw [hkind]; rfl) (by rw [hkind]; rfl) rfl
  case h_22 hkind => exact h.attributeOf hkind
  case h_23 hkind => exact h.nodes hread (by rw [hkind]; decide)
  case h_24 =>
    -- All kinds that are left read all that they hold, or do not stand alone.
    refine h.nodes hread ?_
    cases hkind : c.kind
    all_goals first | contradiction | exact ⟨rfl, rfl, rfl⟩ | (rw [hkind] at halone; cases halone)

theorem faithful_self : Faithful k c where
  node := h.kept
  operands hkind := by
    rw [Reading.ofConcrete_eq, hkind]
    exact h.chainOperands hkind

end FaithfulBelow

/-- By induction on the tree, everything in it is faithful. -/
theorem faithful_of_mem (hgrammar : c.FollowsGrammar) : ∀ d ∈ c.subtrees, Faithful k d := by
  induction c using induction with
  | step c ih =>
    have hbelow : FaithfulBelow k c := ⟨hgrammar, fun child hchild =>
      ih child hchild (hgrammar.child hchild)⟩
    intro d hd
    rw [subtrees_eq] at hd
    rcases List.mem_cons.mp hd with rfl | hd
    · exact hbelow.faithful_self
    · obtain ⟨child, hchild, hd⟩ := List.mem_flatMap.mp hd
      exact hbelow.below child hchild d hd

end Concrete

/-- **Reading keeps what is counted.** The tree of a module that follows the grammar has each
construct as often as the concrete module has it, an `elif` as an `if` and a chain of one boolean
operator as one operation; type parameters, parameters that are no arguments, and patterns that just
name a parameter aside. -/
theorem constructs_conserved {root : Concrete} (hmodule : root.kind = .module)
    (hgrammar : root.FollowsGrammar) (k : Construct) :
    k.countIn (Node.ofConcrete root) = k.countBelow Concrete.unread root := by
  have hbelow : Concrete.FaithfulBelow k root := ⟨hgrammar, fun child hchild d hd =>
    Concrete.faithful_of_mem (hgrammar.child hchild) d hd⟩
  have halone := hbelow.readAlone (by rw [hmodule]; rfl) (by rw [hmodule]; rfl)
  rw [Node.ofConcrete, Reading.ofConcrete_children, Concrete.nodes_eq, k.countIn_of_none rfl]
  exact hbelow.readNamed halone

/-- A decorated function with a default value that is a call, two branches, a chain of `and` with an
`or` in parentheses, and a `lambda`. -/
def Concrete.guard : Concrete :=
  .part .module none ⟨1, 0⟩ [.part .decoratedDefinition none ⟨1, 0⟩
    [.part .decorator none ⟨1, 0⟩
      [.part .call none ⟨1, 1⟩
        [.part .identifier (some .function) ⟨1, 1⟩ [],
         .part .argumentList (some .arguments) ⟨1, 5⟩ [.part .identifier none ⟨1, 6⟩ []]]],
     .part .functionDefinition (some .definition) ⟨2, 0⟩
      [.part .identifier (some .name) ⟨2, 4⟩ [],
       .part .parameters (some .parameters) ⟨2, 5⟩
        [.part .identifier none ⟨2, 6⟩ [],
         .part .defaultParameter none ⟨2, 9⟩
          [.part .identifier (some .name) ⟨2, 9⟩ [],
           .part .call (some .value) ⟨2, 11⟩
            [.part .identifier (some .function) ⟨2, 11⟩ [],
             .part .argumentList (some .arguments) ⟨2, 12⟩ []]]],
       .part .block (some .body) ⟨3, 4⟩
        [.part .ifStatement none ⟨3, 4⟩
          [.part .booleanOperator (some .condition) ⟨3, 7⟩
            [.part .booleanOperator (some .left) ⟨3, 7⟩
              [.part .identifier (some .left) ⟨3, 7⟩ [],
               { Concrete.part .token (some .operator) ⟨3, 9⟩ [] with text := "and" },
               .part .identifier (some .right) ⟨3, 13⟩ []],
             { Concrete.part .token (some .operator) ⟨3, 15⟩ [] with text := "and" },
             .part .parenthesizedExpression (some .right) ⟨3, 19⟩
              [.part .booleanOperator none ⟨3, 20⟩
                [.part .identifier (some .left) ⟨3, 20⟩ [],
                 { Concrete.part .token (some .operator) ⟨3, 22⟩ [] with text := "or" },
                 .part .identifier (some .right) ⟨3, 25⟩ []]]],
           .part .block (some .consequence) ⟨4, 8⟩
            [.part .returnStatement none ⟨4, 8⟩
              [.part .lambda none ⟨4, 15⟩ [.part .identifier (some .body) ⟨4, 23⟩ []]]],
           .part .elifClause (some .alternative) ⟨5, 4⟩
            [.part .identifier (some .condition) ⟨5, 9⟩ [],
             .part .block (some .consequence) ⟨6, 8⟩
              [.part .raiseStatement none ⟨6, 8⟩ []]]]]]]]

theorem guard_conserved :
    Concrete.guard.FollowsGrammar
      ∧ ([Construct.call, .boolOp, .ifStmt, .functionDef].map
          (·.countIn (Node.ofConcrete Concrete.guard)) = [2, 2, 2, 1])
      ∧ ∀ k : Construct, k.countIn (Node.ofConcrete Concrete.guard)
        = k.countBelow Concrete.unread Concrete.guard :=
  ⟨by decide, by decide +kernel, constructs_conserved rfl (by decide)⟩

/-- A function whose only parameter is a star with a subscript behind it, which holds a call. -/
def Concrete.starredCall : Concrete :=
  .part .module none ⟨1, 0⟩ [.part .functionDefinition none ⟨1, 0⟩
    [.part .identifier (some .name) ⟨1, 4⟩ [],
     .part .parameters (some .parameters) ⟨1, 5⟩
      [.part .listSplatPattern none ⟨1, 6⟩
        [.part .subscript none ⟨1, 7⟩
          [.part .identifier none ⟨1, 7⟩ [],
           .part .call none ⟨1, 9⟩
            [.part .identifier (some .function) ⟨1, 9⟩ [],
             .part .argumentList (some .arguments) ⟨1, 10⟩ []]]]],
     .part .block (some .body) ⟨2, 4⟩ [.part .passStatement none ⟨2, 4⟩ []]]]

/-- Names of parameters have to be left out: a call in the pattern behind a star is not read. -/
theorem starredCall_not_conserved :
    Concrete.starredCall.kind = .module ∧ Concrete.starredCall.FollowsGrammar
      ∧ Construct.call.countIn (Node.ofConcrete Concrete.starredCall) = 0
      ∧ Construct.call.countBelow Concrete.passesOver Concrete.starredCall = 1 :=
  ⟨rfl, by decide, by decide +kernel, by decide +kernel⟩

end PyStyle
