import PyStyle.Proofs.ConstructCounts
import PyStyle.Proofs.ShapedReading

/-!
# Parts that read faithfully

Each rule of the reader has to look at every part that can hold something counted, and at none
twice. Rules are made of few things: the part in a role, a block, all named children, and the
parameters of a function. Here is what each of them counts, given that what stands below the node
reads as it should.

- `Concrete.Kept` — a node reads as a tree with the same counts;
- `Concrete.FaithfulBelow` — all that stands below a node does;
- `Concrete.FaithfulBelow.readField`, `Concrete.FaithfulBelow.blockOf`,
  `Concrete.FaithfulBelow.readNamed` — what rules are made of;
- `Concrete.FaithfulBelow.parameters` — all parameters of a function or a `lambda`.
-/

namespace PyStyle

namespace Concrete

open Reading (ofConcrete ofConcretes)

variable {k : Construct} {c d : Concrete}

/-! ### One level of a tree -/

/-- The node reads as a tree in which the construct stands as often. -/
def Kept (k : Construct) (c : Concrete) : Prop :=
  ∃ tree, c.read = some tree ∧ k.countIn tree = k.weight c.kind + k.countBelow unread c

theorem Kept.intro {tree : Node} (hread : c.read = some tree)
    (hkind : tree.kind.construct? = c.kind.construct?)
    (hchildren : k.countAll tree.children = k.countBelow unread c) : Kept k c := by
  refine ⟨tree, hread, ?_⟩
  rw [k.countIn_eq, hkind, hchildren]
  rfl

/-- The node is kept if it stands alone; so are the operands of a chain that it continues. -/
structure Faithful (k : Construct) (c : Concrete) : Prop where
  node : c.kind.standsAlone = true → Kept k c
  operands : c.kind = .booleanOperator →
    k.countAll (ofConcrete c).operands = k.countBelow unread c

/-- The node follows the grammar, and all that stands below it reads faithfully. -/
structure FaithfulBelow (k : Construct) (c : Concrete) : Prop where
  grammar : c.FollowsGrammar
  below : ∀ child ∈ c.children, ∀ d ∈ child.subtrees, Faithful k d

/-- What may stand anywhere, such as a comment, has nothing below it to lose. -/
theorem read_of_isExtra (hkind : c.kind.isExtra = true) (hchildren : c.children = []) :
    c.read = none ∨ c.read = some (.plain .generic c.start []) := by
  obtain ⟨kind, field, start, stop, text, children⟩ := c
  cases hchildren
  cases kind with
  | comment => exact Or.inl rfl
  | token | lineContinuation => exact Or.inr rfl
  | _ => cases hkind

theorem named_of_kind {kind : Kind} (hkind : kind.isExtra = false) :
    (Reading.named (ofConcretes c.children)).filter (·.kind == kind)
      = (c.parts.filter (·.kind == kind)).map ofConcrete := by
  rw [named_eq, List.filter_map, ← filter_named hkind]
  congr 2
  funext child
  simp

theorem operator?_eq (c : Concrete) :
    Reading.operator? (ofConcretes c.children) = c.operatorText := by
  rw [Reading.operator?, Reading.field?_ofConcretes, operatorText, Option.map_map]
  congr 1
  funext operator
  rw [Function.comp_apply, Reading.ofConcrete_eq]

/-- The child is read, and a tree on its own. -/
def ReadAlone (parent c : Concrete) : Prop :=
  c.kind.standsAlone = true ∧ ReadIn parent c

namespace FaithfulBelow

variable (h : FaithfulBelow k c)
include h

theorem rule : c.FollowsRule :=
  h.grammar.followsRule

theorem child (hd : d ∈ c.parts) : FaithfulBelow k d :=
  have hmem := (mem_parts.mp hd).1
  { grammar := h.grammar.child hmem
    below := fun _ hchild e he =>
      h.below d hmem e (mem_subtrees_trans he (mem_subtrees_of_child hchild)) }

theorem faithful (hd : d ∈ c.parts) : Faithful k d :=
  h.below d (mem_parts.mp hd).1 d d.mem_subtrees_self

/-- The parts of most nodes are all read on their own. -/
theorem readAlone (halone : c.kind.holdsAlone = true) (hreads : c.kind.readsAll = true) :
    ∀ d ∈ c.parts, ReadAlone c d :=
  fun _ hd => ⟨h.rule.standsAlone halone hd, readIn_of_readsAll hreads⟩

theorem read (hd : d ∈ c.parts) (hread : ReadAlone c d) :
    k.countAll d.read.toList = k.countAmong c [d] := by
  obtain ⟨tree, htree, hcount⟩ := (h.faithful hd).node hread.1
  rw [htree, Option.toList_some, k.countAll_cons, k.countAll_nil, Nat.add_zero, hcount,
    hread.2.countAmong]

/-- The part in a role, if there is one. -/
theorem readField (role : Field) (hrole : role ≠ .operator)
    (hpart : ∀ d ∈ c.partIn (some role), ReadAlone c d) :
    k.countAll (c.readField role) = k.countAmong c (c.partIn (some role)).toList := by
  rw [Concrete.readField, h.rule.field?_eq hrole]
  cases hfield : c.partIn (some role) with
  | none => simp
  | some d => exact h.read (mem_parts_of_partIn hfield) (hpart d hfield)

/-- A part as a block. -/
theorem block {part : Option Concrete} (hpart : ∀ d ∈ part, d ∈ c.parts ∧ ReadAlone c d)
    (fallback : Position) :
    k.countIn (Reading.block (part.map ofConcrete) fallback) = k.countAmong c part.toList := by
  obtain ⟨hkind, hchildren⟩ := isBlockOf_block part fallback
  rw [k.countIn_of_none (by rw [hkind]; rfl), hchildren]
  cases part with
  | none => simp [suiteOf]
  | some d =>
    obtain ⟨hd, hread⟩ := hpart d rfl
    rw [suiteOf]
    split
    · next hblock =>
      -- A block reads as a block of its own, which adds nothing to its statements.
      obtain ⟨tree, htree, hcount⟩ := (h.faithful hd).node hread.1
      rw [read_eq, hblock, Reading.read, nodes_eq] at htree
      cases htree
      rw [k.countIn_of_none rfl] at hcount
      rw [Option.toList_some, hread.2.countAmong]
      exact hcount
    · exact h.read hd hread

theorem blockOf (role : Field) (hrole : role ≠ .operator)
    (hpart : ∀ d ∈ c.partIn (some role), ReadAlone c d) (fallback : Position) :
    k.countIn (Reading.block (Reading.field? role (ofConcretes c.children)) fallback)
      = k.countAmong c (c.partIn (some role)).toList := by
  rw [Reading.field?_ofConcretes, h.rule.field?_eq hrole]
  exact h.block (fun d hd => ⟨mem_parts_of_partIn hd, hpart d hd⟩) fallback

/-- A node that reads all its children. -/
theorem readNamed (hpart : ∀ d ∈ c.parts, ReadAlone c d) :
    k.countAll c.readNamed = k.countBelow unread c := by
  have hextra : ∀ d ∈ c.children, d.kind.isExtra = true → k.countAll d.read.toList = 0 := by
    intro d hd hkind
    rcases read_of_isExtra hkind (h.rule.extra d hd hkind).1 with hread | hread <;> rw [hread]
    · exact k.countAll_nil
    · exact (k.countAll_cons _ _).trans (k.countIn_of_none rfl)
  rw [Concrete.readNamed, List.filterMap_eq_flatMap_toList, countAll_named hextra,
    h.rule.countBelow_eq]
  exact countAll_flatMap fun d hd => h.read hd (hpart d hd)

end FaithfulBelow

/-! ### Parameters -/

section Parameters

variable {p : Concrete}

/-- A parameter with an annotation or a default value becomes an argument with the annotation below
it. -/
theorem parameterArgument_of_form (hform : p.kind.isParameterForm = true) :
    ∃ name, Reading.parameterArgument (ofConcrete p)
      = [.named .argument name p.start (p.readField .type)] := by
  rw [Reading.parameterArgument, Reading.ofConcrete_kind, Reading.ofConcrete_children, fieldNode_eq,
    Reading.ofConcrete_start]
  split
  case h_4 | h_5 | h_6 => exact ⟨_, rfl⟩
  all_goals simp_all [Kind.isParameterForm]

theorem parameterDefault_of_form (hform : p.kind.isParameterForm = true) :
    Reading.parameterDefault (ofConcrete p) = p.readField .value := by
  rw [Reading.parameterDefault, Reading.ofConcrete_kind, Reading.ofConcrete_children, fieldNode_eq]
  split
  case h_1 | h_2 | h_3 => rfl
  all_goals simp_all [Kind.isParameterForm]

/-- A parameter that is just a name is an argument without children, if it is one. -/
theorem parameterArgument_of_name (hform : p.kind.isParameterForm = false) :
    k.countAll (Reading.parameterArgument (ofConcrete p)) = 0 := by
  have hleaf : ∀ name, k.countIn (.named .argument name (ofConcrete p).start []) = 0 :=
    fun _ => (k.countIn_of_none rfl).trans k.countAll_nil
  rw [Reading.parameterArgument, Reading.ofConcrete_kind]
  split
  case h_1 | h_2 | h_3 => rw [k.countAll_cons, hleaf, k.countAll_nil]
  all_goals simp_all [Kind.isParameterForm]

/-- A bare name has no default value. -/
theorem parameterDefault_of_name (hform : p.kind.isParameterForm = false) :
    Reading.parameterDefault (ofConcrete p) = [] := by
  rw [Reading.parameterDefault, Reading.ofConcrete_kind]
  split <;> simp_all [Kind.isParameterForm]

/-- What gives a parameter its name does not count. -/
theorem countAmong_name (hform : p.kind.isParameterForm = true) {role : Option Field}
    (htype : role ≠ some .type) (hvalue : role ≠ some .value) :
    k.countAmong p (p.partIn role).toList = 0 := by
  cases hd : p.partIn role with
  | none => exact k.countAmong_nil p
  | some d =>
    rw [← field_of_partIn hd] at htype hvalue
    exact k.countAmong_of_unread (unread_of_parameterForm hform htype hvalue)

/-- Of a parameter with a type or a default value, these two are read. -/
theorem FaithfulBelow.parameterForm (h : FaithfulBelow k p)
    (hform : p.kind.isParameterForm = true) :
    k.countAll (p.readField .type) + k.countAll (p.readField .value) = k.countBelow unread p := by
  have hholds : p.kind.holdsAlone = true := by
    rcases Kind.isParameterForm_iff.mp hform with hkind | hkind | hkind <;> rw [hkind] <;> rfl
  have htype : k.countAll (p.readField .type) = k.countAmong p (p.partIn (some .type)).toList := by
    refine h.readField .type (by decide) fun d hd => ?_
    exact ⟨h.rule.standsAlone hholds (mem_parts_of_partIn hd),
      readIn_of_parameterForm hform (Or.inl (field_of_partIn hd))⟩
  have hvalue :
      k.countAll (p.readField .value) = k.countAmong p (p.partIn (some .value)).toList := by
    refine h.readField .value (by decide) fun d hd => ?_
    exact ⟨h.rule.standsAlone hholds (mem_parts_of_partIn hd),
      readIn_of_parameterForm hform (Or.inr (field_of_partIn hd))⟩
  have hname : k.countAmong p (p.partIn (some .name)).toList = 0 :=
    countAmong_name hform (by decide) (by decide)
  have hnone : k.countAmong p (p.partIn none).toList = 0 :=
    countAmong_name hform (by decide) (by decide)
  rw [htype, hvalue]
  -- A parameter without a type or without a default value has no part in that role.
  rcases Kind.isParameterForm_iff.mp hform with hkind | hkind | hkind
  · have hroles : p.kind.roles? = some [none, some .type] := by rw [hkind]; rfl
    have hmissing : p.partIn (some .value) = none := h.rule.partIn_eq_none hroles (by decide)
    rw [h.rule.countBelow_roles hroles, hmissing]
    simp [hnone]
  · have hroles : p.kind.roles? = some [some .name, some .value] := by rw [hkind]; rfl
    have hmissing : p.partIn (some .type) = none := h.rule.partIn_eq_none hroles (by decide)
    rw [h.rule.countBelow_roles hroles, hmissing]
    simp [hname]
  · have hroles : p.kind.roles? = some [some .name, some .type, some .value] := by rw [hkind]; rfl
    rw [h.rule.countBelow_roles hroles]
    simp [hname]

/-- One parameter: what it makes an argument and a default value of. -/
theorem FaithfulBelow.parameter (h : FaithfulBelow k c) (hlist : c.kind.isParameterList = true)
    (hp : p ∈ c.parts) :
    k.countAll (Reading.parameterArgument (ofConcrete p) ++ Reading.parameterDefault (ofConcrete p))
      = k.countAmong c [p] := by
  rw [k.countAll_append]
  have hbelow := h.child hp
  cases hform : p.kind.isParameterForm with
  | true =>
    obtain ⟨name, hargument⟩ := parameterArgument_of_form hform
    have hkind : p.kind.construct? = none := by
      rcases Kind.isParameterForm_iff.mp hform with hkind | hkind | hkind <;> rw [hkind] <;> rfl
    rw [hargument, parameterDefault_of_form hform, k.countAll_cons, k.countAll_nil, Nat.add_zero,
      k.countIn_of_none rfl, (readIn_of_parameterList hlist hform).countAmong,
      k.weight_of_none hkind, Nat.zero_add]
    exact hbelow.parameterForm hform
  | false =>
    -- An identifier holds nothing, and any other name is not read.
    rw [parameterArgument_of_name hform, parameterDefault_of_name hform, k.countAll_nil]
    by_cases hname : p.kind = .identifier
    · exact (hbelow.rule.countAmong_identifier hname).symm
    · exact (k.countAmong_of_unread (unread_of_parameterList hlist hform hname)).symm

/-- Extras among parameters are no arguments. -/
theorem parameter_of_isExtra (hkind : p.kind.isExtra = true) :
    k.countAll (Reading.parameterArgument (ofConcrete p) ++ Reading.parameterDefault (ofConcrete p))
      = 0 := by
  have hform : p.kind.isParameterForm = false := by
    cases hp : p.kind <;> first | rfl | simp [hp, Kind.isExtra] at hkind
  rw [k.countAll_append, parameterArgument_of_name hform, parameterDefault_of_name hform,
    k.countAll_nil]

/-- All parameters of a function or a `lambda`. -/
theorem FaithfulBelow.parameters (h : FaithfulBelow k c)
    (hparams : ∀ d ∈ c.partIn (some .parameters),
      d.kind.isParameterList = true ∧ ReadIn c d) :
    k.countAll (Reading.parameterNodes (Reading.field? .parameters (ofConcretes c.children)))
      = k.countAmong c (c.partIn (some .parameters)).toList := by
  rw [parameterNodes_eq, parameterList, h.rule.field?_eq (by decide)]
  cases hpart : c.partIn (some .parameters) with
  | none => simp
  | some params =>
    obtain ⟨hlist, hread⟩ := hparams params hpart
    have hbelow := h.child (mem_parts_of_partIn hpart)
    have hkind : params.kind.construct? = none := by
      rcases Kind.isParameterList_iff.mp hlist with hkind | hkind <;> rw [hkind] <;> rfl
    rw [Option.map_some, Option.getD_some, Option.toList_some, hread.countAmong,
      k.weight_of_none hkind, Nat.zero_add, hbelow.rule.countBelow_eq, k.countAll_append,
      k.countAll_flatMap_append, countAll_named fun d _ => parameter_of_isExtra]
    exact countAll_flatMap fun d hd => hbelow.parameter hlist hd

end Parameters

end Concrete

end PyStyle
