import Mathlib.Data.List.TakeWhile
import PyStyle.Proofs.TreeShape

/-!
# Trees that follow the grammar

The grammar says in which order the parts of a node stand, which of them have a role and which are
of one kind only. `Concrete.Grammatical` is about the kinds of parts; here it is about which parts
there are, so that a rule of the reader that looks for some of them is known to miss none.

- `Concrete.Slot`, `Concrete.fills` — a place for parts in a rule, and parts that fill the places;
- `Concrete.Kind.rule?` — the places in a node, for the kinds that the reader takes apart;
- `Concrete.FollowsRule` — a node with the parts that its rule calls for, and nothing in what is no
  part;
- `Concrete.FollowsGrammar` — the same for all nodes of a tree;
- `Concrete.FollowsRule.field?_eq` — what stands in a role is found among the parts.
-/

namespace PyStyle

namespace Concrete

/-! ### Kinds of parts -/

/-- May a node of the kind stand anywhere between the parts of another one? -/
def Kind.isExtra : Kind → Bool
  | .token | .comment | .lineContinuation => true
  | _ => false

/-- Is the kind that of the parameters of a function or a `lambda`? -/
def Kind.isParameterList : Kind → Bool
  | .parameters | .lambdaParameters => true
  | _ => false

/-- Is the kind that of a parameter with a type or a default value? -/
def Kind.isParameterForm : Kind → Bool
  | .typedParameter | .defaultParameter | .typedDefaultParameter => true
  | _ => false

theorem Kind.isParameterList_iff {kind : Kind} :
    kind.isParameterList = true ↔ kind = .parameters ∨ kind = .lambdaParameters := by
  cases kind <;> simp [isParameterList]

theorem Kind.isParameterForm_iff {kind : Kind} :
    kind.isParameterForm = true
      ↔ kind = .typedParameter ∨ kind = .defaultParameter ∨ kind = .typedDefaultParameter := by
  cases kind <;> simp [isParameterForm]

/-- Is a node of the kind read on its own, and not as a part of the node around it? -/
def Kind.standsAlone (kind : Kind) : Bool :=
  !kind.isExtra && !kind.isParameterList && !kind.isParameterForm && kind != .elifClause

/-- May a node of the kind `child` stand in one of the kind `parent`? Parameters and `elif` clauses
have one place only. -/
def Kind.mayHold (parent child : Kind) : Bool :=
  if child.isParameterForm then parent.isParameterList
  else if child == .parameters then parent == .functionDefinition
  else if child == .lambdaParameters then parent == .lambda
  else if child == .elifClause then parent == .ifStatement
  else true

/-- Does a node of the kind just stand around another one? -/
def Kind.isWrapper : Kind → Bool
  | .parenthesizedExpression | .type | .decorator => true
  | _ => false

/-- Is all that stands in a node of the kind read on its own, by what the kinds may hold? -/
def Kind.holdsAlone (kind : Kind) : Bool :=
  !kind.isParameterList && kind != .functionDefinition && kind != .lambda && kind != .ifStatement

/-! ### Rules -/

/-- How many parts a place takes. -/
inductive Times where
  | once
  | optional
  | many
deriving DecidableEq, Repr

/-- A place in a rule: how many parts it takes, in which role and of which kinds. -/
structure Slot where
  times : Times
  role : Option Field
  kinds : Kind → Bool

/-- The part may stand in the place. -/
def Slot.fits (slot : Slot) (part : Concrete) : Bool :=
  part.field == slot.role && slot.kinds part.kind

/-- The parts fill the places, from left to right. -/
def fills : List Slot → List Concrete → Bool
  | [], parts => parts.isEmpty
  | slot :: slots, parts =>
    match slot.times, parts with
    | .once, [] => false
    | .once, part :: rest => slot.fits part && fills slots rest
    | .optional, [] => fills slots []
    | .optional, part :: rest =>
      if slot.fits part then fills slots rest else fills slots (part :: rest)
    | .many, parts => fills slots (parts.dropWhile slot.fits)

/-- One part in a role. -/
@[simp] def Slot.part (role : Field) (kinds : Kind → Bool) : Slot :=
  ⟨.once, some role, kinds⟩

/-- Perhaps one part in a role. -/
@[simp] def Slot.perhaps (role : Field) (kinds : Kind → Bool) : Slot :=
  ⟨.optional, some role, kinds⟩

/-- The block of a statement in a role. -/
@[simp] def Slot.suite (role : Field) : Slot :=
  .part role (· == .block)

/-- The places in a node of the kind, if the reader takes such nodes apart. -/
def Kind.rule? : Kind → Option (List Slot)
  | .identifier | .breakStatement | .continueStatement => some []
  | .functionDefinition => some
    [.part .name (· == .identifier), ⟨.optional, none, (· == .typeParameter)⟩,
     .part .parameters (· == .parameters), .perhaps .returnType (· == .type), .suite .body]
  | .classDefinition => some
    [.part .name (· == .identifier), ⟨.optional, none, (· == .typeParameter)⟩,
     .perhaps .superclasses (· == .argumentList), .suite .body]
  | .decoratedDefinition => some
    [⟨.many, none, (· == .decorator)⟩,
     .part .definition fun kind => kind == .functionDefinition || kind == .classDefinition]
  | .parenthesizedExpression | .type | .decorator => some [⟨.once, none, standsAlone⟩]
  | .lambda => some
    [.perhaps .parameters (· == .lambdaParameters), .part .body standsAlone]
  | .ifStatement => some
    [.part .condition standsAlone, .suite .consequence,
     ⟨.many, some .alternative, (· == .elifClause)⟩, .perhaps .alternative (· == .elseClause)]
  | .elifClause => some [.part .condition standsAlone, .suite .consequence]
  | .elseClause => some [.suite .body]
  | .forStatement => some
    [.part .left standsAlone, .part .right standsAlone, .suite .body,
     .perhaps .alternative (· == .elseClause)]
  | .whileStatement => some
    [.part .condition standsAlone, .suite .body, .perhaps .alternative (· == .elseClause)]
  | .tryStatement => some
    [.suite .body, ⟨.many, none, fun kind => kind == .exceptClause || kind == .exceptGroupClause⟩,
     ⟨.optional, none, (· == .elseClause)⟩, ⟨.optional, none, (· == .finallyClause)⟩]
  | .finallyClause => some [⟨.once, none, (· == .block)⟩]
  | .booleanOperator => some [.part .left standsAlone, .part .right standsAlone]
  | .call => some
    [.part .function standsAlone,
     .part .arguments fun kind => kind == .argumentList || kind == .generatorExpression]
  | .attribute => some [.part .object standsAlone, .part .attribute (· == .identifier)]
  | .typedParameter => some [⟨.once, none, standsAlone⟩, .part .type standsAlone]
  | .defaultParameter => some [.part .name standsAlone, .part .value standsAlone]
  | .typedDefaultParameter => some
    [.part .name standsAlone, .part .type standsAlone, .part .value standsAlone]
  | _ => none

/-- The roles of the parts of a node, in order, if no two of them have the same role. -/
def Kind.roles? (kind : Kind) : Option (List (Option Field)) := do
  let slots ← kind.rule?
  if (∀ slot ∈ slots, slot.times ≠ .many) ∧ (slots.map (·.role)).Nodup then
    some (slots.map (·.role))
  else none

/-- May a part of the kind `child` stand in the role? -/
def Kind.allows (kind : Kind) (role : Option Field) (child : Kind) : Bool :=
  kind.rule?.all fun slots => slots.any fun slot => role == slot.role && slot.kinds child

/-- The children of which the rule of the node speaks. -/
def parts (c : Concrete) : List Concrete :=
  c.children.filter (!·.kind.isExtra)

/-- The first part in a role, or the first one without a role. -/
def partIn (role : Option Field) (c : Concrete) : Option Concrete :=
  c.parts.find? (·.field == role)

/-- The node has the parts that its rule calls for. -/
structure FollowsRule (c : Concrete) : Prop where
  /-- What is no part holds nothing, and has no role but that of an operator. -/
  extra : ∀ child ∈ c.children, child.kind.isExtra = true →
    child.children = [] ∧ child.field ∈ [none, some .operator]
  rule : ∀ slots ∈ c.kind.rule?, fills slots c.parts = true
  held : ∀ child ∈ c.children, c.kind.mayHold child.kind = true
  /-- Between parentheses no two lines are joined before the expression. -/
  wrapped : c.kind.isWrapper = true → ∀ child ∈ c.children, child.kind ≠ .lineContinuation
  operator : c.kind = .booleanOperator → (c.field? .operator).isSome = true

instance (c : Concrete) : Decidable c.FollowsRule :=
  decidable_of_iff
    ((∀ child ∈ c.children, child.kind.isExtra = true →
        child.children.isEmpty = true ∧ child.field ∈ [none, some .operator])
      ∧ (c.kind.rule?.all fun slots => fills slots c.parts) = true
      ∧ (∀ child ∈ c.children, c.kind.mayHold child.kind = true)
      ∧ (c.kind.isWrapper = true → ∀ child ∈ c.children, child.kind ≠ .lineContinuation)
      ∧ (c.kind = .booleanOperator → (c.field? .operator).isSome = true))
    ⟨fun ⟨h₁, h₂, h₃, h₄, h₅⟩ =>
        ⟨by simpa using h₁, by simpa [Option.all_eq_true] using h₂, h₃, h₄, h₅⟩,
      fun h => ⟨by simpa using h.extra, by simpa [Option.all_eq_true] using h.rule, h.held,
        h.wrapped, h.operator⟩⟩

/-- All nodes of the tree have the parts that their rules call for. -/
def FollowsGrammar (root : Concrete) : Prop :=
  ∀ c ∈ root.subtrees, c.FollowsRule

instance (root : Concrete) : Decidable root.FollowsGrammar :=
  inferInstanceAs (Decidable (∀ c ∈ root.subtrees, c.FollowsRule))

theorem FollowsGrammar.of_mem {root c : Concrete} (h : root.FollowsGrammar)
    (hc : c ∈ root.subtrees) : c.FollowsGrammar :=
  fun d hd => h d (mem_subtrees_trans hd hc)

theorem FollowsGrammar.followsRule {c : Concrete} (h : c.FollowsGrammar) : c.FollowsRule :=
  h c c.mem_subtrees_self

theorem FollowsGrammar.child {c child : Concrete} (h : c.FollowsGrammar)
    (hchild : child ∈ c.children) : child.FollowsGrammar :=
  h.of_mem (mem_subtrees_of_child hchild)

/-! ### Taking rules apart -/

section Fills

variable {role : Option Field} {kinds : Kind → Bool} {slots : List Slot} {parts : List Concrete}

theorem Slot.fits_iff {slot : Slot} {part : Concrete} :
    slot.fits part = true ↔ part.field = slot.role ∧ slot.kinds part.kind = true := by
  rw [Slot.fits, Bool.and_eq_true, beq_iff_eq]

theorem eq_nil_of_fills (h : fills [] parts = true) : parts = [] :=
  List.isEmpty_iff.mp h

theorem fills_once (h : fills (⟨.once, role, kinds⟩ :: slots) parts = true) :
    ∃ part rest, parts = part :: rest ∧ part.field = role ∧ kinds part.kind = true
      ∧ fills slots rest = true := by
  cases parts with
  | nil => cases h
  | cons part rest =>
    simp only [fills, Bool.and_eq_true, Slot.fits_iff] at h
    exact ⟨part, rest, rfl, h.1.1, h.1.2, h.2⟩

theorem fills_optional (h : fills (⟨.optional, role, kinds⟩ :: slots) parts = true) :
    ∃ part : Option Concrete, ∃ rest, parts = part.toList ++ rest
      ∧ (∀ p ∈ part, p.field = role ∧ kinds p.kind = true) ∧ fills slots rest = true := by
  cases parts with
  | nil => exact ⟨none, [], rfl, by simp, h⟩
  | cons part rest =>
    simp only [fills] at h
    split at h
    · next hfits =>
      refine ⟨some part, rest, rfl, ?_, h⟩
      rintro p ⟨⟩
      exact Slot.fits_iff.mp hfits
    · exact ⟨none, part :: rest, rfl, by simp, h⟩

theorem fills_many (h : fills (⟨.many, role, kinds⟩ :: slots) parts = true) :
    ∃ front rest, parts = front ++ rest
      ∧ (∀ p ∈ front, p.field = role ∧ kinds p.kind = true) ∧ fills slots rest = true := by
  refine ⟨parts.takeWhile (Slot.fits ⟨.many, role, kinds⟩), _,
    List.takeWhile_append_dropWhile.symm, ?_, ?_⟩
  · intro p hp
    exact Slot.fits_iff.mp (List.mem_takeWhile_imp hp)
  · simpa [fills] using h

/-- A place that takes one part at most. -/
theorem fills_single {slot : Slot} (hslot : slot.times ≠ .many)
    (h : fills (slot :: slots) parts = true) :
    ∃ part : Option Concrete, ∃ rest, parts = part.toList ++ rest
      ∧ (∀ p ∈ part, p.field = slot.role ∧ slot.kinds p.kind = true)
      ∧ fills slots rest = true := by
  obtain ⟨times, role, kinds⟩ := slot
  cases times with
  | once =>
    obtain ⟨part, rest, rfl, hfield, hkind, hrest⟩ := fills_once h
    refine ⟨some part, rest, rfl, ?_, hrest⟩
    rintro p ⟨⟩
    exact ⟨hfield, hkind⟩
  | optional => exact fills_optional h
  | many => exact absurd rfl hslot

/-- Every part has its place. -/
theorem mem_of_fills (h : fills slots parts = true) :
    ∀ p ∈ parts, ∃ slot ∈ slots, p.field = slot.role ∧ slot.kinds p.kind = true := by
  induction slots generalizing parts with
  | nil => simp [eq_nil_of_fills h]
  | cons slot slots ih =>
    have hsplit : ∃ front rest, parts = front ++ rest
        ∧ (∀ p ∈ front, p.field = slot.role ∧ slot.kinds p.kind = true)
        ∧ fills slots rest = true := by
      by_cases hmany : slot.times = .many
      · obtain ⟨times, role, kinds⟩ := slot
        cases hmany
        exact fills_many h
      · obtain ⟨part, rest, hparts, hpart, hrest⟩ := fills_single hmany h
        exact ⟨part.toList, rest, hparts, fun p hp => hpart p (Option.mem_toList.mp hp), hrest⟩
    obtain ⟨front, rest, rfl, hfront, hrest⟩ := hsplit
    intro p hp
    rcases List.mem_append.mp hp with hp | hp
    · exact ⟨slot, List.mem_cons_self, hfront p hp⟩
    · obtain ⟨other, hother, hfits⟩ := ih hrest p hp
      exact ⟨other, List.mem_cons_of_mem _ hother, hfits⟩

/-- If each place is for one part, of a role of its own, the parts are those in the roles. -/
theorem eq_flatMap_of_fills (hsingle : ∀ slot ∈ slots, slot.times ≠ .many)
    (hroles : (slots.map (·.role)).Nodup) (h : fills slots parts = true) :
    parts = (slots.map (·.role)).flatMap fun role => (parts.find? (·.field == role)).toList := by
  induction slots generalizing parts with
  | nil => exact eq_nil_of_fills h
  | cons slot slots ih =>
    obtain ⟨hslot, hsingle⟩ := List.forall_mem_cons.mp hsingle
    obtain ⟨hfresh, hroles⟩ := List.nodup_cons.mp hroles
    obtain ⟨part, rest, rfl, hpart, hrest⟩ := fills_single hslot h
    -- Roles differ, so the part of the first place is found there and hides none of the others.
    have hown : (part.toList ++ rest).find? (·.field == slot.role) = part := by
      have hnone : rest.find? (·.field == slot.role) = none := by
        rw [List.find?_eq_none]
        intro p hp hfield
        obtain ⟨other, hother, hrole, _⟩ := mem_of_fills hrest p hp
        refine hfresh (List.mem_map.mpr ⟨other, hother, ?_⟩)
        exact hrole.symm.trans (beq_iff_eq.mp hfield)
      rw [List.find?_append, hnone, Option.or_none]
      cases part with
      | none => rfl
      | some p => simp [(hpart p rfl).1]
    have hothers : ∀ role ∈ slots.map (·.role),
        (part.toList ++ rest).find? (·.field == role) = rest.find? (·.field == role) := by
      intro role hrole
      have hnone : part.toList.find? (·.field == role) = none := by
        rw [List.find?_eq_none]
        intro p hp hfield
        rw [beq_iff_eq, (hpart p (Option.mem_toList.mp hp)).1] at hfield
        rw [← hfield] at hrole
        exact hfresh hrole
      rw [List.find?_append, hnone, Option.none_or]
    rw [List.map_cons, List.flatMap_cons, hown]
    congr 1
    rw [List.flatMap_congr fun role hrole => by rw [hothers role hrole]]
    exact ih hsingle hroles hrest

end Fills

/-! ### Parts -/

section Parts

variable {c d : Concrete}

theorem mem_parts : d ∈ c.parts ↔ d ∈ c.children ∧ d.kind.isExtra = false := by
  rw [parts, List.mem_filter, Bool.not_eq_true']

theorem mem_parts_of_partIn {role : Option Field} (h : c.partIn role = some d) : d ∈ c.parts :=
  List.mem_of_find?_eq_some h

theorem field_of_partIn {role : Option Field} (h : c.partIn role = some d) : d.field = role :=
  beq_iff_eq.mp (List.find?_some (p := fun part : Concrete => part.field == role) h)

theorem isNamed_of_not_isExtra {kind : Kind} (h : kind.isExtra = false) : kind.isNamed = true := by
  cases kind <;> first | rfl | cases h

/-- Nodes of a kind that is no extra are looked for among the parts. -/
theorem filter_named {kind : Kind} (hkind : kind.isExtra = false) :
    c.namedChildren.filter (·.kind == kind) = c.parts.filter (·.kind == kind) := by
  rw [namedChildren, parts, List.filter_filter, List.filter_filter]
  refine List.filter_congr fun child _ => ?_
  by_cases hchild : child.kind = kind
  · rw [hchild, hkind, isNamed_of_not_isExtra hkind]
    rfl
  · rw [beq_false_of_ne hchild, Bool.false_and, Bool.false_and]

namespace FollowsRule

variable (h : c.FollowsRule)
include h

/-- **What stands in a role is one of the parts.** -/
theorem filter_field {role : Field} (hrole : role ≠ .operator) :
    c.children.filter (·.field == some role) = c.parts.filter (·.field == some role) := by
  rw [parts, List.filter_filter]
  refine List.filter_congr fun child hchild => ?_
  cases hkind : child.kind.isExtra with
  | false => rw [Bool.not_false, Bool.and_true]
  | true =>
    have hfield := (h.extra child hchild hkind).2
    have hne : child.field ≠ some role := by
      intro heq
      rw [heq] at hfield
      simp [hrole] at hfield
    rw [beq_false_of_ne hne, Bool.false_and]

theorem field?_eq {role : Field} (hrole : role ≠ .operator) :
    c.field? role = c.partIn (some role) := by
  rw [field?, partIn, ← List.head?_filter, h.filter_field hrole, List.head?_filter]

/-- A part stands in a role that its kind is allowed in. -/
theorem allows {role : Option Field} (hd : c.partIn role = some d) :
    c.kind.allows role d.kind = true := by
  rw [Kind.allows]
  cases hrule : c.kind.rule? with
  | none => rfl
  | some slots =>
    obtain ⟨slot, hslot, hfield, hkind⟩ :=
      mem_of_fills (h.rule slots hrule) d (mem_parts_of_partIn hd)
    rw [field_of_partIn hd] at hfield
    refine List.any_eq_true.mpr ⟨slot, hslot, ?_⟩
    rw [hfield, hkind, beq_self_eq_true]
    rfl

theorem parts_eq {roles : List (Option Field)} (hroles : c.kind.roles? = some roles) :
    c.parts = roles.flatMap fun role => (c.partIn role).toList := by
  rw [Kind.roles?, Option.bind_eq_bind, Option.bind_eq_some_iff] at hroles
  obtain ⟨slots, hslots, hroles⟩ := hroles
  split at hroles
  · next hcond =>
    cases hroles
    exact eq_flatMap_of_fills hcond.1 hcond.2 (h.rule slots hslots)
  · cases hroles

theorem partIn_eq_none {roles : List (Option Field)} (hroles : c.kind.roles? = some roles)
    {role : Option Field} (hrole : role ∉ roles) : c.partIn role = none := by
  rw [partIn, List.find?_eq_none]
  intro d hd hfield
  rw [h.parts_eq hroles] at hd
  obtain ⟨other, hother, hd⟩ := List.mem_flatMap.mp hd
  rw [field_of_partIn (Option.mem_toList.mp hd), beq_iff_eq] at hfield
  exact hrole (hfield ▸ hother)

/-- What stands around an expression holds nothing else. -/
theorem wrapped_eq (hkind : c.kind.isWrapper = true) :
    ∃ inner, c.statements = [inner] ∧ c.parts = [inner] ∧ inner.kind.standsAlone = true := by
  have hrule : c.kind.rule? = some [⟨.once, none, Kind.standsAlone⟩] := by
    generalize c.kind = kind at hkind ⊢
    cases kind <;> first | rfl | cases hkind
  obtain ⟨inner, rest, hparts, _, halone, hrest⟩ := fills_once (h.rule _ hrule)
  rw [eq_nil_of_fills hrest] at hparts
  refine ⟨inner, ?_, hparts, halone⟩
  rw [← hparts, statements, namedChildren, parts, List.filter_filter]
  refine List.filter_congr fun child hchild => ?_
  have hjoined := h.wrapped hkind child hchild
  cases hchildKind : child.kind <;> first | rfl | exact absurd hchildKind hjoined

/-- Outside of parameters and branches all parts are read on their own. -/
theorem standsAlone (hkind : c.kind.holdsAlone = true) (hd : d ∈ c.parts) :
    d.kind.standsAlone = true := by
  obtain ⟨hmem, hextra⟩ := mem_parts.mp hd
  have hheld := h.held d hmem
  simp only [Kind.holdsAlone, Bool.and_eq_true, Bool.not_eq_true', bne_iff_ne] at hkind
  obtain ⟨⟨⟨hlist, hfunction⟩, hlambda⟩, hif⟩ := hkind
  rw [Kind.standsAlone, hextra]
  -- Each kind that does not stand alone has one kind of parent, and `c` is none of them.
  rw [Kind.mayHold] at hheld
  split at hheld
  · rw [hlist] at hheld
    cases hheld
  split at hheld
  · exact absurd (beq_iff_eq.mp hheld) hfunction
  split at hheld
  · exact absurd (beq_iff_eq.mp hheld) hlambda
  split at hheld
  · exact absurd (beq_iff_eq.mp hheld) hif
  · next hform hparameters hlambdaParameters helif =>
    have hnone : d.kind.isParameterList = false := by
      cases hlist : d.kind <;> first | rfl | simp_all
    simp_all

end FollowsRule

end Parts

end Concrete

end PyStyle
