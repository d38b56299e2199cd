import Mathlib.Data.List.Nodup
import Mathlib.Order.Bounds.Basic
import PyStyle.Catalog

/-!
# What a catalog accepts

A catalog is built in one pass over the groups that stops at the first defect. Neither the
order of the pass nor what it remembers on the way shows in its answer:

- `SoundGroup`, `SoundGroups` — what a group must be by itself, and groups together;
- `CatalogError.Present` — the groups have the defect that an error names;
- `Distinct` — the invariant of the pass: what it has seen shares no code and no template;
- `buildFrom_eq_ok_iff` — the pass goes through exactly for sound groups, and what it builds;
- `registerAll_error`, `buildFrom_error` — where a pass stops, everything before it was seen;
- `build_ok_iff_sound` — exactly sound groups make a catalog, and every error is true of the
  groups it is about.
-/

namespace PyStyle

/-! ### Soundness, without an order of checking -/

/-- One of the rules has the code. -/
def HasCode (rules : List Rule) (code : Nat) : Prop :=
  ∃ rule ∈ rules, rule.code = code

/-- Two codes of the rules with no code of the rules between them. -/
structure Neighbours (rules : List Rule) (low high : Nat) : Prop where
  low_mem : HasCode rules low
  high_mem : HasCode rules high
  low_lt : low < high
  outside : ∀ code, HasCode rules code → code ≤ low ∨ high ≤ code

/-- The code lies in the block of the category. -/
def Category.Owns (category : Category) (code : Nat) : Prop :=
  100 * category.index ≤ code ∧ code ≤ 100 * category.index + 99

/-- What the codes of a category must be. -/
structure SoundNumbering (category : Category) (rules : List Rule) : Prop where
  owns : ∀ rule ∈ rules, category.Owns rule.code
  start : IsLeast {code | HasCode rules code} (100 * category.index)
  gaps : ∀ low high, Neighbours rules low high → high ≠ low + 2

/-- What a group must be by itself. -/
structure SoundGroup (group : Category × List Rule) : Prop
    extends SoundNumbering group.1 group.2 where
  nonempty : group.2 ≠ []
  category : ∀ rule ∈ group.2, rule.category = group.1
  isFinal : ∀ rule ∈ group.2, rule.isFinal = true

/-- All rules of the groups, in the order of their declaration. -/
def allRules (groups : List (Category × List Rule)) : List Rule :=
  groups.flatMap (·.2)

/-- No two rules share a code or a template. -/
structure Distinct (rules : List Rule) : Prop where
  codes : (rules.map (·.code)).Nodup
  templates : (rules.map (·.template)).Nodup

/-- What groups must be to make a catalog. -/
structure SoundGroups (groups : List (Category × List Rule)) : Prop
    extends Distinct (allRules groups) where
  categories : groups.map (·.1) = Category.all
  sound : ∀ group ∈ groups, SoundGroup group

/-- The group of a category stands in the place of the category. -/
def GroupOf (groups : List (Category × List Rule)) (category : Category) (rules : List Rule) :
    Prop :=
  groups[category.index]? = some (category, rules)

/-- The groups have the defect that the error names. -/
def CatalogError.Present (groups : List (Category × List Rule)) : CatalogError → Prop
  | .categoryCount expected found =>
    expected = Category.all.length ∧ found = groups.length ∧ found ≠ expected
  | .categoryOrder position expected found =>
    Category.all[position]? = some expected ∧ (groups.map (·.1))[position]? = some found
      ∧ found ≠ expected
  | .emptyCategory category => GroupOf groups category []
  | .wrongCategory code declared group =>
    ∃ rules, GroupOf groups group rules ∧ declared ≠ group
      ∧ ∃ rule ∈ rules, rule.code = code ∧ rule.category = declared
  | .duplicateCode code => 2 ≤ ((allRules groups).map (·.code)).count code
  | .duplicateMessage template first second =>
    first ≠ second
      ∧ (∃ rule ∈ allRules groups, rule.code = first ∧ rule.template = template)
      ∧ ∃ rule ∈ allRules groups, rule.code = second ∧ rule.template = template
  | .notFinal code => ∃ rule ∈ allRules groups, rule.code = code ∧ rule.isFinal = false
  | .outOfRange code category =>
    ∃ rules, GroupOf groups category rules ∧ HasCode rules code ∧ ¬ category.Owns code
  | .wrongStart category expected found =>
    ∃ rules, GroupOf groups category rules ∧ IsLeast {code | HasCode rules code} found
      ∧ expected = 100 * category.index ∧ found ≠ expected
  | .badGap category previous code =>
    ∃ rules, GroupOf groups category rules ∧ Neighbours rules previous code
      ∧ code = previous + 2

/-! ### Rules that share nothing -/

theorem Distinct.nil : Distinct [] := ⟨List.nodup_nil, List.nodup_nil⟩

theorem nodup_map_cons {β : Type} (f : Rule → β) {rule : Rule} {rules : List Rule} :
    ((rule :: rules).map f).Nodup ↔ (∀ r ∈ rules, f r ≠ f rule) ∧ (rules.map f).Nodup := by
  rw [List.map_cons, List.nodup_cons, List.mem_map]
  refine and_congr_left' ?_
  constructor
  · intro h r hr heq
    exact h ⟨r, hr, heq⟩
  · rintro h ⟨r, hr, heq⟩
    exact h r hr heq

theorem distinct_cons {rule : Rule} {rules : List Rule} :
    Distinct (rule :: rules)
      ↔ (∀ r ∈ rules, r.code ≠ rule.code) ∧ (∀ r ∈ rules, r.template ≠ rule.template)
        ∧ Distinct rules := by
  constructor
  · rintro ⟨hcodes, htemplates⟩
    obtain ⟨hcode, hcodes⟩ := (nodup_map_cons (·.code)).mp hcodes
    obtain ⟨htemplate, htemplates⟩ := (nodup_map_cons (·.template)).mp htemplates
    exact ⟨hcode, htemplate, hcodes, htemplates⟩
  · rintro ⟨hcode, htemplate, hcodes, htemplates⟩
    exact ⟨(nodup_map_cons (·.code)).mpr ⟨hcode, hcodes⟩,
      (nodup_map_cons (·.template)).mpr ⟨htemplate, htemplates⟩⟩

theorem Distinct.right {front back : List Rule} (h : Distinct (front ++ back)) :
    Distinct back := by
  have hcodes := h.codes
  have htemplates := h.templates
  rw [List.map_append] at hcodes htemplates
  exact ⟨hcodes.of_append_right, htemplates.of_append_right⟩

theorem distinct_reverse {rules : List Rule} : Distinct rules.reverse ↔ Distinct rules := by
  constructor
  · rintro ⟨hcodes, htemplates⟩
    rw [List.map_reverse, List.nodup_reverse] at hcodes htemplates
    exact ⟨hcodes, htemplates⟩
  · rintro ⟨hcodes, htemplates⟩
    constructor <;> rwa [List.map_reverse, List.nodup_reverse]

namespace Catalog

/-! ### Registering the rules of a group -/

/-- What registering a rule of a group can come to, and why. -/
inductive Registers (group : Category) (seen : List Rule) (rule : Rule) :
    Except CatalogError (List Rule) → Prop
  | wrongCategory (hgroup : rule.category ≠ group) :
    Registers group seen rule (.error (.wrongCategory rule.code rule.category group))
  | notFinal (hfinal : rule.isFinal = false) :
    Registers group seen rule (.error (.notFinal rule.code))
  | duplicateCode {earlier : Rule} (hmem : earlier ∈ seen) (hcode : earlier.code = rule.code) :
    Registers group seen rule (.error (.duplicateCode rule.code))
  | duplicateMessage {first : Rule} (hmem : first ∈ seen)
      (htemplate : first.template = rule.template) (hcode : first.code ≠ rule.code) :
    Registers group seen rule
      (.error (.duplicateMessage rule.template first.code rule.code))
  | accepted (hgroup : rule.category = group) (hfinal : rule.isFinal = true)
      (hcodes : ∀ earlier ∈ seen, earlier.code ≠ rule.code)
      (htemplates : ∀ earlier ∈ seen, earlier.template ≠ rule.template) :
    Registers group seen rule (.ok (rule :: seen))

theorem registers_register (group : Category) (seen : List Rule) (rule : Rule) :
    Registers group seen rule (register group seen rule) := by
  unfold register
  split
  · next hgroup => exact .wrongCategory hgroup
  next hgroup =>
  split
  · next hfinal => exact .notFinal (by simpa using hfinal)
  next hfinal =>
  split
  · next hany =>
    obtain ⟨earlier, hmem, hcode⟩ := List.any_eq_true.mp hany
    exact .duplicateCode hmem (by simpa using hcode)
  next hany =>
  have hcodes : ∀ earlier ∈ seen, earlier.code ≠ rule.code := by simpa using hany
  split
  · next first hfind =>
    have hmem : first ∈ seen := List.mem_of_find?_eq_some hfind
    exact .duplicateMessage hmem (by simpa using List.find?_some hfind) (hcodes first hmem)
  · next hfind =>
    exact .accepted (by simpa using hgroup) (by simpa using hfinal) hcodes (by simpa using hfind)

/-- A rule is accepted if it fits its group and shares nothing with what was seen. -/
theorem register_eq_ok_iff {group : Category} {seen seen' : List Rule} {rule : Rule}
    (hseen : Distinct seen) :
    register group seen rule = .ok seen'
      ↔ (rule.category = group ∧ rule.isFinal = true) ∧ Distinct (rule :: seen)
        ∧ seen' = rule :: seen := by
  have hspec := registers_register group seen rule
  constructor
  · intro h
    rw [h] at hspec
    cases hspec with
    | accepted hgroup hfinal hcodes htemplates =>
      exact ⟨⟨hgroup, hfinal⟩, distinct_cons.mpr ⟨hcodes, htemplates, hseen⟩, rfl⟩
  · rintro ⟨⟨hgroup, hfinal⟩, hdistinct, rfl⟩
    obtain ⟨hcodes, htemplates, -⟩ := distinct_cons.mp hdistinct
    generalize hresult : register group seen rule = result at hspec
    cases hspec with
    | wrongCategory h => exact absurd hgroup h
    | notFinal h => simp [hfinal] at h
    | duplicateCode hmem h => exact absurd h (hcodes _ hmem)
    | duplicateMessage hmem h _ => exact absurd h (htemplates _ hmem)
    | accepted => rfl

/-- All rules of a group are accepted if each fits and none shares anything with another or
with what was seen before the group. -/
theorem registerAll_eq_ok_iff {group : Category} {rules seen seen' : List Rule}
    (hseen : Distinct seen) :
    registerAll group seen rules = .ok seen'
      ↔ (∀ rule ∈ rules, rule.category = group ∧ rule.isFinal = true)
        ∧ Distinct (rules.reverse ++ seen) ∧ seen' = rules.reverse ++ seen := by
  induction rules generalizing seen with
  | nil =>
    constructor
    · intro h
      cases h
      exact ⟨by simp, hseen, rfl⟩
    · rintro ⟨-, -, rfl⟩
      rfl
  | cons rule rest ih =>
    have hshift : (rule :: rest).reverse ++ seen = rest.reverse ++ (rule :: seen) := by simp
    rw [registerAll, hshift, List.forall_mem_cons]
    constructor
    · intro h
      cases hregister : register group seen rule with
      | error e =>
        rw [hregister] at h
        cases h
      | ok next =>
        obtain ⟨hfits, hnext, rfl⟩ := (register_eq_ok_iff hseen).mp hregister
        rw [hregister] at h
        obtain ⟨hrest, hdistinct, rfl⟩ := (ih hnext).mp h
        exact ⟨⟨hfits, hrest⟩, hdistinct, rfl⟩
    · rintro ⟨⟨hfits, hrest⟩, hdistinct, rfl⟩
      -- The rule shares nothing with what was seen, since all rules together share nothing.
      have hnext : Distinct (rule :: seen) := hdistinct.right
      rw [(register_eq_ok_iff hseen).mpr ⟨hfits, hnext, rfl⟩]
      exact (ih hnext).mpr ⟨hrest, hdistinct, rfl⟩

/-- An error is that of one rule, when everything before it was seen. -/
theorem registerAll_error {group : Category} {rules seen : List Rule} {e : CatalogError}
    (h : registerAll group seen rules = .error e) :
    ∃ before rule after, rules = before ++ rule :: after
      ∧ Registers group (before.reverse ++ seen) rule (.error e) := by
  induction rules generalizing seen with
  | nil => cases h
  | cons rule rest ih =>
    rw [registerAll] at h
    have hspec := registers_register group seen rule
    cases hregister : register group seen rule with
    | error e' =>
      rw [hregister] at h hspec
      cases h
      exact ⟨[], rule, rest, rfl, hspec⟩
    | ok next =>
      rw [hregister] at h hspec
      cases hspec with
      | accepted =>
        obtain ⟨before, other, after, rfl, hother⟩ := ih h
        exact ⟨rule :: before, other, after, rfl, by simpa using hother⟩

/-! ### The numbering of a group -/

theorem hasCode_sorted (rules : List Rule) : HasCode (sorted rules) = HasCode rules := by
  funext code
  simp [HasCode, sorted]

theorem pairwise_sorted (rules : List Rule) :
    (sorted rules).Pairwise fun a b => a.code ≤ b.code := by
  have h := @List.pairwise_mergeSort Rule (fun a b => decide (a.code ≤ b.code))
    (fun a b c => by simpa using Nat.le_trans)
    (fun a b => by simpa using Nat.le_total a.code b.code) rules
  simpa [sorted] using h

theorem hasCode_cons {rule : Rule} {rules : List Rule} {code : Nat} :
    HasCode (rule :: rules) code ↔ code = rule.code ∨ HasCode rules code := by
  constructor
  · rintro ⟨r, hr, rfl⟩
    rcases List.mem_cons.mp hr with rfl | hr
    · exact .inl rfl
    · exact .inr ⟨r, hr, rfl⟩
  · rintro (rfl | ⟨r, hr, rfl⟩)
    · exact ⟨rule, List.mem_cons_self, rfl⟩
    · exact ⟨r, List.mem_cons_of_mem _ hr, rfl⟩

/-- The first of the rules in order has their smallest code. -/
theorem first_le {first : Rule} {rest : List Rule} {code : Nat}
    (hsorted : (first :: rest).Pairwise fun a b => a.code ≤ b.code)
    (h : HasCode (first :: rest) code) : first.code ≤ code := by
  rcases hasCode_cons.mp h with rfl | ⟨rule, hrule, rfl⟩
  · exact Nat.le_refl _
  · exact (List.pairwise_cons.mp hsorted).1 rule hrule

/-- A hole that the scan finds is one. -/
theorem neighbours_of_holeOfOne {rules : List Rule} {low high : Nat}
    (hsorted : rules.Pairwise fun a b => a.code ≤ b.code)
    (h : holeOfOne rules = some (low, high)) : Neighbours rules low high ∧ high = low + 2 := by
  fun_induction holeOfOne rules with
  | case1 a b rest hgap =>
    obtain ⟨rfl, rfl⟩ := Prod.mk.inj (Option.some.inj h)
    have htail := (List.pairwise_cons.mp hsorted).2
    refine ⟨⟨hasCode_cons.mpr (.inl rfl), ⟨b, by simp, rfl⟩, by omega, ?_⟩, hgap⟩
    intro code hcode
    rcases hasCode_cons.mp hcode with rfl | hcode
    · exact .inl (Nat.le_refl _)
    · exact .inr (first_le htail hcode)
  | case2 a b rest hgap ih =>
    obtain ⟨⟨hlow, hhigh, hlt, houtside⟩, heq⟩ := ih (List.pairwise_cons.mp hsorted).2 h
    have hlow' : HasCode (a :: b :: rest) low := hasCode_cons.mpr (.inr hlow)
    refine ⟨⟨hlow', hasCode_cons.mpr (.inr hhigh), hlt, ?_⟩, heq⟩
    intro code hcode
    rcases hasCode_cons.mp hcode with rfl | hcode
    · -- The first code is the smallest, so it lies below the hole.
      exact .inl (first_le hsorted hlow')
    · exact houtside code hcode
  | case3 rules hshort => cases h

/-- Where the scan finds no hole there is none. -/
theorem ne_of_holeOfOne_eq_none {rules : List Rule} {low high : Nat}
    (hsorted : rules.Pairwise fun a b => a.code ≤ b.code)
    (h : holeOfOne rules = none) (hneighbours : Neighbours rules low high) :
    high ≠ low + 2 := by
  fun_induction holeOfOne rules with
  | case1 a b rest hgap => cases h
  | case2 a b rest hgap ih =>
    obtain ⟨hlow, hhigh, hlt, houtside⟩ := hneighbours
    have htail := (List.pairwise_cons.mp hsorted).2
    have hfirst := first_le hsorted hlow
    have hhigh' : HasCode (b :: rest) high := by
      rcases hasCode_cons.mp hhigh with rfl | hhigh
      · omega
      · exact hhigh
    have hrest : ∀ code, HasCode (b :: rest) code → code ≤ low ∨ high ≤ code :=
      fun code hcode => houtside code (hasCode_cons.mpr (.inr hcode))
    by_cases hlow' : HasCode (b :: rest) low
    · exact ih htail h ⟨hlow', hhigh', hlt, hrest⟩
    · -- Only the first rule has the lower code, so the second one has the upper code.
      have hlowa : low = a.code := (hasCode_cons.mp hlow).resolve_right hlow'
      have hb : HasCode (b :: rest) b.code := hasCode_cons.mpr (.inl rfl)
      have hne : b.code ≠ low := fun heq => hlow' (heq ▸ hb)
      have hle := first_le hsorted (hasCode_cons.mpr (.inr hb))
      have hbhigh := first_le htail hhigh'
      rcases hrest b.code hb with hbelow | habove
      · omega
      · omega
  | case3 rules hshort =>
    obtain ⟨hlow, hhigh, hlt, -⟩ := hneighbours
    match rules with
    | [] =>
      obtain ⟨rule, hrule, -⟩ := hlow
      cases hrule
    | [rule] =>
      obtain ⟨lower, hlower, rfl⟩ := hlow
      obtain ⟨upper, hupper, rfl⟩ := hhigh
      rw [List.mem_singleton.mp hlower, List.mem_singleton.mp hupper] at hlt
      exact absurd hlt (Nat.lt_irrefl _)
    | a :: b :: rest => exact absurd rfl (hshort a b rest)

/-- What checking the numbering of a group can come to, and why. -/
inductive Numbers (category : Category) (rules : List Rule) : Except CatalogError Unit → Prop
  | outOfRange {code : Nat} (hcode : HasCode rules code) (howns : ¬ category.Owns code) :
    Numbers category rules (.error (.outOfRange code category))
  | wrongStart {found : Nat} (hleast : IsLeast {code | HasCode rules code} found)
      (hne : found ≠ 100 * category.index) :
    Numbers category rules (.error (.wrongStart category (100 * category.index) found))
  | badGap {previous : Nat} (hneighbours : Neighbours rules previous (previous + 2)) :
    Numbers category rules (.error (.badGap category previous (previous + 2)))
  | accepted (hsound : SoundNumbering category rules) : Numbers category rules (.ok ())

theorem owns_iff {category : Category} {code : Nat} :
    category.Owns code ↔ category.base ≤ code ∧ code ≤ category.last := by
  rw [Category.Owns, Category.last, Category.base, Nat.mul_comm]

theorem numbers_of_pairwise (category : Category) {rules : List Rule} (hne : rules ≠ [])
    (hsorted : rules.Pairwise fun a b => a.code ≤ b.code) :
    Numbers category rules (checkNumbering category rules) := by
  have hbase : category.base = 100 * category.index := Nat.mul_comm ..
  unfold checkNumbering
  split
  · next rule hfind =>
    have hout := List.find?_some hfind
    refine .outOfRange ⟨rule, List.mem_of_find?_eq_some hfind, rfl⟩ fun howns => ?_
    rw [owns_iff] at howns
    simp at hout
    omega
  next hfind =>
  have howns : ∀ rule ∈ rules, category.Owns rule.code := by
    intro rule hrule
    have hin := List.find?_eq_none.mp hfind rule hrule
    rw [owns_iff]
    simpa using hin
  split
  · exact absurd rfl hne
  next first rest =>
  have hleast : IsLeast {code | HasCode (first :: rest) code} first.code :=
    ⟨hasCode_cons.mpr (.inl rfl), fun code hcode => first_le hsorted hcode⟩
  split
  · next hstart =>
    rw [hbase] at hstart ⊢
    exact .wrongStart hleast hstart
  next hstart =>
  split
  · next previous code hhole =>
    obtain ⟨hneighbours, rfl⟩ := neighbours_of_holeOfOne hsorted hhole
    exact .badGap hneighbours
  · next hhole =>
    refine .accepted ⟨howns, ?_, fun low high => ne_of_holeOfOne_eq_none hsorted hhole⟩
    rw [← hbase, ← Decidable.of_not_not hstart]
    exact hleast

/-- The numbering is checked in the order of codes, but what is checked does not depend on
it. -/
theorem numbers_checkNumbering (category : Category) {rules : List Rule} (hne : rules ≠ []) :
    Numbers category rules (checkNumbering category (sorted rules)) := by
  have hcodes := hasCode_sorted rules
  have hneighbours : ∀ low high,
      Neighbours (sorted rules) low high ↔ Neighbours rules low high := by
    intro low high
    constructor <;> rintro ⟨hlow, hhigh, hlt, houtside⟩
    · exact ⟨hcodes ▸ hlow, hcodes ▸ hhigh, hlt, hcodes ▸ houtside⟩
    · exact ⟨hcodes ▸ hlow, hcodes ▸ hhigh, hlt, hcodes ▸ houtside⟩
  have hperm : (sorted rules).Perm rules := List.mergeSort_perm rules _
  have hsorted : sorted rules ≠ [] := fun h => hne (List.nil_perm.mp (h ▸ hperm))
  have h := numbers_of_pairwise category hsorted (pairwise_sorted rules)
  generalize checkNumbering category (sorted rules) = result at h
  cases h with
  | outOfRange hcode howns => exact .outOfRange (hcodes ▸ hcode) howns
  | wrongStart hleast hne => exact .wrongStart (hcodes ▸ hleast) hne
  | badGap hgap => exact .badGap ((hneighbours _ _).mp hgap)
  | accepted hsound =>
    refine .accepted ⟨fun rule hrule => ?_, hcodes ▸ hsound.start, fun low high h => ?_⟩
    · exact hsound.owns rule (by simpa [sorted] using hrule)
    · exact hsound.gaps low high ((hneighbours low high).mpr h)

theorem checkNumbering_eq_ok_iff {category : Category} {rules : List Rule} (hne : rules ≠ []) :
    checkNumbering category (sorted rules) = .ok () ↔ SoundNumbering category rules := by
  have hspec := numbers_checkNumbering category hne
  constructor
  · intro h
    rw [h] at hspec
    cases hspec with
    | accepted hsound => exact hsound
  · intro hsound
    generalize checkNumbering category (sorted rules) = result at hspec
    cases hspec with
    | outOfRange hcode howns =>
      obtain ⟨rule, hrule, rfl⟩ := hcode
      exact absurd (hsound.owns rule hrule) howns
    | wrongStart hleast hne => exact absurd (hleast.unique hsound.start) hne
    | badGap hneighbours => exact absurd rfl (hsound.gaps _ _ hneighbours)
    | accepted => rfl

/-! ### The pass over the groups -/

/-- A group is accepted if it is the expected one, is sound by itself and shares nothing with
what was seen before. -/
theorem buildGroup_eq_ok_iff {position : Nat} {expected : Category}
    {group : Category × List Rule} {seen : List Rule} {result : List Rule × List Rule}
    (hseen : Distinct seen) :
    buildGroup position expected group seen = .ok result
      ↔ group.1 = expected ∧ SoundGroup group ∧ Distinct (group.2.reverse ++ seen)
        ∧ result = (sorted group.2, group.2.reverse ++ seen) := by
  constructor
  · intro h
    unfold buildGroup at h
    split at h
    · cases h
    next hexpected =>
    split at h
    · cases h
    next hempty =>
    have hne : group.2 ≠ [] := by simpa using hempty
    split at h
    · cases h
    next next hregister =>
    obtain ⟨hfits, hdistinct, rfl⟩ := (registerAll_eq_ok_iff hseen).mp hregister
    split at h
    · cases h
    next hnumbering =>
    cases h
    have hsound := (checkNumbering_eq_ok_iff hne).mp hnumbering
    refine ⟨Decidable.of_not_not hexpected, ⟨hsound, hne, ?_, ?_⟩, hdistinct, rfl⟩
    · exact fun rule hrule => (hfits rule hrule).1
    · exact fun rule hrule => (hfits rule hrule).2
  · rintro ⟨rfl, hsound, hdistinct, rfl⟩
    have hfits : ∀ rule ∈ group.2, rule.category = group.1 ∧ rule.isFinal = true :=
      fun rule hrule => ⟨hsound.category rule hrule, hsound.isFinal rule hrule⟩
    have hempty : group.2.isEmpty = false := by simpa using hsound.nonempty
    rw [buildGroup, if_neg (not_not_intro rfl), hempty, if_neg Bool.false_ne_true,
      (registerAll_eq_ok_iff hseen).mpr ⟨hfits, hdistinct, rfl⟩]
    dsimp only
    rw [(checkNumbering_eq_ok_iff hsound.nonempty).mpr hsound.toSoundNumbering]

/-- What a group can be refused for. The numbering is looked at only when all rules were
registered. -/
theorem buildGroup_error {position : Nat} {expected : Category}
    {group : Category × List Rule} {seen : List Rule} {e : CatalogError}
    (h : buildGroup position expected group seen = .error e) :
    (group.1 ≠ expected ∧ e = .categoryOrder position expected group.1)
      ∨ group.1 = expected
        ∧ ((group.2 = [] ∧ e = .emptyCategory group.1)
          ∨ registerAll group.1 seen group.2 = .error e
          ∨ Numbers group.1 group.2 (.error e)) := by
  unfold buildGroup at h
  split at h
  · next hexpected =>
    cases h
    exact .inl ⟨hexpected, rfl⟩
  next hexpected =>
  refine .inr ⟨Decidable.of_not_not hexpected, ?_⟩
  split at h
  · next hempty =>
    cases h
    exact .inl ⟨by simpa using hempty, rfl⟩
  next hempty =>
  have hne : group.2 ≠ [] := by simpa using hempty
  refine .inr ?_
  split at h
  · next e' hregister =>
    cases h
    exact .inl hregister
  next next hregister =>
  split at h
  · next e' hnumbering =>
    cases h
    exact .inr (hnumbering ▸ numbers_checkNumbering group.1 hne)
  · cases h

/-- The catalog of the groups, whether they are sound or not. -/
def ofGroups (groups : List (Category × List Rule)) : Catalog where
  groups := groups.map fun group => (group.1, sorted group.2)
  registered := (allRules groups).reverse

/-- **The pass goes through exactly for sound groups**, whatever was seen before it. -/
theorem buildFrom_eq_ok_iff {position : Nat} {seen : List Rule} {categories : List Category}
    {groups : List (Category × List Rule)} {catalog : Catalog} (hseen : Distinct seen)
    (hlength : groups.length = categories.length) :
    buildFrom position seen categories groups = .ok catalog
      ↔ groups.map (·.1) = categories ∧ (∀ group ∈ groups, SoundGroup group)
        ∧ Distinct ((allRules groups).reverse ++ seen)
        ∧ catalog = { ofGroups groups with registered := (allRules groups).reverse ++ seen } := by
  -- What was seen grows by a whole group in each step, and stays distinct on the way.
  induction groups generalizing position seen categories catalog with
  | nil =>
    obtain rfl : categories = [] := List.length_eq_zero_iff.mp hlength.symm
    constructor
    · intro h
      cases h
      exact ⟨rfl, by simp, hseen, rfl⟩
    · rintro ⟨-, -, -, rfl⟩
      rfl
  | cons group groups ih =>
    match categories, hlength with
    | expected :: categories, hlength =>
    have hrest : groups.length = categories.length := Nat.succ.inj hlength
    have hshift : (allRules (group :: groups)).reverse ++ seen
        = (allRules groups).reverse ++ (group.2.reverse ++ seen) := by
      simp [allRules]
    rw [buildFrom, hshift, List.map_cons, List.cons.injEq, List.forall_mem_cons]
    constructor
    · intro h
      split at h
      · cases h
      next rules next hgroup =>
      obtain ⟨rfl, hsound, hnext, heq⟩ := (buildGroup_eq_ok_iff hseen).mp hgroup
      obtain ⟨rfl, rfl⟩ := Prod.mk.inj heq
      split at h
      · cases h
      next rest hbuild =>
      cases h
      obtain ⟨hcategories, hgroups, hdistinct, rfl⟩ := (ih hnext hrest).mp hbuild
      exact ⟨⟨rfl, hcategories⟩, ⟨hsound, hgroups⟩, hdistinct, rfl⟩
    · rintro ⟨⟨rfl, hcategories⟩, ⟨hsound, hgroups⟩, hdistinct, rfl⟩
      have hnext : Distinct (group.2.reverse ++ seen) := hdistinct.right
      rw [(buildGroup_eq_ok_iff hseen).mpr ⟨rfl, hsound, hnext, rfl⟩]
      dsimp only
      rw [(ih hnext hrest).mpr ⟨hcategories, hgroups, hdistinct, rfl⟩]
      rfl

/-- An error of the pass is that of one group, when everything before it was seen. -/
theorem buildFrom_error {position : Nat} {seen : List Rule} {categories : List Category}
    {groups : List (Category × List Rule)} {e : CatalogError} (hseen : Distinct seen)
    (h : buildFrom position seen categories groups = .error e) :
    ∃ before group after expected, groups = before ++ group :: after
      ∧ categories[before.length]? = some expected
      ∧ buildGroup (position + before.length) expected group ((allRules before).reverse ++ seen)
        = .error e := by
  induction groups generalizing position seen categories with
  | nil => cases categories <;> cases h
  | cons group groups ih =>
    match categories with
    | [] => cases h
    | expected :: categories =>
    rw [buildFrom] at h
    split at h
    · next e' hgroup =>
      cases h
      exact ⟨[], group, groups, expected, rfl, rfl, hgroup⟩
    next rules next hgroup =>
    obtain ⟨-, -, hnext, heq⟩ := (buildGroup_eq_ok_iff hseen).mp hgroup
    obtain ⟨-, rfl⟩ := Prod.mk.inj heq
    split at h
    · next e' hrest =>
      cases h
      obtain ⟨before, other, after, expected', rfl, hexpected, hother⟩ := ih hnext hrest
      refine ⟨group :: before, other, after, expected', rfl, hexpected, ?_⟩
      rw [List.length_cons, Nat.add_comm before.length, ← Nat.add_assoc]
      simpa [allRules] using hother
    · cases h

/-! ### The whole build -/

theorem index_of_all {category : Category} {place : Nat}
    (h : Category.all[place]? = some category) : category.index = place := by
  match place with
  | 0 | 1 | 2 | 3 | 4 | 5 | 6 =>
    cases h
    rfl
  | _ + 7 => cases h

/-- A group that follows as many groups as categories precede its own is in its place. -/
theorem groupOf_of_all {before after : List (Category × List Rule)}
    {group : Category × List Rule} (h : Category.all[before.length]? = some group.1) :
    GroupOf (before ++ group :: after) group.1 group.2 := by
  rw [GroupOf, index_of_all h, List.getElem?_append_right (Nat.le_refl _), Nat.sub_self]
  rfl

/-- An error at one rule of a group names a defect that the groups have. -/
theorem present_of_registers {groups : List (Category × List Rule)}
    {group : Category} {rules earlier later seen : List Rule} {rule : Rule} {e : CatalogError}
    (hgroup : GroupOf groups group rules) (hrule : rule ∈ rules)
    (hall : allRules groups = earlier ++ rule :: later) (hseen : seen = earlier.reverse)
    (h : Registers group seen rule (.error e)) : e.Present groups := by
  subst hseen
  have hmem : ∀ r ∈ earlier.reverse, r ∈ allRules groups := by
    intro r hr
    rw [hall]
    exact List.mem_append_left _ (List.mem_reverse.mp hr)
  have hself : rule ∈ allRules groups := by
    rw [hall]
    exact List.mem_append_right _ List.mem_cons_self
  cases h with
  | wrongCategory hne => exact ⟨rules, hgroup, hne, rule, hrule, rfl, rfl⟩
  | notFinal hfinal => exact ⟨rule, hself, rfl, hfinal⟩
  | @duplicateCode first hfirst hcode =>
    -- One occurrence lies before the rule, the other one is the rule itself.
    have hbefore : 0 < (earlier.map (·.code)).count rule.code := by
      rw [List.count_pos_iff, ← hcode]
      exact List.mem_map_of_mem (List.mem_reverse.mp hfirst)
    show 2 ≤ ((allRules groups).map (·.code)).count rule.code
    rw [hall, List.map_append, List.map_cons, List.count_append, List.count_cons_self]
    omega
  | @duplicateMessage first hfirst htemplate hcode =>
    exact ⟨hcode, ⟨first, hmem first hfirst, rfl, htemplate⟩, rule, hself, rfl, rfl⟩

/-- An error at the numbering of a group names a defect that the groups have. -/
theorem present_of_numbers {groups : List (Category × List Rule)} {group : Category}
    {rules : List Rule} {e : CatalogError} (hgroup : GroupOf groups group rules)
    (h : Numbers group rules (.error e)) : e.Present groups := by
  cases h with
  | outOfRange hcode howns => exact ⟨rules, hgroup, hcode, howns⟩
  | wrongStart hleast hne => exact ⟨rules, hgroup, hleast, rfl, hne⟩
  | badGap hneighbours => exact ⟨rules, hgroup, hneighbours, rfl⟩

/-- An error at one group names a defect that the groups have. -/
theorem present_of_buildGroup {before after : List (Category × List Rule)}
    {group : Category × List Rule} {expected : Category} {e : CatalogError}
    (hexpected : Category.all[before.length]? = some expected)
    (h : buildGroup before.length expected group (allRules before).reverse = .error e) :
    e.Present (before ++ group :: after) := by
  rcases buildGroup_error h with ⟨hne, rfl⟩ | ⟨rfl, hreason⟩
  · refine ⟨hexpected, ?_, hne⟩
    simp
  have hgroup : GroupOf (before ++ group :: after) group.1 group.2 := groupOf_of_all hexpected
  rcases hreason with ⟨hempty, rfl⟩ | hregister | hnumbers
  · rw [hempty] at hgroup
    exact hgroup
  · obtain ⟨front, rule, back, hrules, hrule⟩ := registerAll_error hregister
    have hall : allRules (before ++ group :: after)
        = (allRules before ++ front) ++ rule :: (back ++ allRules after) := by
      simp [allRules, hrules]
    exact present_of_registers hgroup (by simp [hrules]) hall (by simp) hrule
  · exact present_of_numbers hgroup hnumbers

theorem build_eq_ok_iff {groups : List (Category × List Rule)} {catalog : Catalog} :
    build groups = .ok catalog ↔ SoundGroups groups ∧ catalog = ofGroups groups := by
  unfold build
  split
  · next hlength =>
    simp only [reduceCtorEq, false_iff]
    rintro ⟨hsound, -⟩
    exact hlength (by rw [← hsound.categories, List.length_map])
  next hlength =>
  rw [buildFrom_eq_ok_iff .nil (Decidable.of_not_not hlength), List.append_nil, distinct_reverse]
  constructor
  · rintro ⟨hcategories, hsound, hdistinct, rfl⟩
    exact ⟨⟨hdistinct, hcategories, hsound⟩, rfl⟩
  · rintro ⟨hsound, rfl⟩
    exact ⟨hsound.categories, hsound.sound, hsound.toDistinct, rfl⟩

theorem present_of_build {groups : List (Category × List Rule)} {e : CatalogError}
    (h : build groups = .error e) : e.Present groups := by
  unfold build at h
  split at h
  · next hlength =>
    cases h
    exact ⟨rfl, rfl, hlength⟩
  · obtain ⟨before, group, after, expected, rfl, hexpected, hgroup⟩ := buildFrom_error .nil h
    rw [Nat.zero_add, List.append_nil] at hgroup
    exact present_of_buildGroup hexpected hgroup

/-- **A catalog is built exactly from sound groups, and an error is true**: groups are accepted
if and only if they are sound, and otherwise they have the defect that the error names. -/
theorem build_ok_iff_sound (groups : List (Category × List Rule)) :
    ((∃ catalog, build groups = .ok catalog) ↔ SoundGroups groups)
      ∧ ∀ e, build groups = .error e → e.Present groups := by
  refine ⟨?_, fun e => present_of_build⟩
  constructor
  · rintro ⟨catalog, h⟩
    exact (build_eq_ok_iff.mp h).1
  · intro hsound
    exact ⟨ofGroups groups, build_eq_ok_iff.mpr ⟨hsound, rfl⟩⟩

/-- One rule per category is enough. -/
example : (build (Category.all.map fun c => (c, [.of c c.base c.label c.label]))).isOk = true := by
  cbv

/-- The first defect of the pass is the one that is named: the other groups are empty. -/
example :
    build [(.system, [.of .system 0 "a" "a", .of .system 2 "b" "b"]), (.naming, []),
      (.complexity, []), (.consistency, []), (.bestPractices, []), (.refactoring, []), (.oop, [])]
    = .error (.badGap .system 0 2) := by
  cbv

end Catalog

end PyStyle
