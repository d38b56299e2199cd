import Mathlib.Data.List.Nodup
import Mathlib.Data.List.Permutation
import PyStyle.Proofs.CatalogSoundness
import PyStyle.Report

/-!
# Looking rules up

A catalog answers from the sorted groups, from the list of registered rules, or by arithmetic on
the code. For the catalogs that can be built all of them tell the same story:

- `Indexes` — every query of a catalog answered from the rules it was built of;
- `exists_groupOf` — each category has its group, and no other group has rules of it;
- `pairwise_rules` — the groups one after the other are in the strict order of codes;
- `get?_eq_some_iff`, `mem_rulesOf_iff`, `Category.ofCode?_of_owns` — what the three sources say
  of one rule;
- `build_indexes` — a catalog that was built indexes the rules of its groups.
-/

namespace PyStyle

/-! ### Categories and their blocks -/

namespace Category

theorem ofIndex?_index (category : Category) : ofIndex? category.index = some category := by
  cases category <;> rfl

/-- A code in the block of a category leads back to the category. -/
theorem ofCode?_of_owns {category : Category} {code : Nat} (h : category.Owns code) :
    ofCode? code = some category := by
  have hindex : code / 100 = category.index := by
    obtain ⟨hlow, hhigh⟩ := h
    omega
  rw [ofCode?, hindex, ofIndex?_index]

/-- Two blocks share no code. -/
theorem Owns.unique {a b : Category} {code : Nat} (ha : a.Owns code) (hb : b.Owns code) :
    a = b :=
  Option.some.inj ((ofCode?_of_owns ha).symm.trans (ofCode?_of_owns hb))

end Category

namespace Catalog

/-- The queries of a catalog agree with each other and with the rules. -/
structure Indexes (catalog : Catalog) (rules : List Rule) : Prop where
  sorted : catalog.rules.Pairwise fun a b => a.code < b.code
  perm : catalog.rules.Perm rules
  rulesOf : ∀ category,
    catalog.rulesOf category = catalog.rules.filter fun rule => rule.category = category
  entries : ∀ category, catalog.entries (some category)
    = (catalog.rulesOf category).map fun rule =>
        { code := formatCode rule.code
          name := rule.name
          category := rule.category
          template := rule.template }
  get? : ∀ code rule, catalog.get? code = some rule ↔ rule ∈ catalog.rules ∧ rule.code = code
  contains : ∀ rule, catalog.contains rule = true ↔ rule ∈ rules
  lookup? : ∀ category offset rule, catalog.lookup? category offset = some rule
    ↔ rule ∈ catalog.rulesOf category ∧ rule.code = 100 * category.index + offset
  category : ∀ rule ∈ rules, Category.ofCode? rule.code = some rule.category
  size : catalog.size = rules.length
  codes : catalog.codes.Nodup ∧ catalog.codes.length = catalog.size
  mem_codes : ∀ code, code ∈ catalog.codes ↔ (catalog.get? code).isSome

/-! ### The group of a category -/

section

variable {groups : List (Category × List Rule)}

theorem mem_allRules {rule : Rule} :
    rule ∈ allRules groups ↔ ∃ group ∈ groups, rule ∈ group.2 := by
  simp [allRules]

/-- Rules lie in the blocks of their categories. -/
theorem owns_of_mem (h : SoundGroups groups) {rule : Rule} (hrule : rule ∈ allRules groups) :
    rule.category.Owns rule.code := by
  obtain ⟨group, hgroup, hmem⟩ := mem_allRules.mp hrule
  have hsound := h.sound group hgroup
  rw [hsound.category rule hmem]
  exact hsound.owns rule hmem

/-- Each category has its group in its place, and the other groups are of other categories. -/
theorem exists_groupOf (h : SoundGroups groups) (category : Category) :
    ∃ before rules after, groups = before ++ (category, rules) :: after
      ∧ GroupOf groups category rules
      ∧ ∀ group ∈ before ++ after, group.1 ≠ category := by
  have hcategory : (groups.map (·.1))[category.index]? = some category := by
    rw [h.categories]
    exact Category.ofIndex?_index category
  rw [List.getElem?_map, Option.map_eq_some_iff] at hcategory
  obtain ⟨⟨_, rules⟩, hget, rfl⟩ := hcategory
  obtain ⟨before, after, hgroups⟩ := List.append_of_mem (List.mem_of_getElem? hget)
  refine ⟨before, rules, after, hgroups, hget, ?_⟩
  have hnodup : (groups.map (·.1)).Nodup := by
    rw [h.categories]
    decide
  rw [hgroups, List.map_append, List.map_cons, List.nodup_middle, List.nodup_cons,
    ← List.map_append] at hnodup
  intro group hgroup heq
  exact hnodup.1 (heq ▸ List.mem_map_of_mem hgroup)

/-! ### The groups in order -/

theorem rules_ofGroups (groups : List (Category × List Rule)) :
    (ofGroups groups).rules = groups.flatMap fun group => Catalog.sorted group.2 := by
  simp [rules, ofGroups, List.flatMap_map]

theorem perm_rules (groups : List (Category × List Rule)) :
    (ofGroups groups).rules.Perm (allRules groups) := by
  rw [rules_ofGroups, allRules]
  exact List.Perm.flatMap_left groups fun group _ => List.mergeSort_perm group.2 _

/-- The groups one after the other are in the order of codes: an earlier group owns an earlier
block. -/
theorem pairwise_le_rules (h : SoundGroups groups) :
    (ofGroups groups).rules.Pairwise fun a b => a.code ≤ b.code := by
  have hblocks : groups.Pairwise fun a b => a.1.index < b.1.index := by
    rw [← List.pairwise_map (R := fun a b : Category => a.index < b.index), h.categories]
    decide
  rw [rules_ofGroups, List.pairwise_flatMap]
  refine ⟨fun group _ => pairwise_sorted group.2, ?_⟩
  refine hblocks.imp_of_mem fun {low high} hlow hhigh hindex a ha b hb => ?_
  have hla := ((h.sound low hlow).owns a (by simpa [Catalog.sorted] using ha)).2
  have hhb := ((h.sound high hhigh).owns b (by simpa [Catalog.sorted] using hb)).1
  omega

/-- **No code occurs twice in that order.** -/
theorem pairwise_rules (h : SoundGroups groups) :
    (ofGroups groups).rules.Pairwise fun a b => a.code < b.code := by
  have hcodes : ((ofGroups groups).rules.map (·.code)).Nodup :=
    ((perm_rules groups).map _).nodup_iff.mpr h.codes
  have hne : (ofGroups groups).rules.Pairwise fun a b => a.code ≠ b.code :=
    List.pairwise_map.mp hcodes
  exact (pairwise_le_rules h).imp₂ (fun a b hle hne => Nat.lt_of_le_of_ne hle hne) hne

/-! ### Looking up one rule -/

/-- In groups of other categories there is no rule of a category. -/
theorem filter_eq_nil_of_ne (h : SoundGroups groups) {category : Category}
    {part : List (Category × List Rule)} (hpart : part ⊆ groups)
    (hne : ∀ group ∈ part, group.1 ≠ category) :
    (ofGroups part).rules.filter (fun rule => rule.category = category) = [] := by
  rw [List.filter_eq_nil_iff]
  intro rule hrule hcategory
  rw [(perm_rules part).mem_iff, mem_allRules] at hrule
  obtain ⟨group, hgroup, hmem⟩ := hrule
  have hown := (h.sound group (hpart hgroup)).category rule hmem
  exact hne group hgroup (hown.symm.trans (by simpa using hcategory))

/-- **The rules of a category are those of its group.** -/
theorem rulesOf_eq_filter (h : SoundGroups groups) (category : Category) :
    (ofGroups groups).rulesOf category
      = (ofGroups groups).rules.filter fun rule => rule.category = category := by
  obtain ⟨before, rules, after, hgroups, hgroup, hothers⟩ := exists_groupOf h category
  have hrulesOf : (ofGroups groups).rulesOf category = Catalog.sorted rules := by
    rw [GroupOf] at hgroup
    simp [rulesOf, ofGroups, hgroup]
  have hown : ∀ rule ∈ Catalog.sorted rules, rule.category = category := by
    intro rule hrule
    have hmem : rule ∈ rules := by simpa [Catalog.sorted] using hrule
    exact (h.sound _ (List.mem_of_getElem? hgroup)).category rule hmem
  have hsplit : (ofGroups groups).rules
      = (ofGroups before).rules ++ Catalog.sorted rules ++ (ofGroups after).rules := by
    simp [rules_ofGroups, hgroups]
  have hbefore : before ⊆ groups := by simp [hgroups]
  have hafter : after ⊆ groups := by
    rw [hgroups]
    exact fun group hmem => List.mem_append_right _ (List.mem_cons_of_mem _ hmem)
  rw [hrulesOf, hsplit, List.filter_append, List.filter_append,
    filter_eq_nil_of_ne h hbefore fun group hmem => hothers group (List.mem_append_left _ hmem),
    filter_eq_nil_of_ne h hafter fun group hmem => hothers group (List.mem_append_right _ hmem),
    List.filter_eq_self.mpr (by simpa using hown), List.nil_append, List.append_nil]

/-- **A code leads to the one rule that has it.** -/
theorem get?_eq_some_iff (h : SoundGroups groups) {code : Nat} {rule : Rule} :
    (ofGroups groups).get? code = some rule ↔ rule ∈ allRules groups ∧ rule.code = code := by
  constructor
  · intro hget
    have hmem : rule ∈ (allRules groups).reverse := List.mem_of_find?_eq_some hget
    exact ⟨List.mem_reverse.mp hmem, by simpa using List.find?_some hget⟩
  · rintro ⟨hrule, rfl⟩
    have hsome : ((ofGroups groups).get? rule.code).isSome := by
      rw [get?, List.find?_isSome]
      exact ⟨rule, List.mem_reverse.mpr hrule, by simp⟩
    obtain ⟨found, hfound⟩ := Option.isSome_iff_exists.mp hsome
    have hmem : found ∈ (allRules groups).reverse := List.mem_of_find?_eq_some hfound
    have hcode : found.code = rule.code := by simpa using List.find?_some hfound
    rw [hfound, List.inj_on_of_nodup_map h.codes (List.mem_reverse.mp hmem) hrule hcode]

theorem contains_iff (h : SoundGroups groups) {rule : Rule} :
    (ofGroups groups).contains rule = true ↔ rule ∈ allRules groups := by
  rw [contains, beq_iff_eq, get?_eq_some_iff h, and_iff_left rfl]

theorem mem_rulesOf_iff (h : SoundGroups groups) {category : Category} {rule : Rule} :
    rule ∈ (ofGroups groups).rulesOf category
      ↔ rule ∈ allRules groups ∧ rule.category = category := by
  rw [rulesOf_eq_filter h, List.mem_filter, (perm_rules groups).mem_iff, decide_eq_true_iff]

/-- **An offset leads to the rule of the category with that code**, if it stays in the block. -/
theorem lookup?_eq_some_iff (h : SoundGroups groups) {category : Category} {offset : Nat}
    {rule : Rule} :
    (ofGroups groups).lookup? category offset = some rule
      ↔ rule ∈ (ofGroups groups).rulesOf category
        ∧ rule.code = 100 * category.index + offset := by
  have hbase : category.base + offset = 100 * category.index + offset := by
    rw [Category.base, Nat.mul_comm]
  rw [lookup?, mem_rulesOf_iff h, hbase]
  split
  · next hoffset =>
    -- Behind the block there is no rule of the category.
    simp only [reduceCtorEq, false_iff]
    rintro ⟨⟨hrule, rfl⟩, hcode⟩
    have howns := (owns_of_mem h hrule).2
    omega
  · next hoffset =>
    rw [get?_eq_some_iff h]
    constructor
    · rintro ⟨hrule, hcode⟩
      have hblock : category.Owns rule.code := ⟨by omega, by omega⟩
      exact ⟨⟨hrule, (owns_of_mem h hrule).unique hblock⟩, hcode⟩
    · rintro ⟨⟨hrule, -⟩, hcode⟩
      exact ⟨hrule, hcode⟩

end

/-- **A catalog that was built indexes the rules of its groups**: the sorted groups, the list of
registered rules and the arithmetic on codes give the same answers, those that follow from the
rules themselves. -/
theorem build_indexes {groups : List (Category × List Rule)} {catalog : Catalog}
    (h : build groups = .ok catalog) : catalog.Indexes (allRules groups) := by
  obtain ⟨hsound, rfl⟩ := build_eq_ok_iff.mp h
  have hperm := perm_rules groups
  exact {
    sorted := pairwise_rules hsound
    perm := hperm
    rulesOf := rulesOf_eq_filter hsound
    entries := by
      intro category
      rw [rulesOf_eq_filter hsound, Catalog.entries]
      congr 2
      funext rule
      rw [Option.all_some, Bool.eq_iff_iff, beq_iff_eq, decide_eq_true_iff]
      exact eq_comm
    get? := by
      intro code rule
      rw [get?_eq_some_iff hsound, hperm.mem_iff]
    contains := fun rule => contains_iff hsound
    lookup? := fun category offset rule => lookup?_eq_some_iff hsound
    category := fun rule hrule => Category.ofCode?_of_owns (owns_of_mem hsound hrule)
    size := List.length_reverse
    codes := by
      refine ⟨?_, ?_⟩
      · exact (hperm.map _).nodup_iff.mpr hsound.codes
      · rw [Catalog.codes, List.length_map, hperm.length_eq]
        exact List.length_reverse.symm
    mem_codes := by
      intro code
      rw [Option.isSome_iff_exists, Catalog.codes, List.mem_map]
      simp only [get?_eq_some_iff hsound, hperm.mem_iff] }

/-- Two rules for each category, the later code first. -/
def backwardGroups : List (Category × List Rule) :=
  Category.all.map fun category =>
    (category,
      [.of category (category.base + 3) "later" (category.label ++ ": \x7b0\x7d"),
       .of category category.base "first" category.label])

theorem build_backwardGroups : build backwardGroups = .ok (ofGroups backwardGroups) := by
  have hok : (build backwardGroups).isOk = true := by cbv
  cases hbuild : build backwardGroups with
  | error e => simp [hbuild, Except.isOk, Except.toBool] at hok
  | ok catalog => rw [(build_eq_ok_iff.mp hbuild).2]

theorem backwardGroups_indexed :
    build backwardGroups = .ok (ofGroups backwardGroups)
      ∧ (ofGroups backwardGroups).Indexes (allRules backwardGroups) :=
  ⟨build_backwardGroups, build_indexes build_backwardGroups⟩

end Catalog

end PyStyle
