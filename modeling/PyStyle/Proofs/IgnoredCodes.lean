import PyStyle.Proofs.CatalogIndexes
import PyStyle.Proofs.DirectiveReading
import PyStyle.Settings

/-!
# What settings ignore

Settings name what they ignore by free texts, and two functions read them: one that turns a text
away, and one that passes over a text it cannot read. If the first took more than the second
understands, accepted settings would ignore nothing; if the second understood more than the first
takes, violations would disappear that nobody listed.

- `Settings.Spells`, `Settings.StandsFor` — what an entry means in a catalog, apart from both;
- `Settings.codesOfEntry_eq` — an entry ignores what it stands for;
- `Settings.StandsFor.ne_nil`, `Settings.StandsFor.subset` — in a catalog that was built that is
  something, and something of the catalog;
- `SettingsError.Present` — settings have the defect that an error names;
- `Settings.judges_validateEntry`, `Settings.validateEntries_cases` — what a look at one entry
  finds, and where the pass over all of them stops;
- `Settings.present_of_validate` — every error is true;
- `Settings.Sound` — settings that ignore what their entries stand for;
- `Settings.validate_agrees` — accepted settings are sound, and settings with nothing else wrong are
  turned away for an entry that stands for nothing.
-/

namespace PyStyle

namespace Category

/-- A name leads to the category that has it. -/
theorem ofLabel?_eq_some_iff {label : String} {category : Category} :
    ofLabel? label = some category ↔ category.label = label := by
  constructor
  · intro h
    simpa using List.find?_some h
  · rintro rfl
    cases category <;> rfl

/-- No category is named like a code. -/
theorem parseCode_label (category : Category) : parseCode category.label = none := by
  cases category <;> rfl

end Category

namespace Catalog

variable {groups : List (Category × List Rule)} {catalog : Catalog} (h : build groups = .ok catalog)

include h

/-- **Every category has a rule** in a catalog that was built. -/
theorem rulesOf_ne_nil (category : Category) : catalog.rulesOf category ≠ [] := by
  obtain ⟨hsound, rfl⟩ := build_eq_ok_iff.mp h
  obtain ⟨before, rules, after, rfl, -, -⟩ := exists_groupOf hsound category
  have hgroup := hsound.sound (category, rules) (by simp)
  obtain ⟨rule, hrule⟩ := List.exists_mem_of_ne_nil rules hgroup.nonempty
  have hall : rule ∈ allRules (before ++ (category, rules) :: after) :=
    mem_allRules.mpr ⟨(category, rules), by simp, hrule⟩
  exact List.ne_nil_of_mem ((mem_rulesOf_iff hsound).mpr ⟨hall, hgroup.category rule hrule⟩)

/-- The rules of a category are those of all rules that belong to it. -/
theorem rulesOf_eq_of_build (category : Category) :
    catalog.rulesOf category = catalog.rules.filter fun rule => rule.category = category := by
  obtain ⟨hsound, rfl⟩ := build_eq_ok_iff.mp h
  exact rulesOf_eq_filter hsound category

/-- A code leads to a rule exactly if it is one of the codes. -/
theorem isSome_get?_iff {code : Nat} : (catalog.get? code).isSome ↔ code ∈ catalog.codes := by
  obtain ⟨hsound, rfl⟩ := build_eq_ok_iff.mp h
  rw [Option.isSome_iff_exists, codes, List.mem_map]
  simp only [get?_eq_some_iff hsound, (perm_rules groups).mem_iff]

end Catalog

namespace Settings

/-! ### What an entry means -/

/-- The entry spells the code, with any blanks around the word. -/
def Spells (entry : String) (code : Nat) : Prop :=
  ∃ front word back, entry.toList = front ++ word ++ back
    ∧ (∀ c ∈ front, Text.isBlank c = true) ∧ (∀ c ∈ back, Text.isBlank c = true)
    ∧ SpellsCode word code

/-- What an entry stands for in a catalog: all codes of the category that it names, or the code
of the catalog that it spells. -/
inductive StandsFor (catalog : Catalog) : String → List Nat → Prop
  | category (category : Category) :
      StandsFor catalog category.label
        ((catalog.rules.filter fun rule => rule.category = category).map (·.code))
  | code {entry : String} {code : Nat} (hspells : Spells entry code)
      (hcode : code ∈ catalog.codes) : StandsFor catalog entry [code]

/-- The entry names no category and spells no code of the catalog. -/
def StandsForNothing (catalog : Catalog) (entry : String) : Prop :=
  (∀ category : Category, category.label ≠ entry) ∧ ∀ code ∈ catalog.codes, ¬ Spells entry code

section

variable {groups : List (Category × List Rule)} {catalog : Catalog}
  {entry : String} {codes : List Nat}

/-- An entry spells one code at most. -/
theorem Spells.unique {a b : Nat} (ha : Spells entry a) (hb : Spells entry b) : a = b :=
  Option.some.inj ((parseCode_eq_some_iff.mpr ha).symm.trans (parseCode_eq_some_iff.mpr hb))

/-- An entry that spells a code names no category. -/
theorem ofLabel?_of_spells {code : Nat} (hspells : Spells entry code) :
    Category.ofLabel? entry = none := by
  rw [Option.eq_none_iff_forall_ne_some]
  intro category hlabel
  have hcode : parseCode entry = some code := parseCode_eq_some_iff.mpr hspells
  rw [← Category.ofLabel?_eq_some_iff.mp hlabel, Category.parseCode_label] at hcode
  cases hcode

/-- **An entry ignores what it stands for.** -/
theorem codesOfEntry_eq (h : Catalog.build groups = .ok catalog)
    (hstands : StandsFor catalog entry codes) : codesOfEntry catalog entry = codes := by
  cases hstands with
  | category category =>
    rw [codesOfEntry, Category.ofLabel?_eq_some_iff.mpr rfl]
    dsimp only
    rw [Catalog.rulesOf_eq_of_build h]
  | code hspells hcode =>
    rw [codesOfEntry, ofLabel?_of_spells hspells, parseCode_eq_some_iff.mpr hspells]
    rfl

/-- What an entry stands for is at least one code: no category of a built catalog is empty. -/
theorem StandsFor.ne_nil (h : Catalog.build groups = .ok catalog)
    (hstands : StandsFor catalog entry codes) : codes ≠ [] := by
  cases hstands with
  | category category =>
    rw [← Catalog.rulesOf_eq_of_build h, ne_eq, List.map_eq_nil_iff]
    exact Catalog.rulesOf_ne_nil h category
  | code => exact List.cons_ne_nil _ _

theorem StandsFor.subset (hstands : StandsFor catalog entry codes) : codes ⊆ catalog.codes := by
  cases hstands with
  | category category => exact List.map_subset _ (List.filter_subset_self _)
  | code hspells hcode => simpa using hcode

end

/-! ### What is wrong with settings -/

end Settings

/-- The settings have the defect that the error names. -/
def SettingsError.Present (settings : Settings) (catalog : Catalog) : SettingsError → Prop
  | .scoreTooLow => settings.maxCognitiveScore = 0
  | .averageTooLow => settings.maxCognitiveAverage = 0
  | .unknownCode entry =>
    entry ∈ settings.ignore ∧ (∀ category : Category, category.label ≠ entry)
      ∧ ∃ code, Settings.Spells entry code ∧ code ∉ catalog.codes
  | .unknownEntry entry =>
    entry ∈ settings.ignore ∧ (∀ category : Category, category.label ≠ entry)
      ∧ ∀ code, ¬ Settings.Spells entry code
  | .badPattern pattern cause =>
    pattern ∈ settings.excludedPaths ∧ Glob.parse pattern = .error cause

namespace Settings

/-- Patterns that are not read together have one that is not read. -/
theorem mem_of_parse_exclusions {patterns : List String} {pattern : String} {cause : GlobError}
    (h : Exclusions.parse patterns = .error (pattern, cause)) :
    pattern ∈ patterns ∧ Glob.parse pattern = .error cause := by
  induction patterns with
  | nil => cases h
  | cons first rest ih =>
    rw [Exclusions.parse] at h
    cases hfirst : Glob.parse first with
    | error e =>
      rw [hfirst] at h
      cases h
      exact ⟨List.mem_cons_self, hfirst⟩
    | ok glob =>
      rw [hfirst] at h
      cases hrest : Exclusions.parse rest with
      | error e =>
        rw [hrest] at h
        cases h
        obtain ⟨hmem, hparse⟩ := ih hrest
        exact ⟨List.mem_cons_of_mem _ hmem, hparse⟩
      | ok set =>
        rw [hrest] at h
        cases h

/-- What a look at one entry can find. -/
inductive Judges (catalog : Catalog) (entry : String) : Except SettingsError Unit → Prop
  | known {codes : List Nat} (hstands : StandsFor catalog entry codes) :
      Judges catalog entry (.ok ())
  | unknownCode (hname : ∀ category : Category, category.label ≠ entry) {code : Nat}
      (hspells : Spells entry code) (hcode : code ∉ catalog.codes) :
      Judges catalog entry (.error (.unknownCode entry))
  | unknownEntry (hname : ∀ category : Category, category.label ≠ entry)
      (hspells : ∀ code, ¬ Spells entry code) :
      Judges catalog entry (.error (.unknownEntry entry))

theorem judges_validateEntry {groups : List (Category × List Rule)} {catalog : Catalog}
    (h : Catalog.build groups = .ok catalog) (entry : String) :
    Judges catalog entry (validateEntry catalog entry) := by
  rw [validateEntry]
  cases hlabel : Category.ofLabel? entry with
  | some category =>
    obtain rfl := Category.ofLabel?_eq_some_iff.mp hlabel
    exact .known (.category category)
  | none =>
    have hname : ∀ category : Category, category.label ≠ entry := by
      intro category heq
      rw [Category.ofLabel?_eq_some_iff.mpr heq] at hlabel
      cases hlabel
    cases hparse : parseCode entry with
    | none =>
      refine .unknownEntry hname fun code hspells => ?_
      rw [parseCode_eq_some_iff.mpr hspells] at hparse
      cases hparse
    | some code =>
      have hspells : Spells entry code := parseCode_eq_some_iff.mp hparse
      simp only [Option.isSome_none, Bool.false_eq_true, if_false, Catalog.isSome_get?_iff h]
      split
      · next hcode => exact .known (.code hspells hcode)
      · next hcode => exact .unknownCode hname hspells hcode

/-- The pass over the entries gets to its end, or it stops at the first bad one. -/
theorem validateEntries_cases (catalog : Catalog) (entries : List String) :
    (validateEntries catalog entries = .ok ()
        ∧ ∀ entry ∈ entries, validateEntry catalog entry = .ok ())
      ∨ ∃ before entry after e, entries = before ++ entry :: after
        ∧ (∀ known ∈ before, validateEntry catalog known = .ok ())
        ∧ validateEntry catalog entry = .error e
        ∧ validateEntries catalog entries = .error e := by
  induction entries with
  | nil => exact .inl ⟨rfl, by simp⟩
  | cons first rest ih =>
    rw [validateEntries]
    cases hfirst : validateEntry catalog first with
    | error e => exact .inr ⟨[], first, rest, e, rfl, by simp, hfirst, rfl⟩
    | ok =>
      rcases ih with ⟨hok, hrest⟩ | ⟨before, entry, after, e, rfl, hbefore, hentry, he⟩
      · exact .inl ⟨hok, List.forall_mem_cons.mpr ⟨hfirst, hrest⟩⟩
      · exact .inr ⟨first :: before, entry, after, e, rfl,
          List.forall_mem_cons.mpr ⟨hfirst, hbefore⟩, hentry, he⟩

/-- The first bad entry is the one that is named; the mark and the digits belong together. -/
example :
    validateEntries (.ofGroups Catalog.backwardGroups) ["naming", "603", "sp 603", "SP604"]
      = .error (.unknownEntry "sp 603") := by
  decide +kernel

section

variable {groups : List (Category × List Rule)} {catalog : Catalog}
  (h : Catalog.build groups = .ok catalog) {settings : Settings}

include h

/-- Settings that are accepted have limits, and each of their entries stands for something. -/
theorem standsFor_of_validate (hok : settings.validate catalog = .ok ()) :
    0 < settings.maxCognitiveScore ∧ 0 < settings.maxCognitiveAverage
      ∧ ∀ entry ∈ settings.ignore, ∃ codes, StandsFor catalog entry codes := by
  rw [validate] at hok
  split at hok
  · cases hok
  next hscore =>
  split at hok
  · cases hok
  next haverage =>
  refine ⟨by simpa [Nat.pos_iff_ne_zero] using hscore,
    by simpa [Nat.pos_iff_ne_zero] using haverage, fun entry hentry => ?_⟩
  rcases validateEntries_cases catalog settings.ignore with
    ⟨-, hall⟩ | ⟨_, _, _, e, -, -, -, he⟩
  · have hjudges := judges_validateEntry h entry
    rw [hall entry hentry] at hjudges
    cases hjudges with
    | known hstands => exact ⟨_, hstands⟩
  · rw [he] at hok
    cases hok

/-- **Every error is true** of the settings. -/
theorem present_of_validate {e : SettingsError} (he : settings.validate catalog = .error e) :
    e.Present settings catalog := by
  rw [validate] at he
  split at he
  · next hscore =>
    cases he
    exact beq_iff_eq.mp hscore
  split at he
  · next haverage =>
    cases he
    exact beq_iff_eq.mp haverage
  rcases validateEntries_cases catalog settings.ignore with
    ⟨hok, -⟩ | ⟨before, entry, after, e', hsplit, -, hentry, he'⟩
  · rw [hok, exclusions] at he
    cases hparse : Exclusions.parse settings.excludedPaths with
    | ok set =>
      rw [hparse] at he
      cases he
    | error found =>
      rw [hparse] at he
      cases he
      exact mem_of_parse_exclusions hparse
  · rw [he'] at he
    cases he
    have hmem : entry ∈ settings.ignore := by simp [hsplit]
    have hjudges := judges_validateEntry h entry
    rw [hentry] at hjudges
    cases hjudges with
    | unknownCode hname hspells hcode => exact ⟨hmem, hname, _, hspells, hcode⟩
    | unknownEntry hname hspells => exact ⟨hmem, hname, hspells⟩

/-- Settings with limits and with patterns that can be read are turned away for an entry that
stands for nothing. -/
theorem exists_entry_of_validate_error {e : SettingsError} (hscore : 0 < settings.maxCognitiveScore)
    (haverage : 0 < settings.maxCognitiveAverage)
    (hpatterns : ∀ pattern ∈ settings.excludedPaths, ∃ glob, Glob.parse pattern = .ok glob)
    (he : settings.validate catalog = .error e) :
    ∃ entry ∈ settings.ignore, StandsForNothing catalog entry := by
  have hpresent := present_of_validate h he
  cases e with
  | scoreTooLow => exact absurd hpresent (Nat.ne_of_gt hscore)
  | averageTooLow => exact absurd hpresent (Nat.ne_of_gt haverage)
  | unknownCode entry =>
    obtain ⟨hmem, hname, code, hspells, hcode⟩ := hpresent
    refine ⟨entry, hmem, hname, fun code' hcode' hspells' => hcode ?_⟩
    rwa [hspells.unique hspells']
  | unknownEntry entry =>
    obtain ⟨hmem, hname, hspells⟩ := hpresent
    exact ⟨entry, hmem, hname, fun code _ => hspells code⟩
  | badPattern pattern cause =>
    obtain ⟨hmem, hparse⟩ := hpresent
    obtain ⟨glob, hglob⟩ := hpatterns pattern hmem
    rw [hparse] at hglob
    cases hglob

end

/-! ### What settings ignore -/

/-- Limits that can be kept to, entries that each ignore something, what they stand for, and no
ignored code besides. -/
structure Sound (settings : Settings) (catalog : Catalog) : Prop where
  score : 0 < settings.maxCognitiveScore
  average : 0 < settings.maxCognitiveAverage
  standsFor : ∀ entry ∈ settings.ignore, StandsFor catalog entry (codesOfEntry catalog entry)
  ne_nil : ∀ entry ∈ settings.ignore, codesOfEntry catalog entry ≠ []
  contributes : ∀ entry ∈ settings.ignore,
    codesOfEntry catalog entry ⊆ settings.ignoredCodes catalog
  subset : settings.ignoredCodes catalog ⊆ catalog.codes
  mem_iff : ∀ code, code ∈ settings.ignoredCodes catalog
    ↔ ∃ entry ∈ settings.ignore, ∃ codes, StandsFor catalog entry codes ∧ code ∈ codes

theorem mem_ignoredCodes {settings : Settings} {catalog : Catalog} {code : Nat} :
    code ∈ settings.ignoredCodes catalog
      ↔ ∃ entry ∈ settings.ignore, code ∈ codesOfEntry catalog entry := by
  rw [ignoredCodes, mem_codeSet, List.mem_flatMap]

/-- **Neither the order of the entries nor repetition counts.** -/
theorem ignoredCodes_congr {settings settings' : Settings} (catalog : Catalog)
    (h : ∀ entry, entry ∈ settings.ignore ↔ entry ∈ settings'.ignore) :
    settings.ignoredCodes catalog = settings'.ignoredCodes catalog := by
  refine codeSet_congr fun code => ?_
  simp only [List.mem_flatMap, h]

section

variable {groups : List (Category × List Rule)} {catalog : Catalog}
  (h : Catalog.build groups = .ok catalog) {settings : Settings}
  (hok : settings.validate catalog = .ok ())

include h hok

theorem standsFor_codesOfEntry {entry : String} (hentry : entry ∈ settings.ignore) :
    StandsFor catalog entry (codesOfEntry catalog entry) := by
  obtain ⟨codes, hcodes⟩ := (standsFor_of_validate h hok).2.2 entry hentry
  rwa [codesOfEntry_eq h hcodes]

/-- **Accepted settings ignore what their entries stand for**, and nothing else. -/
theorem mem_ignoredCodes_iff_standsFor {code : Nat} :
    code ∈ settings.ignoredCodes catalog
      ↔ ∃ entry ∈ settings.ignore, ∃ codes, StandsFor catalog entry codes ∧ code ∈ codes := by
  rw [mem_ignoredCodes]
  constructor
  · -- Not so for settings that are turned away: a code that no rule has is ignored as well.
    rintro ⟨entry, hentry, hcode⟩
    exact ⟨entry, hentry, _, standsFor_codesOfEntry h hok hentry, hcode⟩
  · rintro ⟨entry, hentry, codes, hcodes, hcode⟩
    exact ⟨entry, hentry, by rwa [codesOfEntry_eq h hcodes]⟩

/-- **Accepted settings are sound.** -/
theorem sound_of_validate : settings.Sound catalog := by
  obtain ⟨hscore, haverage, -⟩ := standsFor_of_validate h hok
  exact {
    score := hscore
    average := haverage
    standsFor := fun entry hentry => standsFor_codesOfEntry h hok hentry
    ne_nil := fun entry hentry => (standsFor_codesOfEntry h hok hentry).ne_nil h
    contributes := fun entry hentry code hcode => mem_ignoredCodes.mpr ⟨entry, hentry, hcode⟩
    subset := by
      intro code hcode
      obtain ⟨entry, -, codes, hcodes, hmem⟩ := (mem_ignoredCodes_iff_standsFor h hok).mp hcode
      exact hcodes.subset hmem
    mem_iff := fun code => mem_ignoredCodes_iff_standsFor h hok }

end

/-- **The entries that are accepted are those that ignore something.** Accepted settings have
limits, each of their entries stands for codes of the catalog, at least one, and what they ignore
is the union of them. Settings with limits and with patterns that can be read are turned away only
for an entry that neither names a category nor spells a code of the catalog. What is ignored
depends on the set of entries alone. -/
theorem validate_agrees {groups : List (Category × List Rule)} {catalog : Catalog}
    (h : Catalog.build groups = .ok catalog) (settings : Settings) :
    (settings.validate catalog = .ok () → settings.Sound catalog)
      ∧ (0 < settings.maxCognitiveScore → 0 < settings.maxCognitiveAverage →
        (∀ pattern ∈ settings.excludedPaths, ∃ glob, Glob.parse pattern = .ok glob) →
        settings.validate catalog ≠ .ok () →
        ∃ entry ∈ settings.ignore, StandsForNothing catalog entry)
      ∧ ∀ settings' : Settings, (∀ entry, entry ∈ settings.ignore ↔ entry ∈ settings'.ignore) →
        settings.ignoredCodes catalog = settings'.ignoredCodes catalog := by
  refine ⟨sound_of_validate h, fun hscore haverage hpatterns hbad => ?_,
    fun settings' => ignoredCodes_congr catalog⟩
  cases hvalidate : settings.validate catalog with
  | ok => exact absurd hvalidate hbad
  | error e => exact exists_entry_of_validate_error h hscore haverage hpatterns hvalidate

/-- A category and a code between blanks. -/
def namingAndCode : Settings where
  ignore := ["naming", " sp603 "]

/-- A code that no catalog has, between entries that are fine. -/
def unknownBetween : Settings where
  ignore := [" sp603 ", "SP999", "naming"]
  excludedPaths := ["build/*"]

theorem namingAndCode_agrees :
    Catalog.build Catalog.backwardGroups = .ok (.ofGroups Catalog.backwardGroups)
      ∧ namingAndCode.validate (.ofGroups Catalog.backwardGroups) = .ok ()
      ∧ namingAndCode.Sound (.ofGroups Catalog.backwardGroups)
      ∧ unknownBetween.validate (.ofGroups Catalog.backwardGroups) ≠ .ok ()
      ∧ (∃ entry ∈ unknownBetween.ignore,
        StandsForNothing (.ofGroups Catalog.backwardGroups) entry)
      ∧ namingAndCode.ignoredCodes (.ofGroups Catalog.backwardGroups)
        = { namingAndCode with ignore := [" sp603 ", "naming", " sp603 "] }.ignoredCodes
          (.ofGroups Catalog.backwardGroups) := by
  have hgood : namingAndCode.validate (.ofGroups Catalog.backwardGroups) = .ok () := by
    decide +kernel
  have hbad : unknownBetween.validate (.ofGroups Catalog.backwardGroups) ≠ .ok () := by
    decide +kernel
  have hpattern : (Glob.parse "build/*").isOk = true := by decide +kernel
  have hpatterns : ∀ pattern ∈ unknownBetween.excludedPaths,
      ∃ glob, Glob.parse pattern = .ok glob := by
    intro pattern hmem
    obtain rfl := List.mem_singleton.mp hmem
    cases hparse : Glob.parse "build/*" with
    | ok glob => exact ⟨glob, rfl⟩
    | error cause => simp [hparse, Except.isOk, Except.toBool] at hpattern
  obtain ⟨haccepted, -, horder⟩ := validate_agrees Catalog.build_backwardGroups namingAndCode
  obtain ⟨-, hrejected, -⟩ := validate_agrees Catalog.build_backwardGroups unknownBetween
  refine ⟨Catalog.build_backwardGroups, hgood, haccepted hgood, hbad,
    hrejected (by decide) (by decide) hpatterns hbad, horder _ fun entry => ?_⟩
  simp only [namingAndCode, List.mem_cons, List.not_mem_nil, or_false]
  grind

end Settings

end PyStyle
