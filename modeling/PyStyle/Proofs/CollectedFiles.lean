import Mathlib.Data.List.Nodup
import PyStyle.Collection
import PyStyle.Proofs.JoinedPaths

/-!
# Which files are collected

Files are collected by a walk down a tree that turns back at some directories, and that looks at
paths it has put together on its way. Whether a file is among them can be said without the walk, by
the names that lead to it:

- `FileTree.Holds` — a file stands in a tree behind some names;
- `FileTree.Proper` — a tree as file systems have them, with names that are names and differ;
- `FileTree.Relisted` — the same tree, with the entries of its directories in other orders;
- `FileTree.mem_sourceFiles_iff` — the walk finds a file exactly if it enters the directories on the
  way and takes the file;
- `FileTree.nodup_parts_sourceFiles` — no two of the files it finds have the same path;
- `FileTree.RelistedAll.perm_sourceFiles` — the order of the entries does not change what it finds;
- `Settings.Selects` — what settings ask of the names that lead to a file;
- `Disk.collect_selects` — the files below a directory that the settings select are collected, and
  no others.
-/

namespace PyStyle

namespace FileTree

/-! ### Trees -/

/-- A file with this content stands in the tree behind the names. -/
inductive Holds : FileTree → List String → ByteArray → Prop
  | file (content : ByteArray) : Holds (.file content) [] content
  | directory {entries : List (String × FileTree)} {name : String} {tree : FileTree}
      {names : List String} {content : ByteArray} (hentry : (name, tree) ∈ entries)
      (hbelow : Holds tree names content) : Holds (.directory entries) (name :: names) content

theorem holds_file_iff {content content' : ByteArray} {names : List String} :
    (file content).Holds names content' ↔ names = [] ∧ content' = content := by
  constructor
  · rintro ⟨⟩
    exact ⟨rfl, rfl⟩
  · rintro ⟨rfl, rfl⟩
    exact .file _

theorem holds_directory_iff {entries : List (String × FileTree)} {names : List String}
    {content : ByteArray} :
    (directory entries).Holds names content
      ↔ ∃ entry ∈ entries, ∃ rest, names = entry.1 :: rest ∧ entry.2.Holds rest content := by
  constructor
  · rintro ⟨⟩
    next name tree rest hentry hbelow => exact ⟨(name, tree), hentry, rest, rfl, hbelow⟩
  · rintro ⟨⟨name, tree⟩, hentry, rest, rfl, hbelow⟩
    exact .directory hentry hbelow

mutual

/-- The entries of every directory have names, and different ones. -/
def Proper : FileTree → Prop
  | .file _ => True
  | .directory entries => (entries.map (·.1)).Nodup ∧ ProperAll entries

/-- Every entry has a name, and its tree is proper. -/
def ProperAll : List (String × FileTree) → Prop
  | [] => True
  | (name, tree) :: rest => Path.IsName name ∧ tree.Proper ∧ ProperAll rest

end

theorem ProperAll.of_mem {entries : List (String × FileTree)} (h : ProperAll entries)
    {entry : String × FileTree} (hentry : entry ∈ entries) :
    Path.IsName entry.1 ∧ entry.2.Proper := by
  induction entries with
  | nil => cases hentry
  | cons first rest ih =>
    obtain ⟨name, tree⟩ := first
    obtain ⟨hname, htree, hrest⟩ := h
    rcases List.mem_cons.mp hentry with rfl | hentry
    · exact ⟨hname, htree⟩
    · exact ih hrest hentry

/-- What leads to a file of a proper tree is names. -/
theorem Holds.isName {tree : FileTree} {names : List String} {content : ByteArray}
    (h : tree.Holds names content) (hproper : tree.Proper) :
    ∀ name ∈ names, Path.IsName name := by
  induction h with
  | file => simp
  | directory hentry _ ih =>
    obtain ⟨hname, htree⟩ := ProperAll.of_mem hproper.2 hentry
    exact List.forall_mem_cons.mpr ⟨hname, ih htree⟩

mutual

/-- The second tree is the first one with the entries of its directories in other orders. -/
inductive Relisted : FileTree → FileTree → Prop
  | file (content : ByteArray) : Relisted (.file content) (.file content)
  | directory {entries entries' : List (String × FileTree)} (h : RelistedAll entries entries') :
      Relisted (.directory entries) (.directory entries')

/-- The second list has the entries of the first one in another order, each of them relisted. -/
inductive RelistedAll : List (String × FileTree) → List (String × FileTree) → Prop
  | nil : RelistedAll [] []
  | cons (name : String) {tree tree' : FileTree} {rest rest' : List (String × FileTree)}
      (h : Relisted tree tree') (hrest : RelistedAll rest rest') :
      RelistedAll ((name, tree) :: rest) ((name, tree') :: rest')
  | swap (first second : String × FileTree) (rest : List (String × FileTree)) :
      RelistedAll (first :: second :: rest) (second :: first :: rest)
  | trans {xs ys zs : List (String × FileTree)} (h : RelistedAll xs ys)
      (h' : RelistedAll ys zs) : RelistedAll xs zs

end

/-! ### What the walk finds -/

/-- The walk from a directory enters all directories on the way, and takes the file. -/
structure Reaches (selection : Selection) (relative : String) (names : List String) : Prop where
  enters : ∀ name ∈ names.dropLast, entersDirectory name = true
  takes : selection.takes (Path.below relative names) = true

theorem reaches_singleton_iff {selection : Selection} {relative name : String} :
    Reaches selection relative [name] ↔ selection.takes (Path.join relative name) = true := by
  constructor
  · intro h
    exact h.takes
  · intro h
    exact ⟨by simp, h⟩

theorem reaches_cons_iff {selection : Selection} {relative name : String} {names : List String}
    (hnames : names ≠ []) :
    Reaches selection relative (name :: names)
      ↔ entersDirectory name = true
        ∧ Reaches selection (Path.join relative name) names := by
  have hdirectories : (name :: names).dropLast = name :: names.dropLast :=
    List.dropLast_cons_of_ne_nil hnames
  constructor
  · intro h
    have henters := h.enters
    rw [hdirectories, List.forall_mem_cons] at henters
    exact ⟨henters.1, henters.2, h.takes⟩
  · rintro ⟨hname, henters, htakes⟩
    refine ⟨?_, htakes⟩
    rw [hdirectories, List.forall_mem_cons]
    exact ⟨hname, henters⟩

variable (selection : Selection)

mutual

/-- What is found at an entry is behind the name of the entry. -/
theorem mem_sourceFilesAt_iff (directory relative name : String) (file : SourceFile) :
    (tree : FileTree) → (file ∈ sourceFilesAt selection directory relative name tree
      ↔ ∃ names content, tree.Holds names content ∧ Reaches selection relative (name :: names)
        ∧ file = ⟨Path.below directory (name :: names), .ok content⟩)
  | .file content => by
    simp only [sourceFilesAt, holds_file_iff]
    constructor
    · intro h
      by_cases htakes : selection.takes (Path.join relative name) = true
      · rw [if_pos htakes] at h
        exact ⟨[], content, ⟨rfl, rfl⟩, reaches_singleton_iff.mpr htakes, List.mem_singleton.mp h⟩
      · rw [if_neg htakes] at h
        cases h
    · rintro ⟨_, _, ⟨rfl, rfl⟩, hreaches, rfl⟩
      rw [if_pos (reaches_singleton_iff.mp hreaches)]
      exact List.mem_singleton.mpr rfl
  | .directory entries => by
    rw [sourceFilesAt]
    have hbelow := mem_sourceFiles_iff (Path.join directory name) (Path.join relative name) file
      entries
    -- Behind a directory there is at least one more name.
    have hne : ∀ {names content}, (FileTree.directory entries).Holds names content →
        names ≠ [] := by
      rintro _ _ ⟨⟩
      exact List.cons_ne_nil _ _
    constructor
    · intro h
      by_cases henters : entersDirectory name = true
      · rw [if_pos henters, hbelow] at h
        obtain ⟨names, content, hholds, hreaches, hfile⟩ := h
        exact ⟨names, content, hholds, (reaches_cons_iff (hne hholds)).mpr ⟨henters, hreaches⟩,
          hfile⟩
      · rw [if_neg henters] at h
        cases h
    · rintro ⟨names, content, hholds, hreaches, hfile⟩
      obtain ⟨henters, hreaches⟩ := (reaches_cons_iff (hne hholds)).mp hreaches
      rw [if_pos henters, hbelow]
      exact ⟨names, content, hholds, hreaches, hfile⟩

/-- **The walk finds the files that it reaches**, and no others. -/
theorem mem_sourceFiles_iff (directory relative : String) (file : SourceFile) :
    (entries : List (String × FileTree)) →
      (file ∈ sourceFiles selection directory relative entries
        ↔ ∃ names content, (FileTree.directory entries).Holds names content
          ∧ Reaches selection relative names
          ∧ file = ⟨Path.below directory names, .ok content⟩)
  | [] => by
    simp [sourceFiles, holds_directory_iff]
  | (name, tree) :: rest => by
    rw [sourceFiles, List.mem_append, mem_sourceFilesAt_iff directory relative name file tree,
      mem_sourceFiles_iff directory relative file rest]
    simp only [holds_directory_iff]
    constructor
    · rintro (⟨names, content, hholds, hfound⟩ | ⟨names, content, ⟨entry, hentry, hholds⟩, hfound⟩)
      · exact ⟨name :: names, content, ⟨_, List.mem_cons_self, names, rfl, hholds⟩, hfound⟩
      · exact ⟨names, content, ⟨entry, List.mem_cons_of_mem _ hentry, hholds⟩, hfound⟩
    · rintro ⟨_, content, ⟨entry, hentry, names, rfl, hholds⟩, hfound⟩
      rcases List.mem_cons.mp hentry with rfl | hentry
      · exact .inl ⟨names, content, hholds, hfound⟩
      · exact .inr ⟨_, content, ⟨entry, hentry, names, rfl, hholds⟩, hfound⟩

end

/-! ### No path twice -/

/-- The parts of the path of a file that is found start with the directory and a name in it. -/
theorem exists_parts_of_mem_sourceFiles {directory relative : String} {file : SourceFile}
    {entries : List (String × FileTree)} (hproper : ProperAll entries)
    (h : file ∈ sourceFiles selection directory relative entries) :
    ∃ entry ∈ entries, ∃ rest,
      Path.parts file.path = Path.parts directory ++ .name entry.1 :: rest := by
  obtain ⟨_, content, hholds, -, rfl⟩ := (mem_sourceFiles_iff _ _ _ _ _).mp h
  obtain ⟨entry, hentry, names, rfl, hbelow⟩ := holds_directory_iff.mp hholds
  obtain ⟨hname, htree⟩ := hproper.of_mem hentry
  have hnames : ∀ name ∈ entry.1 :: names, Path.IsName name :=
    List.forall_mem_cons.mpr ⟨hname, hbelow.isName htree⟩
  exact ⟨entry, hentry, names.map .name, Path.parts_below directory hnames⟩

mutual

theorem nodup_parts_sourceFilesAt (directory relative name : String) :
    (tree : FileTree) → tree.Proper →
      ((sourceFilesAt selection directory relative name tree).map
        fun file => Path.parts file.path).Nodup
  | .file content, _ => by
    rw [sourceFilesAt]
    split <;> simp
  | .directory entries, h => by
    rw [sourceFilesAt]
    split
    · exact nodup_parts_sourceFiles _ _ entries h.1 h.2
    · exact List.nodup_nil

/-- **No two files that the walk finds have the same path**: the names of the entries of a directory
tell them apart. -/
theorem nodup_parts_sourceFiles (directory relative : String) :
    (entries : List (String × FileTree)) → (entries.map (·.1)).Nodup → ProperAll entries →
      ((sourceFiles selection directory relative entries).map
        fun file => Path.parts file.path).Nodup
  | [], _, _ => by
    rw [sourceFiles]
    exact List.nodup_nil
  | (name, tree) :: rest, hnames, hproper => by
    obtain ⟨hname, htree, hrest⟩ := hproper
    rw [List.map_cons, List.nodup_cons] at hnames
    rw [sourceFiles, List.map_append]
    refine List.Nodup.append (nodup_parts_sourceFilesAt directory relative name tree htree)
      (nodup_parts_sourceFiles directory relative rest hnames.2 hrest) ?_
    intro parts hfirst hlater
    obtain ⟨file, hfile, rfl⟩ := List.mem_map.mp hfirst
    obtain ⟨other, hother, hparts⟩ := List.mem_map.mp hlater
    -- A file at the first entry is found in a directory that has no other entries.
    have hsingle : file ∈ sourceFiles selection directory relative [(name, tree)] := by
      rw [sourceFiles, sourceFiles, List.append_nil]
      exact hfile
    have hproper : ProperAll [(name, tree)] := ⟨hname, htree, trivial⟩
    obtain ⟨entry, hentry, below, hbelow⟩ :=
      exists_parts_of_mem_sourceFiles selection hproper hsingle
    obtain ⟨entry', hentry', below', hbelow'⟩ :=
      exists_parts_of_mem_sourceFiles selection hrest hother
    obtain rfl := List.mem_singleton.mp hentry
    rw [hbelow, hbelow'] at hparts
    have hsame := (List.cons.inj (List.append_cancel_left hparts)).1
    have hname' : entry'.1 = name := PathPart.name.inj hsame
    exact hnames.1 (List.mem_map.mpr ⟨entry', hentry', hname'⟩)

end

/-! ### The order of entries -/

mutual

theorem Relisted.perm_sourceFilesAt : {tree tree' : FileTree} → Relisted tree tree' →
    ∀ directory relative name, (sourceFilesAt selection directory relative name tree).Perm
      (sourceFilesAt selection directory relative name tree')
  | _, _, .file _ => fun _ _ _ => List.Perm.refl _
  | _, _, .directory h => by
    intro directory relative name
    rw [sourceFilesAt, sourceFilesAt]
    split
    · exact RelistedAll.perm_sourceFiles h _ _
    · exact List.Perm.nil

/-- **The walk finds the same files** in whatever order the directories list their entries. -/
theorem RelistedAll.perm_sourceFiles : {entries entries' : List (String × FileTree)} →
    RelistedAll entries entries' → ∀ directory relative,
      (sourceFiles selection directory relative entries).Perm
        (sourceFiles selection directory relative entries')
  | _, _, .nil => fun _ _ => List.Perm.refl _
  | _, _, .cons name h hrest => by
    intro directory relative
    rw [sourceFiles, sourceFiles]
    exact (Relisted.perm_sourceFilesAt h directory relative name).append
      (RelistedAll.perm_sourceFiles hrest directory relative)
  | _, _, .swap (name, tree) (name', tree') rest => by
    intro directory relative
    rw [sourceFiles, sourceFiles, sourceFiles, sourceFiles, ← List.append_assoc,
      ← List.append_assoc]
    exact List.perm_append_comm.append_right _
  | _, _, .trans h h' => fun directory relative =>
    (RelistedAll.perm_sourceFiles h directory relative).trans
      (RelistedAll.perm_sourceFiles h' directory relative)

end

end FileTree

/-! ### What settings ask of a file -/

/-- Patterns that can be read are the exclusions, and nothing else is. -/
theorem Exclusions.exists_parse {patterns : List String}
    (h : ∀ pattern ∈ patterns, ∃ glob, Glob.parse pattern = .ok glob) :
    ∃ set, Exclusions.parse patterns = .ok set
      ∧ ∀ glob, glob ∈ set.globs ↔ ∃ pattern ∈ patterns, Glob.parse pattern = .ok glob := by
  induction patterns with
  | nil => exact ⟨⟨[]⟩, rfl, by simp⟩
  | cons pattern rest ih =>
    obtain ⟨⟨glob, hglob⟩, hrest⟩ := List.forall_mem_cons.mp h
    obtain ⟨set, hset, hmem⟩ := ih hrest
    refine ⟨⟨glob :: set.globs⟩, by rw [Exclusions.parse, hglob, hset]; rfl, fun other => ?_⟩
    have hother : Glob.parse pattern = .ok other ↔ other = glob := by
      rw [hglob]
      exact ⟨fun heq => (Except.ok.inj heq).symm, fun heq => heq ▸ rfl⟩
    rw [List.mem_cons, hmem, List.exists_mem_cons_iff, hother]

/-- The names lead to a file that is collected: it is a source file, no directory on the way is
hidden or generated, no pattern describes the path from the root, and if tests are left out it is
not the path of a test. -/
structure Settings.Selects (settings : Settings) (root : String) (names : List String) : Prop where
  extension : Path.extension (Path.below root names) ∈ sourceExtensions
  directories : ∀ name ∈ names.dropLast,
    ¬ name.startsWith "." = true ∧ name ∉ skippedDirectories
  patterns : ∀ pattern ∈ settings.excludedPaths, ∀ glob, Glob.parse pattern = .ok glob →
    ¬ glob.covers ("/".intercalate names) = true
  tests : settings.includeTestFiles = some false → ¬ Path.isTest ("/".intercalate names) = true

theorem entersDirectory_iff {name : String} :
    entersDirectory name = true ↔ ¬ name.startsWith "." = true ∧ name ∉ skippedDirectories := by
  simp only [entersDirectory, Bool.and_eq_true, Bool.not_eq_true', List.contains_eq_mem,
    decide_eq_false_iff_not, Bool.not_eq_true]

theorem includesTests_eq_false_iff {settings : Settings} :
    settings.includesTests = false ↔ settings.includeTestFiles = some false := by
  rw [Settings.includesTests]
  cases settings.includeTestFiles <;> simp

/-- The walk down from a root reaches what the settings select there. -/
theorem reaches_iff_selects {settings : Settings} {exclusions : Exclusions}
    (hmem : ∀ glob, glob ∈ exclusions.globs
      ↔ ∃ pattern ∈ settings.excludedPaths, Glob.parse pattern = .ok glob)
    (root : String) {names : List String} (hne : names ≠ [])
    (hnames : ∀ name ∈ names, Path.IsName name) :
    FileTree.Reaches ⟨exclusions, settings.includesTests⟩ "" names
      ↔ settings.Selects root names := by
  have htext := Path.below_empty hnames
  have hextension := Path.extension_below "" root hne hnames
  have hpatterns : exclusions.covers ("/".intercalate names) = false
      ↔ ∀ pattern ∈ settings.excludedPaths, ∀ glob, Glob.parse pattern = .ok glob →
        ¬ glob.covers ("/".intercalate names) = true := by
    simp only [Exclusions.covers, List.any_eq_false, hmem]
    grind
  have htests : (settings.includesTests || !Path.isTest ("/".intercalate names)) = true
      ↔ (settings.includeTestFiles = some false →
        ¬ Path.isTest ("/".intercalate names) = true) := by
    rw [← includesTests_eq_false_iff]
    cases settings.includesTests <;> simp
  have htakes : Selection.takes ⟨exclusions, settings.includesTests⟩ (Path.below "" names) = true
      ↔ Path.extension (Path.below root names) ∈ sourceExtensions
        ∧ exclusions.covers ("/".intercalate names) = false
        ∧ (settings.includesTests || !Path.isTest ("/".intercalate names)) = true := by
    rw [Selection.takes, hextension, htext]
    simp only [Bool.and_eq_true, Bool.not_eq_true', List.contains_eq_mem, decide_eq_true_eq,
      and_assoc]
  constructor
  · intro h
    obtain ⟨hext, hcovers, htest⟩ := htakes.mp h.takes
    exact ⟨hext, fun name hname => entersDirectory_iff.mp (h.enters name hname),
      hpatterns.mp hcovers, htests.mp htest⟩
  · intro h
    exact ⟨fun name hname => entersDirectory_iff.mpr (h.directories name hname),
      htakes.mpr ⟨h.extension, hpatterns.mpr h.patterns, htests.mpr h.tests⟩⟩

/-! ### The list of the files -/

/-- The first file comes before the second one, part by part, and has another path. -/
def SourceFile.Before (a b : SourceFile) : Prop :=
  Path.le a.path b.path = true ∧ Path.parts a.path ≠ Path.parts b.path

section Sorted

variable {files files' : List SourceFile}

theorem pairwise_le_mergeSort (files : List SourceFile) :
    (files.mergeSort fun a b => Path.le a.path b.path).Pairwise
      fun a b => Path.le a.path b.path = true := by
  have htrans : ∀ a b c : SourceFile, Path.le a.path b.path = true → Path.le b.path c.path = true →
      Path.le a.path c.path = true := fun _ _ _ => Path.partsLe_trans
  have htotal : ∀ a b : SourceFile, (Path.le a.path b.path || Path.le b.path a.path) = true := by
    intro a b
    rw [Bool.or_eq_true]
    exact Path.partsLe_total _ _
  exact List.pairwise_mergeSort htrans htotal files

theorem pairwise_before_mergeSort (h : (files.map fun file => Path.parts file.path).Nodup) :
    (files.mergeSort fun a b => Path.le a.path b.path).Pairwise SourceFile.Before := by
  have hperm := (List.mergeSort_perm files fun a b => Path.le a.path b.path).map
    fun file : SourceFile => Path.parts file.path
  exact (pairwise_le_mergeSort files).and (List.pairwise_map.mp (hperm.nodup_iff.mpr h))

/-- Files with different paths have one order. -/
theorem mergeSort_congr (hperm : files'.Perm files)
    (h : (files.map fun file => Path.parts file.path).Nodup) :
    (files'.mergeSort fun a b => Path.le a.path b.path)
      = files.mergeSort fun a b => Path.le a.path b.path := by
  refine List.Perm.eq_of_pairwise (fun a b ha hb hab hba => ?_) (pairwise_le_mergeSort files')
    (pairwise_le_mergeSort files)
    ((List.mergeSort_perm _ _).trans (hperm.trans (List.mergeSort_perm _ _).symm))
  have ha : a ∈ files := hperm.subset (List.mem_mergeSort.mp ha)
  exact List.inj_on_of_nodup_map h ha (List.mem_mergeSort.mp hb) (Path.partsLe_antisymm hab hba)

end Sorted

namespace Disk

variable {disk : Disk} {settings : Settings} {root : String}

theorem collect_file {content : ByteArray} (h : disk.find root = .ok (.file content)) :
    disk.collect settings root = .ok [{ path := root, content := .ok content }] := by
  rw [collect, h]

theorem collect_directory {entries : List (String × FileTree)} {exclusions : Exclusions}
    (h : disk.find root = .ok (.directory entries))
    (hexclusions : settings.exclusions = .ok exclusions) :
    disk.collect settings root
      = .ok ((FileTree.sourceFiles ⟨exclusions, settings.includesTests⟩ root "" entries).mergeSort
        fun a b => Path.le a.path b.path) := by
  rw [collect, h, hexclusions]

end Disk

/-- **The files below a directory that the settings select are collected**, and no others, ordered
by the parts of their paths and each once. It does not matter in which order directories list their
entries. A file that is named is taken as it is. -/
theorem Disk.collect_selects (disk : Disk) (settings : Settings) (root : String) :
    (∀ content, disk.find root = .ok (.file content) →
        disk.collect settings root = .ok [{ path := root, content := .ok content }])
      ∧ ∀ entries, disk.find root = .ok (.directory entries) →
        (FileTree.directory entries).Proper →
        (∀ pattern ∈ settings.excludedPaths, ∃ glob, Glob.parse pattern = .ok glob) →
        ∃ files, disk.collect settings root = .ok files
          ∧ files.Pairwise SourceFile.Before
          ∧ (∀ file, file ∈ files
            ↔ ∃ names content, (FileTree.directory entries).Holds names content
              ∧ settings.Selects root names
              ∧ file = { path := Path.below root names, content := .ok content })
          ∧ ∀ (disk' : Disk) (entries' : List (String × FileTree)),
            disk'.find root = .ok (.directory entries') →
            FileTree.Relisted (.directory entries) (.directory entries') →
            disk'.collect settings root = .ok files := by
  refine ⟨fun content h => collect_file h, fun entries h hproper hpatterns => ?_⟩
  obtain ⟨exclusions, hparse, hmem⟩ := Exclusions.exists_parse hpatterns
  have hexclusions : settings.exclusions = .ok exclusions := by rw [Settings.exclusions, hparse]
  have hnodup := FileTree.nodup_parts_sourceFiles ⟨exclusions, settings.includesTests⟩ root ""
    entries hproper.1 hproper.2
  refine ⟨_, collect_directory h hexclusions, pairwise_before_mergeSort hnodup, fun file => ?_,
    fun disk' entries' h' hrelisted => ?_⟩
  · rw [List.mem_mergeSort, FileTree.mem_sourceFiles_iff]
    refine exists_congr fun names => exists_congr fun content => and_congr_right fun hholds => ?_
    have hne : names ≠ [] := by
      rintro rfl
      cases hholds
    rw [reaches_iff_selects hmem root hne (hholds.isName hproper)]
  · cases hrelisted with
    | directory hentries =>
      rw [collect_directory h' hexclusions]
      exact congrArg Except.ok
        (mergeSort_congr (hentries.perm_sourceFiles _ root "").symm hnodup)

/-- A project with a test and a migration in it. -/
def FileTree.project : List (String × FileTree) :=
  let source := FileTree.file .empty
  let migrations := FileTree.directory [("0001.py", source)]
  [("tests", .directory [("helpers.py", source)]),
    ("app", .directory [("models.py", source), ("migrations", migrations)])]

/-- Settings that leave out migrations and tests. -/
def Settings.withoutTests : Settings where
  excludedPaths := ["**/migrations/**"]
  includeTestFiles := some false

theorem Disk.collect_project :
    let disk := Disk.ofFound
      [("src", .ok (.directory FileTree.project)), ("a.txt", .ok (.file .empty))]
    let relisted := Disk.ofFound [("src", .ok (.directory FileTree.project.reverse))]
    disk.collect .withoutTests "a.txt" = .ok [{ path := "a.txt", content := .ok .empty }]
      ∧ disk.find "src" = .ok (.directory FileTree.project)
      ∧ (FileTree.directory FileTree.project).Proper
      ∧ (∀ pattern ∈ Settings.withoutTests.excludedPaths, ∃ glob, Glob.parse pattern = .ok glob)
      ∧ ∃ files, disk.collect .withoutTests "src" = .ok files
        ∧ relisted.collect .withoutTests "src" = .ok files
        ∧ files.Pairwise SourceFile.Before
        ∧ { path := "src/app/models.py", content := .ok .empty } ∈ files := by
  intro disk relisted
  have hproper : (FileTree.directory FileTree.project).Proper := by
    simp only [FileTree.project, FileTree.Proper, FileTree.ProperAll]
    decide
  have hglob : (Glob.parse "**/migrations/**").toOption.map (·.covers "app/models.py")
      = some false := by
    decide +kernel
  obtain ⟨glob, hparse⟩ : ∃ glob, Glob.parse "**/migrations/**" = .ok glob := by
    cases hparse : Glob.parse "**/migrations/**" with
    | ok glob => exact ⟨glob, rfl⟩
    | error cause => simp [hparse, Except.toOption] at hglob
  have hpatterns : ∀ pattern ∈ Settings.withoutTests.excludedPaths,
      ∃ glob, Glob.parse pattern = .ok glob := by
    intro pattern hpattern
    exact List.mem_singleton.mp hpattern ▸ ⟨glob, hparse⟩
  have hfile := (disk.collect_selects .withoutTests "a.txt").1 .empty rfl
  obtain ⟨files, hfiles, hbefore, hmem, hrelisted⟩ :=
    (disk.collect_selects .withoutTests "src").2 FileTree.project rfl hproper hpatterns
  have hholds : (FileTree.directory FileTree.project).Holds ["app", "models.py"] .empty :=
    .directory (List.mem_cons_of_mem _ List.mem_cons_self)
      (.directory List.mem_cons_self (.file .empty))
  have hselects : Settings.withoutTests.Selects "src" ["app", "models.py"] := {
    extension := by decide +kernel
    directories := by
      rw [List.dropLast_cons_cons, List.dropLast_singleton, List.forall_mem_singleton]
      exact entersDirectory_iff.mp (by decide +kernel)
    patterns := by
      intro pattern hpattern other hother
      rw [List.mem_singleton.mp hpattern] at hother
      rw [hother] at hglob
      exact Bool.eq_false_iff.mp (Option.some.inj hglob)
    tests := fun _ => by decide +kernel }
  have hpath : "src/app/models.py" = Path.below "src" ["app", "models.py"] := by decide +kernel
  have hfiles' : relisted.collect .withoutTests "src" = .ok files :=
    hrelisted relisted _ rfl (.directory (.swap _ _ []))
  have hmodels : { path := "src/app/models.py", content := .ok .empty } ∈ files :=
    (hmem _).mpr ⟨_, _, hholds, hselects, by rw [hpath]⟩
  exact ⟨hfile, rfl, hproper, hpatterns, files, hfiles, hfiles', hbefore, hmodels⟩

end PyStyle
