import Mathlib.Data.List.Nodup
import PyStyle.Proofs.CatalogIndexes
import PyStyle.Report

/-!
# The order of reports

The reports of several files are ordered by their paths, and a path is not always that of the file:
a unit that was parsed elsewhere brings its own along. So files can share a path, and the order of
their reports is then that of the files.

- `Linter.lintFiles_singleton` — a file on its own has one report;
- `Linter.perm_lintFiles`, `Linter.pairwise_lintFiles` — the reports of several files are those of
  the single ones, ordered by path;
- `Linter.filter_lintFiles` — reports that share a path stay in the order of their files;
- `LintResult.Alike` — results that have the same reports, in whatever order;
- `LintResult.Alike.counts` — they have the same totals;
- `Linter.lintFiles_congr` — if the paths of the reports differ, the order of the files does not
  matter at all;
- `Report.Summarizes`, `Report.summarizes_of` — other programs are told of the reports one by one;
- `LintResult.pairwise_violations`, `LintResult.filter_violations` — so what they are told is
  ordered by path, with all that is found under one path in its order;
- `Linter.path_lintFile` — the path of a report depends on nothing but the file;
- `Linter.lintFiles_of_pairwise` — files in the order of these paths are reported as they come;
- `Linter.lintFiles_independent` — all of it together.
-/

namespace PyStyle

/-! ### One report for every file -/

theorem path_le_trans (a b c : UnitReport) :
    decide (a.path ≤ b.path) = true → decide (b.path ≤ c.path) = true →
      decide (a.path ≤ c.path) = true := by
  simp only [decide_eq_true_eq]
  exact String.le_trans

theorem path_le_total (a b : UnitReport) :
    (decide (a.path ≤ b.path) || decide (b.path ≤ a.path)) = true := by
  simp only [Bool.or_eq_true, decide_eq_true_eq]
  exact String.le_total a.path b.path

namespace Linter

variable (linter : Linter)

/-- A file on its own has one report. -/
theorem lintFiles_singleton (file : SourceFile) :
    (linter.lintFiles [file]).reports = [linter.lintFile file] :=
  List.mergeSort_singleton _

/-- **Every file has one report**, the one that it has on its own. -/
theorem perm_lintFiles (files : List SourceFile) :
    (linter.lintFiles files).reports.Perm (files.map linter.lintFile) :=
  List.mergeSort_perm _ _

theorem pairwise_lintFiles (files : List SourceFile) :
    (linter.lintFiles files).reports.Pairwise fun a b => a.path ≤ b.path :=
  (List.pairwise_mergeSort path_le_trans path_le_total _).imp of_decide_eq_true

/-- **Reports that share a path stay in the order of their files.** They are a sublist that is
ordered already, and sorting keeps such a list. -/
theorem filter_lintFiles (files : List SourceFile) (path : String) :
    (linter.lintFiles files).reports.filter (·.path == path)
      = (files.map linter.lintFile).filter (·.path == path) := by
  have hshared : ((files.map linter.lintFile).filter (·.path == path)).Pairwise
      fun a b => decide (a.path ≤ b.path) = true := by
    refine List.pairwise_of_forall_mem_list fun a ha b hb => ?_
    have hpath : a.path = b.path :=
      (beq_iff_eq.mp (List.mem_filter.mp ha).2).trans (beq_iff_eq.mp (List.mem_filter.mp hb).2).symm
    rw [hpath]
    exact decide_eq_true (String.le_refl b.path)
  have hsublist := (List.sublist_mergeSort path_le_trans path_le_total hshared
    List.filter_sublist).filter (·.path == path)
  rw [List.filter_filter] at hsublist
  simp only [Bool.and_self] at hsublist
  exact (hsublist.eq_of_length
    ((linter.perm_lintFiles files).filter (·.path == path)).length_eq.symm).symm

end Linter

/-! ### Totals -/

namespace LintResult

/-- The results have the same reports, in whatever order. -/
def Alike (result result' : LintResult) : Prop :=
  result.reports.Perm result'.reports

/-- The results count the same. -/
structure SameCounts (result result' : LintResult) : Prop where
  files : result.fileCount = result'.fileCount
  violations : result.violationCount = result'.violationCount
  suppressed : result.suppressedCount = result'.suppressedCount
  ignored : result.ignoredCount = result'.ignoredCount
  faults : result.faultCount = result'.faultCount
  passed : result.passed = result'.passed

variable {result result' : LintResult}

/-- What the reports count can be added up in any order. -/
theorem Alike.total (h : result.Alike result') (count : UnitReport → Nat) :
    result.total count = result'.total count := by
  rw [LintResult.total, LintResult.total]
  exact List.Perm.foldr_eq' h (fun a _ b _ z => Nat.add_left_comm (count b) (count a) z) 0

theorem Alike.counts (h : result.Alike result') : result.SameCounts result' where
  files := h.length_eq
  violations := h.total _
  suppressed := h.total _
  ignored := h.total _
  faults := h.total _
  passed := by rw [passed, passed, violationCount, violationCount, h.total]

/-- Ordered results that are alike are the same if no two reports share a path. -/
theorem Alike.eq (h : result.Alike result')
    (hsorted : result.reports.Pairwise fun a b => a.path ≤ b.path)
    (hsorted' : result'.reports.Pairwise fun a b => a.path ≤ b.path)
    (hpaths : (result'.reports.map (·.path)).Nodup) : result = result' := by
  obtain ⟨reports⟩ := result
  obtain ⟨reports'⟩ := result'
  refine congrArg LintResult.mk (List.Perm.eq_of_pairwise ?_ hsorted hsorted' h)
  intro a b ha hb hab hba
  exact List.inj_on_of_nodup_map hpaths (h.subset ha) hb (String.le_antisymm hab hba)

end LintResult

namespace Linter

variable (linter : Linter)

theorem alike_lintFiles {files files' : List SourceFile} (h : files'.Perm files) :
    (linter.lintFiles files').Alike (linter.lintFiles files) :=
  (linter.perm_lintFiles files').trans
    ((h.map linter.lintFile).trans (linter.perm_lintFiles files).symm)

/-- **Files with reports of different paths can come in any order.** -/
theorem lintFiles_congr {files files' : List SourceFile} (h : files'.Perm files)
    (hpaths : ((linter.lintFiles files).reports.map (·.path)).Nodup) :
    linter.lintFiles files' = linter.lintFiles files :=
  (linter.alike_lintFiles h).eq (linter.pairwise_lintFiles files')
    (linter.pairwise_lintFiles files) hpaths

end Linter

/-! ### What other programs are told -/

/-- The violations of a report, each with the path of the report. -/
def UnitReport.findings (report : UnitReport) : List Finding :=
  report.violations.map (⟨report.path, ·⟩)

/-- The value of a member of a record. -/
def Printed.member? (key : String) : Printed → Option Printed
  | .record members => members.lookup key
  | _ => none

/-- The report tells of the reports of files one by one: first what the first one holds, in its
order and with its path, then what the second one holds, and so on. Silenced violations are told of
if they are asked for. -/
structure Report.Summarizes (report : Report) (path : String) (reports : List UnitReport)
    (showSuppressed : Bool) : Prop where
  path_eq : report.path = path
  violations : report.violations = reports.flatMap fun r => r.violations.map (⟨r.path, ·⟩)
  suppressed : report.suppressed
    = if showSuppressed then reports.flatMap fun r => r.suppressed.map (⟨r.path, ·⟩) else []
  faults : report.faults = reports.flatMap fun r => r.faults.map (⟨r.path, ·⟩)
  fileCount : report.fileCount = reports.length
  suppressedCount : report.suppressedCount = (reports.flatMap (·.suppressed)).length
  ignoredCount : report.ignoredCount = reports.foldr (fun r count => r.ignored + count) 0
  passed_iff : report.passed = true ↔ report.violations = []
  /-- As JSON the violations are listed in the same order. -/
  printed : report.printed.member? "violations"
    = some (.list (report.violations.map Finding.printed))

namespace LintResult

/-- The lengths of lists add up to the length of all of them together. -/
theorem total_length {α : Type} (result : LintResult) (list : UnitReport → List α) :
    result.total (fun report => (list report).length)
      = (result.reports.flatMap list).length := by
  obtain ⟨reports⟩ := result
  induction reports with
  | nil => rfl
  | cons report rest ih =>
    have hcons : LintResult.total ⟨report :: rest⟩ (fun report => (list report).length)
        = (list report).length
          + LintResult.total ⟨rest⟩ fun report => (list report).length := rfl
    rw [hcons, ih, List.flatMap_cons, List.length_append]

theorem violationCount_eq (result : LintResult) :
    result.violationCount = result.violations.length := by
  have hlength : (fun report : UnitReport => report.violations.length)
      = fun report => report.findings.length :=
    funext fun report => (List.length_map _).symm
  rw [violationCount, hlength, total_length]
  rfl

theorem passed_iff (result : LintResult) : result.passed = true ↔ result.violations = [] := by
  rw [passed, violationCount_eq, beq_iff_eq, List.length_eq_zero_iff]

/-- **The violations are ordered by path**, as the reports are. -/
theorem pairwise_violations {result : LintResult}
    (h : result.reports.Pairwise fun a b => a.path ≤ b.path) :
    result.violations.Pairwise fun a b => a.file ≤ b.file := by
  have hfile : ∀ {report : UnitReport} {finding : Finding}, finding ∈ report.findings →
      finding.file = report.path := by
    intro report finding hfinding
    obtain ⟨violation, -, rfl⟩ := List.mem_map.mp hfinding
    rfl
  refine List.pairwise_flatMap.mpr ⟨fun report _ => ?_, h.imp fun hle a ha b hb => ?_⟩
  · refine List.pairwise_of_forall_mem_list fun a ha b hb => ?_
    have hsame : a.file = b.file := (hfile ha).trans (hfile hb).symm
    exact hsame ▸ String.le_refl a.file
  · rw [hfile ha, hfile hb]
    exact hle

/-- **The violations under one path** are those of the reports with this path. -/
theorem filter_violations (result : LintResult) (path : String) :
    result.violations.filter (·.file == path)
      = (result.reports.filter (·.path == path)).flatMap (·.findings) := by
  obtain ⟨reports⟩ := result
  show (reports.flatMap (·.findings)).filter _ = _
  induction reports with
  | nil => rfl
  | cons report rest ih =>
    have hfile : (fun finding : Finding => finding.file == path) ∘ Finding.mk report.path
        = fun _ => report.path == path := rfl
    rw [List.flatMap_cons, List.filter_append, ih, UnitReport.findings, List.filter_map, hfile]
    cases hpath : report.path == path with
    | false => simp [hpath]
    | true => simp [hpath, UnitReport.findings]

end LintResult

/-- **The report of a result** tells of its reports one by one. -/
theorem Report.summarizes_of (path : String) (result : LintResult) (showSuppressed : Bool) :
    (Report.of path result showSuppressed).Summarizes path result.reports showSuppressed where
  path_eq := rfl
  violations := rfl
  suppressed := rfl
  faults := rfl
  fileCount := rfl
  suppressedCount := result.total_length (·.suppressed)
  ignoredCount := rfl
  passed_iff := result.passed_iff
  printed := rfl

/-! ### The path of a report -/

/-- The path that a file is reported under: its own one, unless it holds a unit. -/
def SourceFile.reportPath (file : SourceFile) : String :=
  match SourceUnit.load file.path file.content with
  | .ok unit => unit.path
  | .error _ => file.path

theorem Linter.path_lintFile (linter : Linter) (file : SourceFile) :
    (linter.lintFile file).path = file.reportPath := by
  delta lintFile SourceFile.reportPath
  cases SourceUnit.load file.path file.content <;> rfl

theorem Linter.perm_paths (linter : Linter) (files : List SourceFile) :
    ((linter.lintFiles files).reports.map (·.path)).Perm (files.map (·.reportPath)) := by
  have h := (linter.perm_lintFiles files).map (·.path)
  rw [List.map_map] at h
  have hpath : (fun report : UnitReport => report.path) ∘ linter.lintFile
      = fun file => file.reportPath := funext linter.path_lintFile
  rwa [hpath] at h

/-- Files in the order of the paths of their reports are reported in this order. -/
theorem Linter.lintFiles_of_pairwise (linter : Linter) {files : List SourceFile}
    (h : files.Pairwise fun a b => a.reportPath ≤ b.reportPath) :
    (linter.lintFiles files).reports = files.map linter.lintFile := by
  refine List.mergeSort_of_pairwise (List.pairwise_map.mpr (h.imp fun {a b} hle => ?_))
  rw [linter.path_lintFile a, linter.path_lintFile b]
  exact decide_eq_true hle

/-- **A file is linted as if it were alone, and in no matter which place.** The reports of several
files are those that the files have on their own, one each, ordered by path, and in the order of the
files where they share one. Other programs are told of them in this order, so that the violations
are ordered by path as well, those under one path as the files are. Files in another order have the
same reports, the same totals and the same violations. If no two reports share a path, they have
them in the same order, and what other programs are told is the same. -/
theorem Linter.lintFiles_independent (linter : Linter) (files : List SourceFile) :
    (∀ file, (linter.lintFiles [file]).reports = [linter.lintFile file])
      ∧ (linter.lintFiles files).reports.Perm (files.map linter.lintFile)
      ∧ (linter.lintFiles files).reports.Pairwise (fun a b => a.path ≤ b.path)
      ∧ (∀ path, (linter.lintFiles files).reports.filter (·.path == path)
        = (files.map linter.lintFile).filter (·.path == path))
      ∧ (∀ path showSuppressed,
        let report := Report.of path (linter.lintFiles files) showSuppressed
        report.Summarizes path (linter.lintFiles files).reports showSuppressed
          ∧ report.violations.Pairwise (fun a b => a.file ≤ b.file)
          ∧ ∀ file, report.violations.filter (·.file == file)
            = ((files.map linter.lintFile).filter (·.path == file)).flatMap (·.findings))
      ∧ ∀ files' : List SourceFile, files'.Perm files →
        (linter.lintFiles files').reports.Perm (linter.lintFiles files).reports
          ∧ (linter.lintFiles files').SameCounts (linter.lintFiles files)
          ∧ (∀ path showSuppressed,
            (Report.of path (linter.lintFiles files') showSuppressed).violations.Perm
              (Report.of path (linter.lintFiles files) showSuppressed).violations)
          ∧ (((linter.lintFiles files).reports.map (·.path)).Nodup →
            (linter.lintFiles files').reports = (linter.lintFiles files).reports
              ∧ ∀ path showSuppressed,
                Report.of path (linter.lintFiles files') showSuppressed
                  = Report.of path (linter.lintFiles files) showSuppressed) := by
  refine ⟨linter.lintFiles_singleton, linter.perm_lintFiles files, linter.pairwise_lintFiles files,
    linter.filter_lintFiles files, fun path showSuppressed => ?_, fun files' h => ?_⟩
  · refine ⟨Report.summarizes_of path _ showSuppressed,
      LintResult.pairwise_violations (linter.pairwise_lintFiles files), fun file => ?_⟩
    rw [← linter.filter_lintFiles files file]
    exact (linter.lintFiles files).filter_violations file
  · have halike := linter.alike_lintFiles h
    refine ⟨halike, halike.counts, fun _ _ => halike.flatMap_right _, fun hpaths => ?_⟩
    rw [linter.lintFiles_congr h hpaths]
    exact ⟨rfl, fun _ _ => rfl⟩

/-- A file with a unit that brings the path `z.py` along. There is a decorator on one of its lines
that is no dotted name. -/
def SourceFile.decorated (path line : String) : SourceFile where
  path
  content := .ok (String.toUTF8
    ("[\"z.py\", [\"decorator\", null, [" ++ line ++ ", 0], [[\"subscript\", null, ["
      ++ line ++ ", 1], []]]], []]"))

/-- A file that is no unit, one that cannot be read, one that is gone, and one with a unit: they
stand in the order of the paths of their reports. -/
def SourceFile.mixed : List SourceFile :=
  [⟨"b.json", .ok "[".toUTF8⟩, ⟨"c.txt", .ok "".toUTF8⟩, ⟨"gone.py", .error .notFound⟩,
    .decorated "a.json" "1"]

/-- Two files with units of the same path. -/
def SourceFile.twins : List SourceFile :=
  [.decorated "b.json" "1", .decorated "a.json" "5"]

/-- In whatever order the mixed files come, the unit is reported last, though its file is the first
one by name. The twins, which share a path, are reported in their order. -/
theorem Linter.lintFiles_mixed :
    let linter := Linter.standard (.ofGroups Catalog.standardGroups) {}
    let told := fun files => (Report.of "." (linter.lintFiles files) false).violations.map
      fun finding => (finding.file, finding.violation.code, finding.violation.position)
    SourceFile.mixed.reverse.Perm SourceFile.mixed
      ∧ ((linter.lintFiles SourceFile.mixed).reports.map (·.path)).Nodup
      ∧ told SourceFile.mixed
        = [("b.json", 1, ⟨1, 0⟩), ("c.txt", 1, ⟨1, 0⟩), ("gone.py", 1, ⟨1, 0⟩),
          ("z.py", 466, ⟨1, 1⟩)]
      ∧ told SourceFile.mixed.reverse = told SourceFile.mixed
      ∧ told SourceFile.twins = [("z.py", 466, ⟨1, 1⟩), ("z.py", 466, ⟨5, 1⟩)]
      ∧ told SourceFile.twins.reverse = [("z.py", 466, ⟨5, 1⟩), ("z.py", 466, ⟨1, 1⟩)] := by
  intro linter told
  have hpaths : SourceFile.mixed.map (·.reportPath) = ["b.json", "c.txt", "gone.py", "z.py"] := by
    decide +kernel
  have htwins : SourceFile.twins.map (·.reportPath) = ["z.py", "z.py"] := by decide +kernel
  -- Files in the order of their paths are reported one after the other.
  have htold : ∀ files : List SourceFile,
      (files.map (·.reportPath)).Pairwise (fun a b => a ≤ b) →
        told files = ((files.map linter.lintFile).flatMap (·.findings)).map
          fun finding => (finding.file, finding.violation.code, finding.violation.position) := by
    intro files hfiles
    obtain ⟨-, -, -, -, hreport, -⟩ := linter.lintFiles_independent files
    have hreports := linter.lintFiles_of_pairwise (List.pairwise_map.mp hfiles)
    rw [← hreports]
    exact congrArg (List.map _) (hreport "." false).1.violations
  have hperm := SourceFile.mixed.reverse_perm
  have hnodup : ((linter.lintFiles SourceFile.mixed).reports.map (·.path)).Nodup := by
    refine (linter.perm_paths SourceFile.mixed).nodup_iff.mpr ?_
    rw [hpaths]
    decide
  obtain ⟨-, -, -, -, -, hsame⟩ := linter.lintFiles_independent SourceFile.mixed
  obtain ⟨-, -, -, hreports⟩ := hsame SourceFile.mixed.reverse hperm
  refine ⟨hperm, hnodup, ?_, ?_, ?_, ?_⟩
  · rw [htold SourceFile.mixed (by rw [hpaths]; decide)]
    decide +kernel
  · exact congrArg (fun report : Report => report.violations.map _) ((hreports hnodup).2 "." false)
  · rw [htold SourceFile.twins (by rw [htwins]; decide)]
    decide +kernel
  · rw [htold SourceFile.twins.reverse (by rw [List.map_reverse, htwins]; decide)]
    decide +kernel

end PyStyle
