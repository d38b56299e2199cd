import Mathlib.Data.List.Perm.Basic
import PyStyle.Proofs.ReportBuckets

/-!
# Runs of filters

Comments and settings may be applied to a report in any order and more than once. A violation that
several of them speak about goes where the first of them puts it, and nowhere else.

- `ReportFilter` — one pass over a report, and the violations it takes out;
- `UnitReport.filterBy` — several passes, one after the other;
- `Accounts` — what became of every violation of a report;
- `accounts_apply`, `Accounts.trans`, `accounts_filterBy` — one pass accounts for all violations,
  and so does a run;
- `filterBy_conserves` — what is left does not depend on the order of the passes, and nothing is
  lost.
-/

namespace PyStyle

/-- One pass over a report. -/
inductive ReportFilter where
  /-- Comments among the tokens silence violations. -/
  | suppress (tokens : List Token)
  /-- Violations with these codes are dropped. -/
  | dropIgnored (codes : List Nat)
deriving DecidableEq

namespace ReportFilter

/-- The report behind the pass. -/
def apply (report : UnitReport) : ReportFilter → UnitReport
  | suppress tokens => report.suppress tokens
  | dropIgnored codes => report.dropIgnored codes

/-- The pass takes the violation out of those that are reported. -/
def Takes : ReportFilter → Violation → Prop
  | suppress tokens, v => v.Silenced tokens
  | dropIgnored codes, v => v.code ∈ codes

instance (pass : ReportFilter) (v : Violation) : Decidable (pass.Takes v) :=
  match pass with
  | suppress tokens => inferInstanceAs (Decidable (v.Silenced tokens))
  | dropIgnored codes => inferInstanceAs (Decidable (v.code ∈ codes))

end ReportFilter

/-- The report behind several passes. -/
def UnitReport.filterBy (report : UnitReport) (passes : List ReportFilter) : UnitReport :=
  passes.foldl ReportFilter.apply report

/-! ### Accounts -/

/-- Behind the passes, `final` is what became of `report`: some violations moved to the suppressed
ones, some were dropped and counted, and the others stayed. -/
structure Accounts (passes : List ReportFilter) (report final : UnitReport)
    (moved dropped : List Violation) : Prop where
  path : final.path = report.path
  faults : final.faults = report.faults
  violations : final.violations
    = report.violations.filter fun v => ∀ pass ∈ passes, ¬ pass.Takes v
  suppressed : final.suppressed = report.suppressed ++ moved
  ignored : final.ignored = report.ignored + dropped.length
  /-- Every violation is in one of the three places, as often as it was reported. -/
  shared : (final.violations ++ (moved ++ dropped)).Perm report.violations
  moved_silenced : ∀ v ∈ moved, ∃ tokens, .suppress tokens ∈ passes ∧ v.Silenced tokens
  dropped_ignored : ∀ v ∈ dropped, ∃ codes, .dropIgnored codes ∈ passes ∧ v.code ∈ codes

/-- What a filter keeps and what its complement keeps share a list between them. -/
theorem filter_not_append_perm {α : Type} (p : α → Prop) [DecidablePred p] (xs : List α) :
    ((xs.filter fun x => ¬ p x) ++ xs.filter fun x => p x).Perm xs := by
  have h := List.filter_append_perm (fun x => decide (p x)) xs
  simp only [decide_not]
  exact List.perm_append_comm.trans h

theorem filter_takes_singleton (pass : ReportFilter) (xs : List Violation) :
    (xs.filter fun v => ∀ other ∈ [pass], ¬ other.Takes v) = xs.filter fun v => ¬ pass.Takes v := by
  refine List.filter_congr fun v _ => ?_
  simp

/-- **One pass accounts for all violations.** -/
theorem accounts_apply (report : UnitReport) (pass : ReportFilter) :
    ∃ moved dropped, Accounts [pass] report (pass.apply report) moved dropped := by
  have hshare := filter_not_append_perm pass.Takes report.violations
  have hsingle := filter_takes_singleton pass report.violations
  cases pass with
  | suppress tokens =>
    refine ⟨report.violations.filter (·.Silenced tokens), [], ?_⟩
    rw [ReportFilter.apply, UnitReport.suppress_eq]
    refine ⟨rfl, rfl, hsingle.symm, rfl, rfl, ?_, ?_, by simp⟩
    · rw [List.append_nil]
      exact hshare
    · intro v hv
      exact ⟨tokens, List.mem_singleton_self _, by simpa using (List.mem_filter.mp hv).2⟩
  | dropIgnored codes =>
    refine ⟨[], report.violations.filter (·.code ∈ codes), ?_⟩
    rw [ReportFilter.apply, UnitReport.dropIgnored_eq]
    refine ⟨rfl, rfl, hsingle.symm, (List.append_nil _).symm, rfl, hshare, by simp, ?_⟩
    intro v hv
    exact ⟨codes, List.mem_singleton_self _, by simpa using (List.mem_filter.mp hv).2⟩

/-- What two runs in a row take out adds up. -/
theorem Accounts.trans {first second : List ReportFilter} {report middle final : UnitReport}
    {moved dropped moved' dropped' : List Violation}
    (h : Accounts first report middle moved dropped)
    (h' : Accounts second middle final moved' dropped') :
    Accounts (first ++ second) report final (moved ++ moved') (dropped ++ dropped') where
  path := h'.path.trans h.path
  faults := h'.faults.trans h.faults
  violations := by
    rw [h'.violations, h.violations, filter_filter_and]
    refine List.filter_congr fun v _ => ?_
    simp [or_imp, forall_and]
  suppressed := by rw [h'.suppressed, h.suppressed, List.append_assoc]
  ignored := by
    rw [h'.ignored, h.ignored, List.length_append]
    omega
  shared := by
    -- The second run shares out what the first one left.
    have hswap : (final.violations ++ ((moved ++ moved') ++ (dropped ++ dropped'))).Perm
        ((final.violations ++ (moved' ++ dropped')) ++ (moved ++ dropped)) := by
      refine List.perm_iff_count.mpr fun v => ?_
      simp only [List.count_append]
      omega
    exact hswap.trans ((h'.shared.append_right _).trans h.shared)
  moved_silenced := by
    intro v hv
    rcases List.mem_append.mp hv with hv | hv
    · obtain ⟨tokens, hpass, hsilenced⟩ := h.moved_silenced v hv
      exact ⟨tokens, List.mem_append_left _ hpass, hsilenced⟩
    · obtain ⟨tokens, hpass, hsilenced⟩ := h'.moved_silenced v hv
      exact ⟨tokens, List.mem_append_right _ hpass, hsilenced⟩
  dropped_ignored := by
    intro v hv
    rcases List.mem_append.mp hv with hv | hv
    · obtain ⟨codes, hpass, hcode⟩ := h.dropped_ignored v hv
      exact ⟨codes, List.mem_append_left _ hpass, hcode⟩
    · obtain ⟨codes, hpass, hcode⟩ := h'.dropped_ignored v hv
      exact ⟨codes, List.mem_append_right _ hpass, hcode⟩

/-- **A run accounts for all violations.** -/
theorem accounts_filterBy (report : UnitReport) (passes : List ReportFilter) :
    ∃ moved dropped, Accounts passes report (report.filterBy passes) moved dropped := by
  induction passes generalizing report with
  | nil => exact ⟨[], [], rfl, rfl, by simp [UnitReport.filterBy], by simp [UnitReport.filterBy],
      rfl, by simp [UnitReport.filterBy], by simp, by simp⟩
  | cons pass passes ih =>
    obtain ⟨moved, dropped, hpass⟩ := accounts_apply report pass
    obtain ⟨moved', dropped', hpasses⟩ := ih (pass.apply report)
    exact ⟨moved ++ moved', dropped ++ dropped', hpass.trans hpasses⟩

/-- No violation is lost on the way. -/
theorem Accounts.total {passes : List ReportFilter} {report final : UnitReport}
    {moved dropped : List Violation} (h : Accounts passes report final moved dropped) :
    final.total = report.total := by
  have hlength := h.shared.length_eq
  rw [List.length_append, List.length_append] at hlength
  rw [UnitReport.total, UnitReport.total, h.suppressed, h.ignored, List.length_append]
  omega

/-! ### Passes that find nothing -/

/-- A filter for what is not there keeps all, and its complement nothing. -/
theorem filter_of_forall_not {α : Type} (p : α → Prop) [DecidablePred p] {xs : List α}
    (h : ∀ x ∈ xs, ¬ p x) : (xs.filter fun x => ¬ p x) = xs ∧ (xs.filter fun x => p x) = [] := by
  constructor
  · exact List.filter_eq_self.mpr fun x hx => by simpa using h x hx
  · exact List.filter_eq_nil_iff.mpr fun x hx => by simpa using h x hx

/-- A pass that takes no violation leaves the report as it is. -/
theorem apply_of_not_takes {pass : ReportFilter} {report : UnitReport}
    (h : ∀ v ∈ report.violations, ¬ pass.Takes v) : pass.apply report = report := by
  cases pass with
  | suppress tokens =>
    obtain ⟨hkept, htaken⟩ := filter_of_forall_not (Violation.Silenced tokens) h
    rw [ReportFilter.apply, UnitReport.suppress_eq, hkept, htaken, List.append_nil]
  | dropIgnored codes =>
    obtain ⟨hkept, htaken⟩ := filter_of_forall_not (fun v : Violation => v.code ∈ codes) h
    rw [ReportFilter.apply, UnitReport.dropIgnored_eq, hkept, htaken]
    rfl

/-- **Filters conserve violations, whatever their order**: behind any passes the report keeps, in
their order, exactly the violations that none of them takes, so that the order of the passes and
their repetition make no difference to it; it accounts for as many violations as before; the
suppressed ones have grown at their end, by violations that a comment of some pass silences; and a
pass that is run again finds nothing to do. -/
theorem filterBy_conserves (report : UnitReport) (passes : List ReportFilter) :
    let final := report.filterBy passes
    final.violations = report.violations.filter (fun v => ∀ pass ∈ passes, ¬ pass.Takes v)
      ∧ (∀ others, (∀ pass, pass ∈ others ↔ pass ∈ passes) →
          (report.filterBy others).violations = final.violations)
      ∧ final.violations.length + final.suppressed.length + final.ignored
        = report.violations.length + report.suppressed.length + report.ignored
      ∧ (∃ moved, final.suppressed = report.suppressed ++ moved
          ∧ ∀ v ∈ moved, v ∈ report.violations
            ∧ ∃ tokens, .suppress tokens ∈ passes ∧ v.Silenced tokens)
      ∧ final.path = report.path
      ∧ final.faults = report.faults
      ∧ ∀ pass ∈ passes, pass.apply final = final := by
  intro final
  obtain ⟨moved, dropped, haccounts⟩ := accounts_filterBy report passes
  refine ⟨haccounts.violations, ?_, haccounts.total, ⟨moved, haccounts.suppressed, ?_⟩,
    haccounts.path, haccounts.faults, ?_⟩
  · intro others hothers
    obtain ⟨_, _, hother⟩ := accounts_filterBy report others
    rw [hother.violations, haccounts.violations]
    refine List.filter_congr fun v _ => ?_
    simp only [hothers]
  · intro v hv
    have hmem : v ∈ report.violations := by
      rw [← haccounts.shared.mem_iff]
      simp [hv]
    exact ⟨hmem, haccounts.moved_silenced v hv⟩
  · intro pass hpass
    refine apply_of_not_takes fun v hv => ?_
    have hkept : v ∈ report.violations.filter fun v => ∀ pass ∈ passes, ¬ pass.Takes v :=
      haccounts.violations ▸ hv
    have hnone : ∀ pass ∈ passes, ¬ pass.Takes v := by
      simpa using (List.mem_filter.mp hkept).2
    exact hnone pass hpass

end PyStyle
