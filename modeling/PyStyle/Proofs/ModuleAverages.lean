import Mathlib.Algebra.Order.BigOperators.Group.List
import Mathlib.Algebra.Order.Round
import Mathlib.Data.Rat.Floor
import Mathlib.Tactic.FieldSimp
import Mathlib.Tactic.Ring
import PyStyle.Proofs.FaultFreeChecks
import PyStyle.Proofs.JsonText
import PyStyle.Proofs.ReportBuckets

/-!
# Averages of a module

The check of modules rounds an average to one decimal before it compares it with the limit, so a
module is reported from a twentieth above the limit on and not directly above it. Here the rounded
average, the comparison and the number in the message are said in rational arithmetic and shown to
fit together.

- `Text.IsDecimal` — the shortest decimal notation of a number;
- `Tenths.average_eq_round` — an average in tenths is the quotient, rounded half up;
- `Tenths.limit_lt_average_iff` — when an average is above a limit, without a quotient;
- `Tenths.isDecimal_display` — an average is shown in its shortest notation;
- `Check.run_moduleComplexity` — what the check of modules does with a node;
- `moduleAverage_exact` — the decision, the number that is shown, and what follows for the limit.
-/

namespace PyStyle

/-! ### Decimal notation -/

namespace Text

/-- Decimal digits without a zero at the front, unless they are just that zero. -/
structure IsWhole (digits : List Char) : Prop where
  digit : ∀ c ∈ digits, isAsciiDigit c = true
  front : digits = ['0'] ∨ ∃ d ds, digits = d :: ds ∧ d ≠ '0'

/-- The text is the shortest decimal notation of the number. A whole number has no point, and
digits behind a point do not end in a zero. -/
inductive IsDecimal : List Char → ℚ → Prop
  | whole {digits : List Char} (h : IsWhole digits) : IsDecimal digits (decimalValue digits)
  | fraction {digits tail : List Char} {last : Char} (h : IsWhole digits)
      (htail : ∀ c ∈ tail ++ [last], isAsciiDigit c = true) (hlast : last ≠ '0') :
      IsDecimal (digits ++ '.' :: (tail ++ [last]))
        (decimalValue digits + decimalValue (tail ++ [last]) / 10 ^ (tail.length + 1))

theorem isWhole_decimalDigits (n : Nat) : IsWhole (decimalDigits n) where
  digit _ h := isAsciiDigit_of_mem_decimalDigits h
  front := decimalDigits_cases n

theorem digitChar_eq (d : Nat) (h : d < 10) : d.digitChar = Char.ofNat ('0'.toNat + d) := by
  revert d
  decide

/-- A number is printed in its decimal digits. -/
theorem toList_toString (n : Nat) : (toString n).toList = decimalDigits n := by
  rw [Nat.toString_eq_ofList_toDigits, String.toList_ofList]
  fun_induction decimalDigits n with
  | case1 n hn => rw [Nat.toDigits_of_lt_base hn, digitChar_eq n hn]
  | case2 n hn ih =>
    rw [Nat.toDigits_of_base_le (by decide) (Nat.le_of_not_lt hn), ih,
      digitChar_eq (n % 10) (Nat.mod_lt n (by decide))]

end Text

/-! ### Tenths -/

namespace Check.Tenths

/-- The quotient whose floor the rounded average is. -/
theorem mul_ten_add_half (total : Nat) {parts : Nat} (h : 0 < parts) :
    (total : ℚ) / parts * 10 + 1 / 2
      = ((20 * total + parts : Nat) : ℚ) / ((2 * parts : Nat) : ℚ) := by
  have hparts : (parts : ℚ) ≠ 0 := Nat.cast_ne_zero.mpr (Nat.pos_iff_ne_zero.mp h)
  push_cast
  field_simp
  ring

/-- **An average in tenths is ten times the quotient, rounded half up.** -/
theorem average_eq_round (total : Nat) {parts : Nat} (h : 0 < parts) :
    ((average total parts).count : ℤ) = round ((total : ℚ) / parts * 10) := by
  rw [round_eq, mul_ten_add_half total h, Rat.floor_natCast_div_natCast]
  rfl

/-- **An average is above a limit if it exceeds it by a twentieth.** -/
theorem limit_lt_average_iff (limit total : Nat) {parts : Nat} (h : 0 < parts) :
    10 * limit < (average total parts).count ↔ (20 * limit + 1) * parts ≤ 20 * total := by
  have hscale : (10 * limit + 1) * (2 * parts) = (20 * limit + 1) * parts + parts := by ring
  show 10 * limit + 1 ≤ (20 * total + parts) / (2 * parts) ↔ _
  rw [Nat.le_div_iff_mul_le (by omega), hscale]
  omega

theorem isDecimal_display (t : Tenths) : Text.IsDecimal t.display.toList (t.count / 10) := by
  have hdigits := Text.isWhole_decimalDigits (t.count / 10)
  have hsplit : (t.count : ℚ) / 10 = (t.count / 10 : Nat) + ((t.count % 10 : Nat) : ℚ) / 10 := by
    have hmod : (t.count : ℚ) = ((10 * (t.count / 10) + t.count % 10 : Nat) : ℚ) := by
      rw [Nat.div_add_mod]
    rw [hmod]
    push_cast
    ring
  rw [display]
  by_cases hwhole : t.count % 10 = 0
  · rw [if_pos hwhole, Text.toList_toString, hsplit, hwhole]
    have hdecimal := Text.IsDecimal.whole hdigits
    rw [decimalValue_decimalDigits] at hdecimal
    simpa using hdecimal
  · -- The last digit is one of 1 to 9, so it stands alone behind the point.
    have hlt : t.count % 10 < 10 := Nat.mod_lt _ (by decide)
    obtain ⟨hdigit, hvalue, hzero⟩ := digitChar_facts (t.count % 10) hlt
    have hlast : (toString (t.count % 10)).toList
        = [] ++ [Char.ofNat ('0'.toNat + t.count % 10)] := by
      rw [Text.toList_toString, decimalDigits, if_pos hlt, List.nil_append]
    have htail : ∀ c ∈ [] ++ [Char.ofNat ('0'.toNat + t.count % 10)],
        Text.isAsciiDigit c = true := by
      simpa using hdigit
    have hdecimal := Text.IsDecimal.fraction hdigits htail (hzero hwhole)
    have hone : decimalValue ([] ++ [Char.ofNat ('0'.toNat + t.count % 10)]) = t.count % 10 := by
      rw [decimalValue_concat, hvalue]
      exact Nat.zero_add _
    rw [decimalValue_decimalDigits, hone] at hdecimal
    rw [if_neg hwhole, String.toList_append, String.toList_append, Text.toList_toString, hlast,
      hsplit]
    simpa using hdecimal

end Check.Tenths

/-! ### The check -/

namespace Check

/-- Is the average of the scores above the limit by a twentieth or more? -/
def Exceeds (limit : Nat) (scores : List Nat) : Prop :=
  0 < scores.length ∧ (20 * limit + 1) * scores.length ≤ 20 * scores.sum

instance (limit : Nat) (scores : List Nat) : Decidable (Exceeds limit scores) :=
  inferInstanceAs (Decidable (_ ∧ _))

/-- What is reported of a module at a position whose functions have the scores. -/
def averageViolation (position : Position) (scores : List Nat) : Violation where
  code := 232
  message := "Found module with too high average cognitive complexity: "
    ++ (Tenths.average scores.sum scores.length).display
  category := .complexity
  isFinal := true
  position := position

theorem render_cognitiveModuleComplexity (argument : String) :
    Rule.cognitiveModuleComplexity.render (some argument)
      = "Found module with too high average cognitive complexity: " ++ argument :=
  Rule.render_append (by decide) (by decide) argument

/-- The comparison with the rounded average, without the average. -/
theorem visit_moduleComplexity (limit : Nat) (visit : NodeVisit) :
    (moduleComplexity limit).visit visit
      = if Exceeds limit (functionScores none none visit.node) then
          .require Rule.cognitiveModuleComplexity
            (some (Tenths.average (functionScores none none visit.node).sum
              (functionScores none none visit.node).length).display) visit.node.position .done
        else .done := by
  simp only [moduleComplexity]
  generalize functionScores none none visit.node = scores
  cases scores with
  | nil => rfl
  | cons score rest =>
    have hparts : 0 < (score :: rest).length := Nat.succ_pos _
    have hiff := Tenths.limit_lt_average_iff limit (score :: rest).sum hparts
    have hexceeds : Exceeds limit (score :: rest)
        ↔ 10 * limit < (Tenths.average (score :: rest).sum (score :: rest).length).count := by
      rw [hiff]
      exact and_iff_right hparts
    simp only [hexceeds]
    rfl

/-- **The check of modules** reports a node if its average is too high, and does not fail. -/
theorem run_moduleComplexity (limit : Nat) (visit : NodeVisit) {catalog : Catalog}
    (hcatalog : catalog.contains Rule.cognitiveModuleComplexity = true) :
    ((moduleComplexity limit).visit visit).run catalog
      = (if Exceeds limit (functionScores none none visit.node) then
          [averageViolation visit.node.position (functionScores none none visit.node)]
        else [], none) := by
  rw [visit_moduleComplexity]
  split
  · rw [Action.require, Action.run, if_pos hcatalog, Violation.of,
      render_cognitiveModuleComplexity]
    rfl
  · rfl

theorem not_exceeds_of_le {limit : Nat} {scores : List Nat} (h : ∀ score ∈ scores, score ≤ limit) :
    ¬Exceeds limit scores := by
  rintro ⟨hparts, hlimit⟩
  have hsum : scores.sum ≤ scores.length * limit := by
    simpa using List.sum_le_card_nsmul scores limit h
  have hscale : (20 * limit + 1) * scores.length
      = 20 * (scores.length * limit) + scores.length := by ring
  omega

theorem Exceeds.of_le {limit higher : Nat} {scores : List Nat} (h : Exceeds higher scores)
    (hle : limit ≤ higher) : Exceeds limit scores := by
  refine ⟨h.1, Nat.le_trans (Nat.mul_le_mul_right _ ?_) h.2⟩
  omega

end Check

/-- **The decision on averages in exact arithmetic.** Let `count` functions of a module score
`total` together. The module is reported exactly if there is a function and the average, rounded
half up to one decimal, is above the limit, and this is so exactly if `(20 * limit + 1) * count ≤ 20
* total`; the message shows the rounded average, which is `tenths / 10` for `tenths = (20 * total +
count) / (2 * count)`, in its shortest notation. So nothing is reported if no function scores above
the limit, and nothing new if the limit is raised. -/
theorem moduleAverage_exact (limit : Nat) (visit : NodeVisit) {catalog : Catalog}
    (hcatalog : catalog.contains Rule.cognitiveModuleComplexity = true) :
    let found := fun limit => ((Check.moduleComplexity limit).visit visit).run catalog
    let scores := Check.functionScores none none visit.node
    let count := scores.length
    let total := scores.sum
    let tenths := (20 * total + count) / (2 * count)
    let rounded : ℚ := round ((total : ℚ) / count * 10) / 10
    (∃ shown : String, Text.IsDecimal shown.toList (tenths / 10)
        ∧ found limit = (if 0 < count ∧ (20 * limit + 1) * count ≤ 20 * total then
            [{ code := 232
               message := "Found module with too high average cognitive complexity: " ++ shown
               category := .complexity
               isFinal := true
               position := visit.node.position }]
          else [], none))
      ∧ (0 < count → rounded = tenths / 10
          ∧ ((limit : ℚ) < rounded ↔ (20 * limit + 1) * count ≤ 20 * total))
      ∧ ((∀ score ∈ scores, score ≤ limit) → (found limit).1 = [])
      ∧ ∀ higher, limit ≤ higher → ((found higher).1).Sublist (found limit).1 := by
  intro found scores count total tenths rounded
  have hfound : ∀ limit, found limit = (if Check.Exceeds limit scores then
      [Check.averageViolation visit.node.position scores] else [], none) :=
    fun limit => Check.run_moduleComplexity limit visit hcatalog
  refine ⟨⟨_, Check.Tenths.isDecimal_display ⟨tenths⟩, hfound limit⟩, ?_, ?_, ?_⟩
  · intro hcount
    have hrounded : rounded = tenths / 10 := by
      show ((round _ : ℤ) : ℚ) / 10 = _
      rw [← Check.Tenths.average_eq_round total hcount]
      rfl
    refine ⟨hrounded, ?_⟩
    rw [hrounded, ← Check.Tenths.limit_lt_average_iff limit total hcount, lt_div_iff₀ (by norm_num)]
    show _ ↔ 10 * limit < tenths
    rw [mul_comm]
    exact_mod_cast Iff.rfl
  · intro hscores
    rw [hfound, if_neg (Check.not_exceeds_of_le hscores)]
  · intro higher hle
    rw [hfound, hfound]
    by_cases hhigher : Check.Exceeds higher scores
    · rw [if_pos hhigher, if_pos (hhigher.of_le hle)]
    · rw [if_neg hhigher]
      exact List.nil_sublist _

/-- `depth` branches, each in the block of the one before. -/
def Node.nestedIfs : Nat → Node
  | 0 => .plain .generic ⟨1, 0⟩ []
  | depth + 1 => .plain .ifStmt ⟨1, 0⟩ [.plain .block ⟨1, 0⟩ [nestedIfs depth]]

/-- A module with three functions, of one, two and three nested branches. -/
def NodeVisit.threeFunctions : NodeVisit where
  path := "m.py"
  node := .plain .module ⟨1, 0⟩ ([1, 2, 3].map fun depth =>
    .plain .functionDef ⟨1, 0⟩ [.plain .block ⟨1, 0⟩ [.nestedIfs depth]])
  parents := []

/-- Scores of 1, 3 and 6 are 3.3 on average: too much for a limit of 3, and fine for one of 4. -/
theorem threeFunctions_average :
    let catalog := Catalog.ofGroups Catalog.standardGroups
    let found := fun limit => ((Check.moduleComplexity limit).visit .threeFunctions).run catalog
    catalog.contains Rule.cognitiveModuleComplexity = true
      ∧ Check.functionScores none none NodeVisit.threeFunctions.node = [1, 3, 6]
      ∧ (∃ shown : String, Text.IsDecimal shown.toList (((20 * 10 + 3) / (2 * 3) : ℕ) / 10)
        ∧ (found 3).1.map (·.message)
          = ["Found module with too high average cognitive complexity: " ++ shown])
      ∧ (found 4).1 = [] := by
  intro catalog found
  have hcatalog : catalog.contains Rule.cognitiveModuleComplexity = true :=
    Catalog.contains_reportedRules _ (by simp [reportedRules])
  have hscores : Check.functionScores none none NodeVisit.threeFunctions.node = [1, 3, 6] := by
    decide
  refine ⟨hcatalog, hscores, ?_, ?_⟩
  · obtain ⟨⟨shown, hshown, hfound⟩, -⟩ := moduleAverage_exact 3 .threeFunctions hcatalog
    rw [hscores] at hshown hfound
    rw [if_pos (by decide)] at hfound
    exact ⟨shown, hshown, congrArg (fun run => run.1.map (·.message)) hfound⟩
  · obtain ⟨⟨shown, -, hfound⟩, -⟩ := moduleAverage_exact 4 .threeFunctions hcatalog
    rw [hscores, if_neg (by decide)] at hfound
    exact congrArg Prod.fst hfound

end PyStyle
