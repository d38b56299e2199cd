import Mathlib.Data.List.Find
import Mathlib.Data.List.TakeWhile
import PyStyle.Token.Lexeme

/-!
# Lexemes that end with their line

A string literal may go on over several lines; no other lexeme looks past the end of the line it
starts on. So what stands behind that line, and how the line ends, makes no difference to it.

- `Lexeme.lineOf` — the text up to the next line break;
- `Lexeme.WithinLine` — a rule that says the same of a text and of its first line;
- `WithinLine.seq` — two such rules one after the other;
- `name_withinLine`, `number_withinLine`, `operator_withinLine`, `comment_withinLine` — the rules;
- `opener?_lineOf` — also how a string opens is seen on its line.
-/

namespace PyStyle.Lexeme

open PyStyle.Text

/-! ### The line at the front -/

/-- The text up to the next line break. -/
def lineOf (cs : List Char) : List Char :=
  cs.takeWhile fun c => !isLineBreak c

@[simp] theorem lineOf_nil : lineOf [] = [] := rfl

theorem lineOf_of_break {c : Char} (rest : List Char) (h : isLineBreak c = true) :
    lineOf (c :: rest) = [] := by
  simp [lineOf, h]

theorem lineOf_cons {c : Char} (rest : List Char) (h : isLineBreak c = false) :
    lineOf (c :: rest) = c :: lineOf rest := by
  simp [lineOf, h]

theorem eq_of_isLineBreak {c : Char} (h : isLineBreak c = true) : c = '\r' ∨ c = '\n' := by
  simpa [isLineBreak] using h

/-- Within its first line a text can be cut without changing where the line ends. -/
theorem lineOf_drop {cs : List Char} {n : Nat} (h : n ≤ (lineOf cs).length) :
    lineOf (cs.drop n) = (lineOf cs).drop n := by
  induction cs generalizing n with
  | nil => simp
  | cons c rest ih =>
    cases n with
    | zero => rfl
    | succ n =>
      cases hc : isLineBreak c with
      | true => simp [lineOf_of_break rest hc] at h
      | false =>
        rw [lineOf_cons rest hc] at h ⊢
        exact ih (Nat.le_of_succ_le_succ h)

/-! ### Rules that end with the line -/

/-- No line break satisfies the test. -/
structure AvoidsBreaks (p : Char → Bool) : Prop where
  carriageReturn : p '\r' = false
  lineFeed : p '\n' = false

/-- What satisfies the test is no line break. -/
theorem AvoidsBreaks.isLineBreak {p : Char → Bool} (h : AvoidsBreaks p) {c : Char}
    (hc : p c = true) : isLineBreak c = false := by
  by_contra hbreak
  rcases eq_of_isLineBreak (by simpa using hbreak) with rfl | rfl
  · simp [h.carriageReturn] at hc
  · simp [h.lineFeed] at hc

/-- A rule that says the same of a text and of its first line. -/
structure WithinLine (rule : List Char → Nat) : Prop where
  line : ∀ cs, rule cs = rule (lineOf cs)
  le_length : ∀ cs, rule cs ≤ cs.length

/-- Such a rule takes nothing behind the line. -/
theorem WithinLine.le_line {rule : List Char → Nat} (h : WithinLine rule) (cs : List Char) :
    rule cs ≤ (lineOf cs).length := by
  rw [h.line cs]
  exact h.le_length (lineOf cs)

/-- A rule that ends with the line says the same of all texts with this line. -/
theorem WithinLine.congr {rule : List Char → Nat} (h : WithinLine rule) {cs cs' : List Char}
    (hline : lineOf cs = lineOf cs') : rule cs = rule cs' := by
  rw [h.line cs, hline, ← h.line cs']

/-- A run of characters ends at the first line break, if line breaks fail its test. -/
theorem run_withinLine {p : Char → Bool} (h : AvoidsBreaks p) : WithinLine (run p) where
  line cs := by
    have htake : (lineOf cs).takeWhile p = cs.takeWhile p := by
      rw [lineOf, List.takeWhile_takeWhile]
      congr 1
      funext c
      cases hc : p c with
      | false => simp
      | true => simp [h.isLineBreak hc]
    rw [run, run, htake]
  le_length cs := (List.takeWhile_sublist p).length_le

/-- One character that passes a test. -/
def one (p : Char → Bool) : List Char → Nat
  | c :: _ => if p c then 1 else 0
  | [] => 0

theorem one_withinLine {p : Char → Bool} (h : AvoidsBreaks p) : WithinLine (one p) where
  line cs := by
    cases cs with
    | nil => rfl
    | cons c rest =>
      cases hc : isLineBreak c with
      | true =>
        have hp : p c = false := by
          rcases eq_of_isLineBreak hc with rfl | rfl
          · exact h.carriageReturn
          · exact h.lineFeed
        simp [lineOf_of_break rest hc, one, hp]
      | false => simp [lineOf_cons rest hc, one]
  le_length cs := by
    cases cs with
    | nil => exact Nat.le_refl 0
    | cons c rest =>
      rw [one]
      split <;> simp

/-- One rule and then another one behind it. -/
def seq (rule rule' : List Char → Nat) (cs : List Char) : Nat :=
  rule cs + rule' (cs.drop (rule cs))

/-- A rule where a test holds, and nothing elsewhere. -/
def guarded (test : List Char → Bool) (rule : List Char → Nat) (cs : List Char) : Nat :=
  if test cs then rule cs else 0

/-- The second rule where the first one finds nothing. -/
def orElse (rule rule' : List Char → Nat) (cs : List Char) : Nat :=
  if rule cs = 0 then rule' cs else rule cs

/-- One rule and then another one, if the first one finds something. -/
def andThen (rule rule' : List Char → Nat) : List Char → Nat :=
  guarded (fun cs => rule cs != 0) (seq rule rule')

/-- One rule and then another one, if both find something. -/
def both (rule rule' : List Char → Nat) : List Char → Nat :=
  guarded (fun cs => rule' (cs.drop (rule cs)) != 0) (andThen rule rule')

namespace WithinLine

variable {rule rule' : List Char → Nat} (h : WithinLine rule) (h' : WithinLine rule')
include h

/-- A test that looks at the line only may decide whether the rule applies. -/
theorem guarded {test : List Char → Bool} (htest : ∀ cs, test cs = test (lineOf cs)) :
    WithinLine (guarded test rule) where
  line cs := by
    rw [Lexeme.guarded, Lexeme.guarded, ← htest cs, ← h.line cs]
  le_length cs := by
    rw [Lexeme.guarded]
    split
    · exact h.le_length cs
    · exact Nat.zero_le _

include h'

/-- Where the second rule starts, the rest of the first line is the line. -/
theorem line_drop (cs : List Char) :
    rule' (cs.drop (rule cs)) = rule' ((lineOf cs).drop (rule (lineOf cs))) := by
  rw [h'.line (cs.drop (rule cs)), lineOf_drop (h.le_line cs), ← h.line cs]

theorem seq : WithinLine (seq rule rule') where
  line cs := by
    rw [Lexeme.seq, Lexeme.seq, ← h.line_drop h' cs, ← h.line cs]
  le_length cs := by
    have hfirst := h.le_length cs
    have hsecond := h'.le_length (cs.drop (rule cs))
    rw [List.length_drop] at hsecond
    rw [Lexeme.seq]
    omega

theorem orElse : WithinLine (orElse rule rule') where
  line cs := by
    rw [Lexeme.orElse, Lexeme.orElse, ← h.line cs, ← h'.line cs]
  le_length cs := by
    rw [Lexeme.orElse]
    split
    · exact h'.le_length cs
    · exact h.le_length cs

theorem andThen : WithinLine (andThen rule rule') :=
  (h.seq h').guarded fun cs => by rw [← h.line cs]

theorem both : WithinLine (both rule rule') :=
  (h.andThen h').guarded fun cs => by rw [← h.line_drop h' cs]

end WithinLine

/-! ### The rules at one place of the text -/

theorem andThen_apply (rule rule' : List Char → Nat) (cs : List Char) :
    andThen rule rule' cs = if rule cs = 0 then 0 else rule cs + rule' (cs.drop (rule cs)) := by
  by_cases h : rule cs = 0 <;> simp [andThen, guarded, seq, h]

theorem both_apply (rule rule' : List Char → Nat) (cs : List Char) :
    both rule rule' cs
      = if rule cs = 0 ∨ rule' (cs.drop (rule cs)) = 0 then 0
        else rule cs + rule' (cs.drop (rule cs)) := by
  by_cases h : rule cs = 0 <;> by_cases h' : rule' (cs.drop (rule cs)) = 0 <;>
    simp [both, andThen, guarded, seq, h, h']

theorem andThen_one_cons (p : Char → Bool) (rule : List Char → Nat) (c : Char)
    (rest : List Char) :
    andThen (one p) rule (c :: rest) = if p c then rule rest + 1 else 0 := by
  cases hc : p c <;> simp [andThen_apply, one, hc, Nat.add_comm]

theorem both_one_cons (p : Char → Bool) (rule : List Char → Nat) (c : Char) (rest : List Char) :
    both (one p) rule (c :: rest)
      = if p c then (if rule rest = 0 then 0 else rule rest + 1) else 0 := by
  cases hc : p c <;> simp [both_apply, one, hc, Nat.add_comm]

/-! ### Names and comments -/

/-- A name is a word that starts with no digit. -/
theorem name_eq : name = andThen (one isWordStart) (run isWord) := by
  funext cs
  cases cs with
  | nil => rfl
  | cons c rest => rw [name, andThen_one_cons]

theorem name_withinLine : WithinLine name := by
  rw [name_eq]
  exact (one_withinLine ⟨rfl, rfl⟩).andThen (run_withinLine ⟨rfl, rfl⟩)

theorem comment_withinLine : WithinLine comment :=
  run_withinLine ⟨rfl, rfl⟩

/-! ### Numbers -/

/-- The digits of a number: the first one is no gap. -/
def digits : List Char → Nat :=
  andThen (one isDecimal) (run isDigitOrGap)

/-- As the scanner has it: one digit, and then digits and underscores. -/
theorem digits_cons (c : Char) (rest : List Char) :
    digits (c :: rest) = if isDecimal c then run isDigitOrGap rest + 1 else 0 :=
  andThen_one_cons isDecimal _ c rest

theorem digits_withinLine : WithinLine digits :=
  (one_withinLine ⟨rfl, rfl⟩).andThen (run_withinLine ⟨rfl, rfl⟩)

/-- A fraction alone, or digits that a fraction may follow. -/
theorem mantissa_eq :
    mantissa = orElse (both (one (· == '.')) digits)
      (andThen digits (andThen (one (· == '.')) (run isDigitOrGap))) := by
  have hpoint : isDecimal '.' = false := rfl
  funext cs
  unfold mantissa
  split
  · next d rest =>
    -- No digits stand before the point, so the second alternative finds nothing.
    cases hd : isDecimal d <;>
      simp [orElse, both_one_cons, andThen_apply digits, digits_cons, hd, hpoint]
  · next c rest hshort =>
    have hfraction : both (one (· == '.')) digits (c :: rest) = 0 := by
      rw [both_one_cons]
      split
      · next hc =>
        cases rest with
        | nil => rfl
        | cons d rest => exact absurd rfl (hshort d rest (by simpa using hc))
      · rfl
    rw [orElse, if_pos hfraction, andThen_apply, digits_cons]
    cases hc : isDecimal c with
    | false => simp
    | true =>
      simp only [if_true, List.drop_succ_cons]
      generalize rest.drop (run isDigitOrGap rest) = tail
      cases tail with
      | nil => rfl
      | cons point fraction =>
        rw [andThen_one_cons]
        by_cases hp : point = '.'
        · subst hp
          simp
          omega
        · simp [hp]
  · rfl

/-- A mark, perhaps a sign, and digits. -/
theorem exponent_eq :
    exponent = both (andThen (one fun c => c == 'e' || c == 'E')
      (one fun c => c == '+' || c == '-')) digits := by
  funext cs
  cases cs with
  | nil => rfl
  | cons e rest =>
    rw [both_apply, andThen_one_cons, exponent.eq_def]
    show (if e == 'e' || e == 'E' then
      (match rest.drop (one (fun c => c == '+' || c == '-') rest) with
        | d :: more =>
          if isDecimal d then
            run isDigitOrGap more + one (fun c => c == '+' || c == '-') rest + 2
          else 0
        | [] => 0)
      else 0) = _
    -- What matters of the sign is only how much of the text it takes.
    generalize one (fun c => c == '+' || c == '-') rest = sign
    split
    · rw [List.drop_succ_cons]
      cases rest.drop sign with
      | nil => rfl
      | cons d more =>
        rw [digits_cons]
        by_cases hd : isDecimal d = true
        · simp [hd]
          omega
        · simp [hd]
    · rfl

/-- The mark of an imaginary number is one letter. -/
theorem imaginary_eq : imaginary = one fun c => c == 'j' || c == 'J' := by
  funext cs
  cases cs <;> rfl

/-- A decimal number is put together from rules that end with the line. -/
theorem decimalNumber_withinLine : WithinLine decimalNumber := by
  have hpoint : WithinLine (one (· == '.')) := one_withinLine ⟨rfl, rfl⟩
  have hgaps : WithinLine (run isDigitOrGap) := run_withinLine ⟨rfl, rfl⟩
  have hmantissa : WithinLine mantissa := by
    rw [mantissa_eq]
    exact (hpoint.both digits_withinLine).orElse (digits_withinLine.andThen (hpoint.andThen hgaps))
  have hexponent : WithinLine exponent := by
    rw [exponent_eq]
    exact ((one_withinLine ⟨rfl, rfl⟩).andThen (one_withinLine ⟨rfl, rfl⟩)).both digits_withinLine
  have himaginary : WithinLine imaginary := by
    rw [imaginary_eq]
    exact one_withinLine ⟨rfl, rfl⟩
  exact (hmantissa.seq hexponent).seq himaginary

/-- No radix has a line break for a digit. -/
theorem radixDigit?_avoidsBreaks {mark : Char} {isDigit : Char → Bool}
    (h : radixDigit? mark = some isDigit) : AvoidsBreaks isDigit := by
  unfold radixDigit? at h
  split at h
  · cases h
    exact ⟨rfl, rfl⟩
  · split at h
    · cases h
      exact ⟨rfl, rfl⟩
    · split at h
      · cases h
        exact ⟨rfl, rfl⟩
      · cases h

/-- The digits that a radix mark at the front allows. -/
def markedDigits : List Char → Nat
  | mark :: rest =>
    match radixDigit? mark with
    | some isDigit => if run isDigit rest = 0 then 0 else run isDigit rest + 1
    | none => 0
  | [] => 0

/-- Which digits are allowed depends on the mark, so this rule is no composition of others. -/
theorem markedDigits_withinLine : WithinLine markedDigits where
  line cs := by
    cases cs with
    | nil => rfl
    | cons mark rest =>
      cases hmark : isLineBreak mark with
      | true =>
        rw [lineOf_of_break rest hmark]
        rcases eq_of_isLineBreak hmark with rfl | rfl <;> rfl
      | false =>
        rw [lineOf_cons rest hmark, markedDigits, markedDigits]
        split
        · next isDigit hdigit =>
          rw [← (run_withinLine (radixDigit?_avoidsBreaks hdigit)).line rest]
        · rfl
  le_length cs := by
    cases cs with
    | nil => exact Nat.le_refl 0
    | cons mark rest =>
      rw [markedDigits]
      split
      · next isDigit hdigit =>
        have hrun := (run_withinLine (radixDigit?_avoidsBreaks hdigit)).le_length rest
        split <;> simp [hrun]
      · exact Nat.zero_le _

/-- A zero, a mark and digits: without any of them there is no such number. -/
theorem radixNumber_eq : radixNumber = both (one (· == '0')) markedDigits := by
  funext cs
  unfold radixNumber
  split
  · next mark rest =>
    rw [both_one_cons, markedDigits]
    cases radixDigit? mark with
    | none => rfl
    | some isDigit => by_cases hrun : run isDigit rest = 0 <;> simp [hrun]
  · next hshort =>
    cases cs with
    | nil => rfl
    | cons c rest =>
      rw [both_one_cons]
      split
      · next hc =>
        cases rest with
        | nil => rfl
        | cons mark rest => exact (hshort mark rest (by rw [beq_iff_eq.mp hc])).elim
      · rfl

/-- Two characters say whether a number starts, and a line break is neither a digit nor a point. -/
theorem startsNumber_lineOf (cs : List Char) : startsNumber cs = startsNumber (lineOf cs) := by
  cases cs with
  | nil => rfl
  | cons c rest =>
    cases hc : isLineBreak c with
    | true =>
      rw [lineOf_of_break rest hc]
      rcases eq_of_isLineBreak hc with rfl | rfl <;> rfl
    | false =>
      rw [lineOf_cons rest hc]
      cases rest with
      | nil => rfl
      | cons d rest =>
        cases hd : isLineBreak d with
        | false =>
          rw [lineOf_cons rest hd]
          by_cases hpoint : c = '.'
          · subst hpoint
            rfl
          · simp [startsNumber, hpoint]
        | true =>
          rw [lineOf_of_break rest hd]
          by_cases hpoint : c = '.'
          · subst hpoint
            rcases eq_of_isLineBreak hd with rfl | rfl <;> rfl
          · simp [startsNumber, hpoint]

theorem number_withinLine : WithinLine number := by
  have hradix : WithinLine radixNumber := by
    rw [radixNumber_eq]
    exact (one_withinLine ⟨rfl, rfl⟩).both markedDigits_withinLine
  exact (hradix.orElse decimalNumber_withinLine).guarded startsNumber_lineOf

/-! ### Operators -/

/-- A word without line breaks is found where it is found on the line. -/
theorem isPrefixOf_lineOf (word : List Char) (hword : ∀ c ∈ word, isLineBreak c = false)
    (cs : List Char) : word.isPrefixOf cs = word.isPrefixOf (lineOf cs) := by
  induction word generalizing cs with
  | nil => simp
  | cons w word ih =>
    obtain ⟨hw, hword⟩ := List.forall_mem_cons.mp hword
    cases cs with
    | nil => rfl
    | cons c rest =>
      cases hc : isLineBreak c with
      | true =>
        have hne : w ≠ c := by
          rintro rfl
          simp [hw] at hc
        simp [lineOf_of_break rest hc, List.isPrefixOf, hne]
      | false => simp only [lineOf_cons rest hc, List.isPrefixOf, ← ih hword rest]

/-- No operator contains a line break. -/
theorem longOperators_avoid_breaks :
    ∀ op ∈ longOperators, ∀ c ∈ op, isLineBreak c = false := by
  -- Decided over the table: an instance could also run through all characters there are.
  have hall : (longOperators.all fun op => op.all fun c => !isLineBreak c) = true := by
    decide
  intro op hop c hc
  have hword := List.all_eq_true.mp hall op hop
  simpa using List.all_eq_true.mp hword c hc

theorem shortOperators_avoid_breaks : AvoidsBreaks (shortOperators.contains ·) :=
  ⟨by decide, by decide⟩

/-- The longest operator of several characters at the front. -/
def longOperator (cs : List Char) : Nat :=
  ((longOperators.find? (·.isPrefixOf cs)).map (·.length)).getD 0

/-- The first operator in the table that is found in the text is also the first one found on the
line. -/
theorem longOperator_withinLine : WithinLine longOperator where
  line cs := by
    rw [longOperator, longOperator, List.find?_congr fun op hop =>
      isPrefixOf_lineOf op (longOperators_avoid_breaks op hop) cs]
  le_length cs := by
    rw [longOperator]
    cases hfind : longOperators.find? (·.isPrefixOf cs) with
    | none => exact Nat.zero_le _
    | some op =>
      have hprefix : op <+: cs := by simpa using List.find?_some hfind
      exact hprefix.length_le

/-- Operators of several characters are tried first. -/
theorem operator_eq : operator = orElse longOperator (one (shortOperators.contains ·)) := by
  have hlong : ∀ op ∈ longOperators, op.length ≠ 0 := by decide
  funext cs
  rw [operator.eq_def, orElse, longOperator]
  cases hfind : longOperators.find? (·.isPrefixOf cs) with
  | none => cases cs <;> rfl
  | some op => simp [hlong op (List.mem_of_find?_eq_some hfind)]

theorem operator_withinLine : WithinLine operator := by
  rw [operator_eq]
  exact longOperator_withinLine.orElse (one_withinLine shortOperators_avoid_breaks)

/-! ### How strings open -/

/-- The opener says which quote there is and how many letters stand before it, and its quotes lie in
the text. -/
theorem quotesAt?_eq_some {letters : Nat} {cs : List Char} {o : Opener}
    (h : quotesAt? letters cs = some o) :
    (o.quote = '\'' ∨ o.quote = '"') ∧ o.letters = letters ∧ o.quotes ≤ cs.length := by
  cases cs with
  | nil => cases h
  | cons q rest =>
    rw [quotesAt?] at h
    split at h
    · next hq =>
      cases h
      refine ⟨by simpa using hq, rfl, ?_⟩
      rw [Opener.quotes]
      split
      · next htriple =>
        have hprefix : [q, q] <+: rest := by simpa using htriple
        have hlength := hprefix.length_le
        simp only [List.length_cons, List.length_nil] at hlength ⊢
        omega
      · simp
    · cases h

/-- The quotes of an opener stand behind its prefix. -/
theorem quotesAt?_of_opener? {cs : List Char} {o : Opener} (h : opener? cs = some o) :
    ∃ letters ≤ cs.length, quotesAt? letters (cs.drop letters) = some o := by
  unfold opener? at h
  split at h
  · split at h
    · exact ⟨2, by simp, h⟩
    · split at h
      · exact ⟨1, by simp, h⟩
      · exact ⟨0, Nat.zero_le _, h⟩
  · exact ⟨0, Nat.zero_le _, h⟩

/-- An opener lies in the text and ends with quotes. -/
theorem opener?_eq_some {cs : List Char} {o : Opener} (h : opener? cs = some o) :
    (o.quote = '\'' ∨ o.quote = '"') ∧ o.length ≤ cs.length := by
  obtain ⟨letters, hle, hquotes⟩ := quotesAt?_of_opener? h
  obtain ⟨hquote, hletters, hlength⟩ := quotesAt?_eq_some hquotes
  refine ⟨hquote, ?_⟩
  rw [List.length_drop] at hlength
  rw [Opener.length]
  omega

/-- Three quotes or one: they stand on one line. -/
theorem quotesAt?_lineOf (letters : Nat) (cs : List Char) :
    quotesAt? letters cs = quotesAt? letters (lineOf cs) := by
  cases cs with
  | nil => rfl
  | cons q rest =>
    cases hq : isLineBreak q with
    | true =>
      rw [lineOf_of_break rest hq]
      rcases eq_of_isLineBreak hq with rfl | rfl <;> rfl
    | false =>
      have htriple := isPrefixOf_lineOf [q, q] (by simp [hq]) rest
      rw [lineOf_cons rest hq, quotesAt?, quotesAt?, htriple]

/-- A line break is no letter of a prefix. -/
theorem isStringLetterPair_of_break {c d : Char}
    (h : isLineBreak c = true ∨ isLineBreak d = true) : isStringLetterPair c d = false := by
  rcases h with h | h <;> rcases eq_of_isLineBreak h with rfl | rfl <;>
    simp [isStringLetterPair, isLetterOf]

theorem quotesAt?_of_isStringLetter {c : Char} (h : isStringLetter c = true) :
    quotesAt? 0 [c] = none := by
  rw [quotesAt?, if_neg]
  intro hquote
  rcases (by simpa using hquote : c = '\'' ∨ c = '"') with rfl | rfl <;> cases h

/-- Where the closing quotes stand is seen on their line. -/
theorem closes_lineOf {o : Opener} (hquote : isLineBreak o.quote = false) (cs : List Char) :
    closes o cs = closes o (lineOf cs) := by
  refine isPrefixOf_lineOf _ (fun c hc => ?_) cs
  rw [List.eq_of_mem_replicate hc]
  exact hquote

/-- How a string opens is seen on its line. -/
theorem opener?_lineOf (cs : List Char) : opener? cs = opener? (lineOf cs) := by
  match cs with
  | [] => rfl
  | [c] =>
    cases hc : isLineBreak c with
    | true =>
      rw [lineOf_of_break [] hc]
      rcases eq_of_isLineBreak hc with rfl | rfl <;> rfl
    | false => rw [lineOf_cons [] hc, lineOf_nil]
  | c :: d :: rest =>
    have hwhole := quotesAt?_lineOf 0 (c :: d :: rest)
    have hbehind := quotesAt?_lineOf 1 (d :: rest)
    cases hc : isLineBreak c with
    | true =>
      have hletter : isStringLetter c = false := by
        rcases eq_of_isLineBreak hc with rfl | rfl <;> rfl
      rw [lineOf_of_break (d :: rest) hc] at hwhole ⊢
      simp [opener?, isStringLetterPair_of_break (.inl hc), hletter, hwhole]
    | false =>
      rw [lineOf_cons (d :: rest) hc] at hwhole ⊢
      cases hd : isLineBreak d with
      | true =>
        -- The line is the one letter, which is no quote, whether or not it could be a prefix.
        rw [lineOf_of_break rest hd] at hwhole hbehind ⊢
        rw [opener?, isStringLetterPair_of_break (.inr hd), if_neg Bool.false_ne_true, hbehind,
          hwhole]
        split
        · next hletter => exact (quotesAt?_of_isStringLetter hletter).symm
        · rfl
      | false =>
        rw [lineOf_cons rest hd] at hwhole hbehind ⊢
        rw [opener?, opener?, hwhole, hbehind, quotesAt?_lineOf 2 rest]

/-- Texts with the same first line open the same string, or none. -/
theorem opener?_congr {cs cs' : List Char} (hline : lineOf cs = lineOf cs') :
    opener? cs = opener? cs' := by
  rw [opener?_lineOf cs, hline, ← opener?_lineOf cs']

end PyStyle.Lexeme
