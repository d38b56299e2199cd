import PyStyle.Analysis
import PyStyle.Text.Word

/-!
# Suppression

A comment with the word `noqa` behind a hash sign silences violations of its own line:
all of them, or only the codes it lists.

- `Suppression.ofComment?` — the directive in a comment, if there is one;
- `Suppression.silences` — does a directive speak about a violation?
- `UnitReport.suppress` — violations moved to the suppressed ones;
- `UnitReport.dropIgnored` — violations dropped and counted.
-/

namespace PyStyle

/-- Codes in ascending order, each one once. -/
def codeSet (codes : List Nat) : List Nat :=
  (codes.mergeSort (· ≤ ·)).eraseReps

/-- A directive that silences violations of one line. -/
structure Suppression where
  line : Nat
  /-- The silenced codes in ascending order; `none` silences every code. -/
  codes : Option (List Nat)
deriving DecidableEq, Repr, Inhabited

namespace Suppression

/-! ### The directive in a comment -/

/-- The text behind a word that is spelled in any letter case. -/
def afterWord? : List Char → List Char → Option (List Char)
  | [], cs => some cs
  | _ :: _, [] => none
  | w :: word, c :: cs => if c.toLower == w then afterWord? word cs else none

/-- The text behind the word `noqa`, which must end there. -/
def afterMark? (cs : List Char) : Option (List Char) :=
  (afterWord? ['n', 'o', 'q', 'a'] (Text.trimStart cs)).filter fun rest =>
    !(rest.head?.any Text.isWord)

/-- The code word at the front, letters and then at least one digit, and what follows. -/
def codeWord? (cs : List Char) : Option (List Char × List Char) :=
  let letters := cs.takeWhile Text.isAsciiLetter
  let rest := cs.dropWhile Text.isAsciiLetter
  let digits := rest.takeWhile Text.isAsciiDigit
  if digits.isEmpty then none
  else some (letters ++ digits, rest.dropWhile Text.isAsciiDigit)

/-- Does the character stand between two code words? -/
def isSeparator (c : Char) : Bool :=
  c == ',' || Text.isBlank c

theorem length_dropWhile_le (p : Char → Bool) (cs : List Char) :
    (cs.dropWhile p).length ≤ cs.length :=
  (List.dropWhile_suffix p).length_le

theorem length_dropWhile_lt {p : Char → Bool} {cs : List Char}
    (h : (cs.takeWhile p).isEmpty = false) : (cs.dropWhile p).length < cs.length := by
  have := congrArg List.length (List.takeWhile_append_dropWhile (p := p) (l := cs))
  have : 0 < (cs.takeWhile p).length := List.length_pos_iff.mpr (by simpa using h)
  grind

theorem length_lt_of_codeWord? {cs word rest : List Char}
    (h : codeWord? cs = some (word, rest)) : rest.length < cs.length := by
  simp only [codeWord?] at h
  split at h
  · cases h
  · rename_i hdigits
    obtain ⟨-, rfl⟩ := Prod.mk.inj (Option.some.inj h)
    exact Nat.lt_of_lt_of_le (length_dropWhile_lt (by simpa using hdigits))
      (length_dropWhile_le _ _)

/-- The further code words of a list, each behind at least one separator. -/
def codeWordsBehind (cs : List Char) : List (List Char) :=
  if (cs.takeWhile isSeparator).isEmpty then []
  else
    match _h : codeWord? (cs.dropWhile isSeparator) with
    | none => []
    | some (word, rest) => word :: codeWordsBehind rest
termination_by cs.length
decreasing_by
  have := length_lt_of_codeWord? _h
  have := length_dropWhile_le isSeparator cs
  omega

/-- The code words behind a colon, if there is one and at least one code word follows. -/
def codeWords? : List Char → Option (List (List Char))
  | ':' :: cs =>
    (codeWord? (Text.trimStart cs)).map fun (word, rest) => word :: codeWordsBehind rest
  | _ => none

/-- The directive in a comment: the first hash sign that `noqa` follows. Code words that
spell no code are passed over. -/
def ofComment? (line : Nat) : List Char → Option Suppression
  | [] => none
  | c :: cs =>
    match if c == '#' then afterMark? cs else none with
    | none => ofComment? line cs
    | some rest =>
      some { line
             codes := (codeWords? rest).map fun words =>
               codeSet (words.filterMap fun word => parseCode (String.ofList word)) }

/-- The directives in the comments of a unit, in order. -/
def ofTokens (tokens : List Token) : List Suppression :=
  (tokens.filter (·.kind == .comment)).filterMap fun token =>
    ofComment? token.position.line token.text.toList

/-! ### What a directive silences -/

/-- Does the directive silence the violation? -/
def silences (suppression : Suppression) (violation : Violation) : Bool :=
  violation.position.line == suppression.line
    && suppression.codes.all (·.contains violation.code)

end Suppression

namespace UnitReport

/-- Move the violations that some directive silences behind those that are suppressed
already. -/
def suppressBy (report : UnitReport) (suppressions : List Suppression) : UnitReport :=
  let silenced := fun v => suppressions.any (·.silences v)
  { report with
    violations := report.violations.filter (!silenced ·)
    suppressed := report.suppressed ++ report.violations.filter silenced }

/-- Apply the directives in the comments among the tokens. -/
def suppress (report : UnitReport) (tokens : List Token) : UnitReport :=
  report.suppressBy (Suppression.ofTokens tokens)

/-- Drop the violations whose code is ignored, and count them. -/
def dropIgnored (report : UnitReport) (ignored : List Nat) : UnitReport :=
  { report with
    violations := report.violations.filter fun v => !ignored.contains v.code
    ignored := report.ignored + report.violations.countP fun v => ignored.contains v.code }

end UnitReport

end PyStyle
