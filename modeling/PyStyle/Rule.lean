import PyStyle.Position
import PyStyle.Text.Blank
import PyStyle.Text.Decimal
import PyStyle.Text.Replace

/-!
# Rules and violations

Every rule belongs to one of seven categories, and category number *i* owns the codes
from `100 * i` to `100 * i + 99`.

- `Category` — the categories in the order of their codes;
- `formatCode`, `parseCode` — codes as users write them;
- `Rule` — a code, a name and a message template with at most one place for an argument;
- `Rule.render` — the message;
- `Violation` — a rule broken at a position.
-/

namespace PyStyle

/-- A group of rules. -/
inductive Category where
  | system
  | naming
  | complexity
  | consistency
  | bestPractices
  | refactoring
  | oop
deriving DecidableEq, Repr, Inhabited

namespace Category

/-- All categories in the order of their codes. -/
def all : List Category :=
  [.system, .naming, .complexity, .consistency, .bestPractices, .refactoring, .oop]

/-- The place of the category in that order. -/
def index : Category → Nat
  | system => 0
  | naming => 1
  | complexity => 2
  | consistency => 3
  | bestPractices => 4
  | refactoring => 5
  | oop => 6

/-- The category at a place of that order. -/
def ofIndex? (i : Nat) : Option Category :=
  all[i]?

/-- The first code of the category. -/
def base (c : Category) : Nat :=
  c.index * 100

/-- The last code of the category. -/
def last (c : Category) : Nat :=
  c.base + 99

/-- The name of the category. -/
def label : Category → String
  | system => "system"
  | naming => "naming"
  | complexity => "complexity"
  | consistency => "consistency"
  | bestPractices => "best_practices"
  | refactoring => "refactoring"
  | oop => "oop"

/-- The category of a name. -/
def ofLabel? (label : String) : Option Category :=
  all.find? (·.label == label)

/-- The category that owns a code, if one does. -/
def ofCode? (code : Nat) : Option Category :=
  ofIndex? (code / 100)

end Category

/-! ### Codes -/

/-- The decimal digits of a number, most significant first. -/
def decimalDigits (n : Nat) : List Char :=
  if n < 10 then [Char.ofNat ('0'.toNat + n)]
  else decimalDigits (n / 10) ++ [Char.ofNat ('0'.toNat + n % 10)]

/-- The number that decimal digits spell. -/
def decimalValue (digits : List Char) : Nat :=
  digits.foldl (fun n d => n * 10 + (d.toNat - '0'.toNat)) 0

/-- The largest code there is. -/
def maxCode : Nat := 65535

/-- A code as it is shown: `SP` and at least three digits. -/
def formatCode (code : Nat) : String :=
  let digits := decimalDigits code
  String.ofList (['S', 'P'] ++ List.replicate (3 - digits.length) '0' ++ digits)

/-- The text behind the mark `SP` in any letter case, or the whole text without one. -/
def dropCodeMark : List Char → List Char
  | s :: p :: rest =>
    if (s == 's' || s == 'S') && (p == 'p' || p == 'P') then rest else s :: p :: rest
  | cs => cs

/-- The code that a text spells, with blanks around it and with or without the mark. -/
def parseCode (text : String) : Option Nat :=
  let digits := dropCodeMark (Text.trim text.toList)
  if digits ≠ [] ∧ digits.all Text.isAsciiDigit ∧ decimalValue digits ≤ maxCode then
    some (decimalValue digits)
  else none

/-! ### Rules -/

/-- A rule that checks report. -/
structure Rule where
  code : Nat
  name : String
  /-- The message; `{0}` in it is the place of the argument. -/
  template : String
  category : Category
  /-- Is the rule a leaf that nothing specialises further? -/
  isFinal : Bool
deriving DecidableEq, Repr, Inhabited

namespace Rule

/-- A rule that is final. -/
def of (category : Category) (code : Nat) (name template : String) : Rule :=
  { code, name, template, category, isFinal := true }

/-- The place of the argument in a template. -/
def argumentPlace : List Char :=
  ['{', '0', '}']

/-- The message with its argument in place. Without one the place disappears, and so
does a colon before it. -/
def render (rule : Rule) (argument : Option String) : String :=
  let template := rule.template.toList
  String.ofList <|
    match argument with
    | some a => Text.replaceAll argumentPlace a.toList template
    | none =>
      Text.replaceAll argumentPlace [] (Text.replaceAll ([':', ' '] ++ argumentPlace) [] template)

end Rule

/-- A rule broken at a position. -/
structure Violation where
  code : Nat
  message : String
  category : Category
  isFinal : Bool
  position : Position
deriving DecidableEq, Repr, Inhabited

namespace Violation

/-- The violation of a rule at a position. -/
def of (rule : Rule) (position : Position) (argument : Option String) : Violation :=
  { code := rule.code
    message := rule.render argument
    category := rule.category
    isFinal := rule.isFinal
    position }

end Violation

end PyStyle
