import PyStyle.Rule
import PyStyle.Text.Quoted

/-!
# Catalogs of rules

A catalog is built from one group of rules per category and is sound by construction:
categories come in order, no group is empty, no code and no message occurs twice, codes
stay in the block of their category, start at its first code and leave no hole of a
single code.

- `CatalogError` — what can be wrong with the groups;
- `Catalog.build` — the catalog of sound groups;
- `Catalog.get?`, `lookup?`, `findByName?`, `contains` — looking rules up;
- `Catalog.rules`, `rulesOf`, `codes` — the rules in the order of their codes.
-/

namespace PyStyle

/-- What is wrong with groups of rules. -/
inductive CatalogError where
  | categoryCount (expected found : Nat)
  | categoryOrder (position : Nat) (expected found : Category)
  | emptyCategory (category : Category)
  /-- A rule is listed in the group of another category. -/
  | wrongCategory (code : Nat) (declared group : Category)
  | duplicateCode (code : Nat)
  /-- Two rules have the same message. -/
  | duplicateMessage (template : String) (first second : Nat)
  | notFinal (code : Nat)
  | outOfRange (code : Nat) (category : Category)
  | wrongStart (category : Category) (expected found : Nat)
  /-- There is room for exactly one code between two codes. -/
  | badGap (category : Category) (previous code : Nat)
deriving DecidableEq, Repr

namespace CatalogError

/-- The error in words. -/
def message : CatalogError → String
  | categoryCount expected found =>
    "expected " ++ toString expected ++ " categories, found " ++ toString found
  | categoryOrder position expected found =>
    "category group #" ++ toString position ++ " is " ++ found.label ++ ", expected "
      ++ expected.label
  | emptyCategory category => "category " ++ category.label ++ " declares no violations"
  | wrongCategory code declared group =>
    formatCode code ++ " is declared as " ++ declared.label ++ " but listed under " ++ group.label
  | duplicateCode code => "duplicate violation code " ++ formatCode code
  | duplicateMessage template first second =>
    "duplicate message template " ++ Text.quoted template ++ " (" ++ formatCode first ++ " and "
      ++ formatCode second ++ ")"
  | notFinal code => formatCode code ++ " is not final"
  | outOfRange code category =>
    formatCode code ++ " is outside the code block of " ++ category.label
  | wrongStart category expected found =>
    category.label ++ " must start at " ++ formatCode expected ++ ", starts at "
      ++ formatCode found
  | badGap category previous code =>
    category.label ++ ": gap between " ++ formatCode previous ++ " and " ++ formatCode code
      ++ " leaves a single free code"

end CatalogError

/-- A sound set of rules. -/
structure Catalog where
  /-- The rules of each category in the order of their codes. -/
  groups : List (Category × List Rule)
  /-- All rules, the one declared last first. -/
  registered : List Rule
deriving DecidableEq, Repr

namespace Catalog

/-! ### Building -/

/-- Add a rule of the given group to the rules seen so far. -/
def register (group : Category) (seen : List Rule) (rule : Rule) :
    Except CatalogError (List Rule) :=
  if rule.category ≠ group then .error (.wrongCategory rule.code rule.category group)
  else if !rule.isFinal then .error (.notFinal rule.code)
  else if seen.any (·.code == rule.code) then .error (.duplicateCode rule.code)
  else
    match seen.find? (·.template == rule.template) with
    | some first => .error (.duplicateMessage rule.template first.code rule.code)
    | none => .ok (rule :: seen)

/-- Add all rules of a group. -/
def registerAll (group : Category) (seen : List Rule) : List Rule → Except CatalogError (List Rule)
  | [] => .ok seen
  | rule :: rest =>
    match register group seen rule with
    | .ok seen => registerAll group seen rest
    | .error e => .error e

/-- The rules in the order of their codes. -/
def sorted (rules : List Rule) : List Rule :=
  rules.mergeSort (·.code ≤ ·.code)

/-- The first two neighbours that leave room for exactly one code. -/
def holeOfOne : List Rule → Option (Nat × Nat)
  | a :: b :: rest =>
    if b.code = a.code + 2 then some (a.code, b.code) else holeOfOne (b :: rest)
  | _ => none

/-- Check the codes of a group, given in order. -/
def checkNumbering (category : Category) (rules : List Rule) : Except CatalogError Unit :=
  match rules.find? fun r => r.code < category.base || category.last < r.code with
  | some r => .error (.outOfRange r.code category)
  | none =>
    match rules with
    | [] => .ok ()
    | first :: _ =>
      if first.code ≠ category.base then
        .error (.wrongStart category category.base first.code)
      else
        match holeOfOne rules with
        | some (previous, code) => .error (.badGap category previous code)
        | none => .ok ()

/-- Check and sort one group: it must be the one that is expected at its position. -/
def buildGroup (position : Nat) (expected : Category) (group : Category × List Rule)
    (seen : List Rule) : Except CatalogError (List Rule × List Rule) :=
  if group.1 ≠ expected then .error (.categoryOrder position expected group.1)
  else if group.2.isEmpty then .error (.emptyCategory group.1)
  else
    match registerAll group.1 seen group.2 with
    | .error e => .error e
    | .ok seen =>
      match checkNumbering group.1 (sorted group.2) with
      | .error e => .error e
      | .ok () => .ok (sorted group.2, seen)

/-- Build the groups from `position` on; `expected` are the categories from there on. -/
def buildFrom (position : Nat) (seen : List Rule) :
    List Category → List (Category × List Rule) → Except CatalogError Catalog
  | expected :: categories, group :: groups =>
    match buildGroup position expected group seen with
    | .error e => .error e
    | .ok (rules, seen) =>
      match buildFrom (position + 1) seen categories groups with
      | .error e => .error e
      | .ok catalog => .ok { catalog with groups := (group.1, rules) :: catalog.groups }
  | _, _ => .ok { groups := [], registered := seen }

/-- The catalog of the given groups, one per category and in the order of categories. -/
def build (groups : List (Category × List Rule)) : Except CatalogError Catalog :=
  if groups.length ≠ Category.all.length then
    .error (.categoryCount Category.all.length groups.length)
  else buildFrom 0 [] Category.all groups

/-! ### Looking up -/

/-- The categories in order. -/
def categories (catalog : Catalog) : List Category :=
  catalog.groups.map (·.1)

/-- The rules of one category in the order of their codes. -/
def rulesOf (catalog : Catalog) (category : Category) : List Rule :=
  ((catalog.groups[category.index]?).map (·.2)).getD []

/-- All rules in the order of their codes. -/
def rules (catalog : Catalog) : List Rule :=
  catalog.groups.flatMap (·.2)

/-- The number of rules. -/
def size (catalog : Catalog) : Nat :=
  catalog.registered.length

/-- The rule with the given code. -/
def get? (catalog : Catalog) (code : Nat) : Option Rule :=
  catalog.registered.find? (·.code == code)

/-- The first rule with the given name. -/
def findByName? (catalog : Catalog) (name : String) : Option Rule :=
  catalog.rules.find? (·.name == name)

/-- The rule at an offset in the block of a category. -/
def lookup? (catalog : Catalog) (category : Category) (offset : Nat) : Option Rule :=
  if 99 < offset then none else catalog.get? (category.base + offset)

/-- Is exactly this rule in the catalog? -/
def contains (catalog : Catalog) (rule : Rule) : Bool :=
  catalog.get? rule.code == some rule

/-- The codes of all rules in ascending order. -/
def codes (catalog : Catalog) : List Nat :=
  catalog.rules.map (·.code)

end Catalog

end PyStyle
