import PyStyle.Check
import PyStyle.Complexity
import PyStyle.Rule.Standard

/-!
# Checks of cognitive complexity

- `Check.cognitiveComplexity` — every function against a limit;
- `Check.moduleComplexity` — the functions of a module on average against a limit;
- `Tenths` — averages, rounded to one decimal.
-/

namespace PyStyle.Check

/-- Is a function with these nodes above it a method? -/
def isMethod (parent grandparent : Option Node) : Bool :=
  parent.map (·.kind) == some .block && grandparent.map (·.kind) == some .classDef

/-- The score of a visited function. -/
def visitScore (v : NodeVisit) : Nat :=
  cognitiveScore v.node (isMethod v.parent? v.grandparent?)

/-- Reports functions that score above `limit`. -/
def cognitiveComplexity (limit : Nat) : NodeCheck where
  name := "cognitive_complexity"
  kinds := [.functionDef, .asyncFunctionDef]
  visit v :=
    let score := visitScore v
    if limit < score then
      .require Rule.cognitiveComplexity (some (toString score)) v.node.position .done
    else .done

/-! ### Averages -/

/-- A number of tenths. -/
structure Tenths where
  count : Nat
deriving DecidableEq, Repr

namespace Tenths

/-- `total / parts` to the nearest tenth; a half goes up. -/
def average (total parts : Nat) : Tenths :=
  ⟨(20 * total + parts) / (2 * parts)⟩

/-- The number in decimal notation, without a fraction if it is whole. -/
def display (t : Tenths) : String :=
  if t.count % 10 = 0 then toString (t.count / 10)
  else toString (t.count / 10) ++ "." ++ toString (t.count % 10)

end Tenths

mutual

/-- The scores of all functions in a subtree, in the order of the text. -/
def functionScores (parent grandparent : Option Node) : Node → List Nat
  | node@⟨kind, _, _, children⟩ =>
    (if kind.isFunction then [cognitiveScore node (isMethod parent grandparent)] else [])
      ++ functionScoresAll (some node) parent children

/-- The scores of all functions in subtrees side by side. -/
def functionScoresAll (parent grandparent : Option Node) : List Node → List Nat
  | [] => []
  | node :: rest =>
    functionScores parent grandparent node ++ functionScoresAll parent grandparent rest

end

/-- Reports modules whose functions score above `limit` on average. -/
def moduleComplexity (limit : Nat) : NodeCheck where
  name := "cognitive_module_complexity"
  kinds := [.module]
  visit v :=
    let scores := functionScores none none v.node
    if scores.isEmpty then .done
    else
      let average := Tenths.average (scores.foldr (· + ·) 0) scores.length
      if 10 * limit < average.count then
        .require Rule.cognitiveModuleComplexity (some average.display) v.node.position .done
      else .done

end PyStyle.Check
