import PyStyle.Check
import PyStyle.Rule.Standard

/-!
# The check of decorators

- `Check.newStyledDecorator` — a decorator must be a dotted name, perhaps called.
-/

namespace PyStyle.Check

mutual

/-- Is the expression built from names, attributes and calls only, down to the innermost
value? -/
def isDottedCall : Node → Bool
  | ⟨kind, _, _, children⟩ =>
    match kind with
    | .name => true
    | .call | .attribute => isDottedCallHead children
    | _ => false

/-- The same of the first of some children: what is called, or whose attribute it is. -/
def isDottedCallHead : List Node → Bool
  | [] => true
  | first :: _ => isDottedCall first

end

/-- Reports decorators that are more than a dotted name, perhaps called. -/
def newStyledDecorator : NodeCheck where
  name := "new_styled_decorator"
  kinds := [.decorator]
  visit v :=
    match v.node.children with
    | [] => .done
    | expression :: _ =>
      if isDottedCall expression then .done
      else .require Rule.newStyledDecorator none expression.position .done

end PyStyle.Check
