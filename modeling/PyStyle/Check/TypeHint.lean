import PyStyle.Check
import PyStyle.Rule.Standard

/-!
# The check of multi-line annotations

- `Check.multilineTypeHint` — annotations of arguments and return values must stand on
  one line.
-/

namespace PyStyle.Check

/-- Does a descendant of the node start on another line? -/
def spansLines (node : Node) : Bool :=
  node.walk.any (·.position.line != node.position.line)

/-- Where a multi-line annotation is reported: that of a return value at its function. -/
def typeHintPosition (v : NodeVisit) : Position :=
  match v.node.kind, v.parent? with
  | .returnType, some parent => if parent.kind.isFunction then parent.position else v.node.position
  | _, _ => v.node.position

/-- Reports annotations that span several lines. -/
def multilineTypeHint : NodeCheck where
  name := "multiline_function_annotation"
  kinds := [.argument, .returnType]
  visit v :=
    if spansLines v.node then
      .require Rule.multilineTypeHint none (typeHintPosition v) .done
    else .done

end PyStyle.Check
