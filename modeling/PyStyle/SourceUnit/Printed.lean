import PyStyle.Report
import PyStyle.SourceUnit

/-!
# Units as written JSON

How a unit is handed to another program: each record with its members in the order of their
declaration. A node leaves out a name or a list of children that it does not have.

- `Node.printed`, `Token.printed` — the records of nodes and tokens;
- `SourceUnit.printed` — the record of a unit.
-/

namespace PyStyle

/-- A member that is left out if there is no text. -/
def optionalText (key : String) (text : Option String) : List (String × Printed) :=
  match text with
  | some t => [(key, .text t)]
  | none => []

mutual

/-- The node as JSON. -/
def Node.printed : Node → Printed
  | ⟨kind, name, position, children⟩ =>
    .record
      ([("kind", .text kind.label)]
        ++ optionalText "name" name
        ++ [("position", .record position.printed)]
        ++ optionalList "children" (Node.printedAll children))

/-- The nodes of a list as JSON. -/
def Node.printedAll : List Node → List Printed
  | [] => []
  | node :: rest => node.printed :: Node.printedAll rest

end

/-- The token as JSON. -/
def Token.printed (token : Token) : Printed :=
  .record
    [("kind", .text token.kind.label),
     ("text", .text token.text),
     ("position", .record token.position.printed)]

/-- The unit as JSON. -/
def SourceUnit.printed (unit : SourceUnit) : Printed :=
  .record
    [("path", .text unit.path),
     ("tree", unit.tree.printed),
     ("tokens", .list (unit.tokens.map (·.printed)))]

end PyStyle
