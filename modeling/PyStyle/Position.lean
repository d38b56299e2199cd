/-!
# Positions in a source text

Lines count from one, columns from zero.

- `Position` — a line and a column;
- `Position.display` — the two joined by a colon;
- `Position.before` — reading order.
-/

namespace PyStyle

/-- A place in a source text: the line from one, the column from zero. -/
structure Position where
  line : Nat
  column : Nat
deriving DecidableEq, Repr, Inhabited

namespace Position

/-- The line and the column joined by a colon. -/
def display (p : Position) : String :=
  toString p.line ++ ":" ++ toString p.column

/-- Does `p` come strictly before `q` in reading order? -/
def before (p q : Position) : Bool :=
  p.line < q.line || (p.line == q.line && p.column < q.column)

end Position

end PyStyle
