import PyStyle.Node.OfConcrete
import PyStyle.Token.Scanner

/-!
# Source units

A unit is what one file is to the checks: its path, its syntax tree and its tokens.

- `SourceUnit` — the three together;
- `SourceError` — why a source text is no unit;
- `SourceUnit.ofSource` — the unit of a source text.
-/

namespace PyStyle

/-- The two views of one source file. -/
structure SourceUnit where
  path : String
  tree : Node
  tokens : List Token
deriving Repr, Inhabited

/-- Why a source text is no unit. -/
inductive SourceError where
  /-- The text does not follow the grammar. -/
  | invalidSyntax (position : Position)
  /-- The text cannot be split into tokens. -/
  | lexical (error : LexError)
deriving DecidableEq, Repr

namespace SourceError

/-- Where the error is. -/
def position : SourceError → Position
  | invalidSyntax p => p
  | lexical e => e.position

/-- The error in words. -/
def message : SourceError → String
  | invalidSyntax p => p.display ++ ": invalid syntax"
  | lexical e => e.message

end SourceError

/-- The unit of a source text. The tree is read first, so its errors win over those of
the tokens. -/
def SourceUnit.ofSource (path source : String) : Except SourceError SourceUnit :=
  match Node.ofSource source with
  | .error p => .error (.invalidSyntax p)
  | .ok tree =>
    match tokenize source with
    | .error e => .error (.lexical e)
    | .ok tokens => .ok { path, tree, tokens }

end PyStyle
