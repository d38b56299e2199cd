import PyStyle.Concrete
import PyStyle.Concrete.Terminal

/-!
# Parsing terminals

A parser reads terminals from the front, under a layout that says which line breaks
it passes over: one ends the line where a line may end, one that goes back behind
the open block is never passed over outside brackets, and any other is a blank.

Rules of the grammar refer to each other through goals. A rule gets the parser for
goals as an argument, so no rule is recursive by itself; `Rule.solve` ties the knot
with a bound on the nesting.

- `Layout`, `Cursor`, `Parse` — the state of a parser;
- `look`, `take` — the next terminal, if the layout lets it through;
- `orElse`, `many`, `separated` — the usual combinators, all total;
- `build`, `buildFrom` — nodes with their extent;
- `Goal`, `Rule` — what the rules of the grammar are about.
-/

namespace PyStyle.Concrete

/-- Which line breaks a parser passes over. -/
structure Layout where
  /-- The indentation of the open block. -/
  indent : Nat
  /-- May a closing bracket come next? -/
  closable : Bool
  /-- May the line end here? -/
  lineEnd : Bool
deriving DecidableEq, Repr

/-- The terminals ahead and the end of the last one taken. -/
structure Cursor where
  ahead : List Terminal
  behind : Position

/-- A parser: it fails at a position, or gives a value and moves on. -/
abbrev Parse (α : Type) := ReaderT Layout (StateT Cursor (Except Position)) α

namespace Layout

/-- Does the layout stop at a gap? -/
def stopsAt (layout : Layout) (t : Terminal) : Bool :=
  t.gap.lineBreak &&
    (layout.lineEnd
      || (!layout.closable && t.gap.indent < layout.indent
        && !(t.kind == .stringStart && !(t.text.front.isAlpha))))

end Layout

namespace Parse

variable {α β : Type}

/-- Where the next terminal starts. -/
def here : Parse Position := fun _ c =>
  .ok ((c.ahead.head?.map (·.start)).getD c.behind, c)

/-- Fail at the next terminal. -/
def fail : Parse α := fun _ c =>
  .error ((c.ahead.head?.map (·.start)).getD c.behind)

/-- The later of two positions. -/
def later (p q : Position) : Position :=
  if p.before q then q else p

/-- Try `p`, and `q` from the same place if `p` fails. When both fail, the failure
that got further counts. -/
def orElse (p q : Parse α) : Parse α := fun layout c =>
  match p layout c with
  | .ok result => .ok result
  | .error e =>
    match q layout c with
    | .ok result => .ok result
    | .error e' => .error (later e e')

/-- Run `p` under a changed layout. -/
def under (change : Layout → Layout) (p : Parse α) : Parse α := fun layout =>
  p (change layout)

/-- In the middle of a construct: neither the line nor a bracket ends here. -/
def strictly (p : Parse α) : Parse α :=
  under (fun layout => { layout with closable := false, lineEnd := false }) p

/-- Between brackets: a closing bracket may come, the line does not end. -/
def bracketed (p : Parse α) : Parse α :=
  under (fun layout => { layout with closable := true, lineEnd := false }) p

/-- In a simple statement: the line may end. -/
def onLine (p : Parse α) : Parse α :=
  under (fun layout => { layout with closable := false, lineEnd := true }) p

/-- Inside an interpolation, where indentation does not matter. -/
def interpolated (p : Parse α) : Parse α :=
  under (fun _ => { indent := 0, closable := true, lineEnd := false }) p

/-- The next terminal if the layout lets it through. From then on its gap is settled. -/
def look : Parse (Option Terminal) := fun layout c =>
  match c.ahead with
  | [] => .ok (none, c)
  | t :: rest =>
    if layout.stopsAt t then .ok (none, c)
    else .ok (some t, { c with ahead := t.settled :: rest })

/-- The next terminal as it is, whatever the layout. -/
def peek : Parse (Option Terminal) := fun _ c => .ok (c.ahead.head?, c)

/-- Take the next terminal if the layout lets it through and `p` holds of it. -/
def takeIf (p : Terminal → Bool) : Parse (Option Terminal) := do
  match ← look with
  | some t =>
    if p t then
      modify fun c => { ahead := c.ahead.tail, behind := t.stop }
      pure (some t)
    else pure none
  | none => pure none

/-- Take a terminal of which `p` holds, or fail. -/
def takeThe (p : Terminal → Bool) : Parse Terminal := do
  match ← takeIf p with
  | some t => pure t
  | none => fail

/-- Is the terminal the given word? -/
def isWord (word : String) (t : Terminal) : Bool :=
  t.kind == .word && t.text == word

/-- Is the terminal the given operator? -/
def isOp (op : String) (t : Terminal) : Bool :=
  t.kind == .op && t.text == op

/-- Does the next terminal satisfy `p`? -/
def nextIs (p : Terminal → Bool) : Parse Bool := do
  match ← look with
  | some t => pure (p t)
  | none => pure false

/-- Take the given word, or fail. -/
def word (w : String) : Parse Unit := do
  let _ ← takeThe (isWord w)

/-- Take the given operator, or fail. -/
def op (o : String) : Parse Unit := do
  let _ ← takeThe (isOp o)

/-- Take the given word if it comes next. -/
def word? (w : String) : Parse Bool := do
  pure (← takeIf (isWord w)).isSome

/-- Take the given operator if it comes next. -/
def op? (o : String) : Parse Bool := do
  pure (← takeIf (isOp o)).isSome

/-- Repeat `p` until it gives nothing, at most `fuel` times. -/
def repeatUpTo (p : Parse (Option α)) : Nat → Parse (List α)
  | 0 => pure []
  | fuel + 1 => do
    match ← p with
    | some a => return a :: (← repeatUpTo p fuel)
    | none => pure []

/-- Repeat `p` until it gives nothing. Every round takes a terminal, so there are no
more rounds than terminals. -/
def many (p : Parse (Option α)) : Parse (List α) := fun layout c =>
  repeatUpTo p (c.ahead.length + 1) layout c

/-- Fold the results of `p`, each made from the value before it, until it gives nothing. -/
def foldUpTo (p : α → Parse (Option α)) : Nat → α → Parse α
  | 0, a => pure a
  | fuel + 1, a => do
    match ← p a with
    | some b => foldUpTo p fuel b
    | none => pure a

/-- Fold the results of `p`, each made from the value before it. -/
def foldMany (p : α → Parse (Option α)) (a : α) : Parse α := fun layout c =>
  foldUpTo p (c.ahead.length + 1) a layout c

/-- Items, each behind a comma, at most `fuel` of them. -/
def moreItemsUpTo (item : Parse α) (more : Parse Bool) : Nat → Parse (List α × Bool)
  | 0 => pure ([], false)
  | fuel + 1 => do
    if ← op? "," then
      if ← more then
        let next ← item
        let (rest, trailing) ← moreItemsUpTo item more fuel
        return (next :: rest, trailing)
      else return ([], true)
    else return ([], false)

/-- Items, each behind a comma: `more` says whether an item follows a comma. A comma
without an item behind it is the last one; also tells whether there is such a comma. -/
def moreItems (item : Parse α) (more : Parse Bool) : Parse (List α × Bool) := fun layout c =>
  moreItemsUpTo item more (c.ahead.length + 1) layout c

/-- One or more items with commas between them, and perhaps one behind the last. Also
tells whether there was a comma behind the last item. -/
def separated (item : Parse α) (more : Parse Bool) : Parse (List α × Bool) := do
  let first ← item
  let (rest, trailing) ← moreItems item more
  return (first :: rest, trailing)

/-! ### Nodes -/

/-- A node with the given extent. -/
def node (kind : Kind) (start stop : Position) (children : List Concrete) : Concrete :=
  { kind, field := none, start, stop, text := "", children }

/-- A terminal as a leaf of the tree. -/
def leaf (kind : Kind) (t : Terminal) : Concrete :=
  { kind, field := none, start := t.start, stop := t.stop, text := "", children := [] }

/-- A terminal as a leaf that keeps its text. -/
def textLeaf (kind : Kind) (t : Terminal) : Concrete :=
  { leaf kind t with text := t.text }

/-- A node from here to where `p` ends, with what `p` gives as its children. -/
def build (kind : Kind) (p : Parse (List Concrete)) : Parse Concrete := do
  let start ← here
  let children ← p
  return node kind start (← get).behind children

/-- A node from the start of `first` to where `p` ends: `first` and what `p` gives are
its children. -/
def buildFrom (kind : Kind) (first : Concrete) (p : Parse (List Concrete)) : Parse Concrete := do
  let children ← p
  return node kind first.start (← get).behind (first :: children)

/-- A node from `start` to where the parser stands. -/
def buildAt (kind : Kind) (start : Position) (children : List Concrete) : Parse Concrete := do
  return node kind start (← get).behind children

/-- A word, whichever it is, as an identifier: a keyword is one only where the grammar
asks for it. -/
def identifier : Parse Concrete := do
  return textLeaf .identifier (← takeThe (·.kind == .word))

end Parse

/-! ### Goals and rules -/

/-- What a rule of the grammar may ask for. The numbers are the weakest binding
strength of an operator that still belongs to the expression. -/
inductive Goal where
  | module
  | statement
  | suite
  | simpleStatements
  | rightHandSide
  /-- An expression whose operators bind at least so strongly. -/
  | expression (strength : Int)
  /-- An expression in the last part of a comprehension's `for`. -/
  | comprehended
  /-- An operand of a comparison: arithmetic of at least the given strength. -/
  | operand (strength : Nat)
  /-- A target of an assignment or of a loop. -/
  | target
  /-- One or more targets. -/
  | targets
  /-- A type; inside brackets it may be constrained by a second one. -/
  | type (constrained : Bool)
  | casePattern
  | interpolation
deriving DecidableEq, Repr

/-- A parser for goals. -/
abbrev Solver := Goal → Parse Concrete

/-- A grammar: how each goal is parsed, given a parser for the goals inside it. -/
abbrev Rules := Solver → Solver

/-- The parser of a grammar, for at most `depth` goals inside one another. -/
def Rules.solve (rules : Rules) : Nat → Solver
  | 0, _ => Parse.fail
  | depth + 1, goal => rules (rules.solve depth) goal

end PyStyle.Concrete
