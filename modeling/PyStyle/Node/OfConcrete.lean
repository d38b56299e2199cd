import PyStyle.Concrete.Grammar
import PyStyle.Node

/-!
# Reading syntax trees off concrete ones

The syntax tree keeps what the checks look at and brings a few constructs into the
shape of an abstract syntax tree:

- an `elif` becomes an `if` in the `else` block of the `if` before it;
- a chain of one boolean operator becomes a single node;
- parentheses and the wrapping of types disappear;
- decorators become the first children of what they decorate.

The tree is read bottom up. A `Reading` is a concrete node together with what its
subtree reads as, at every level, so that a rule can look at children and
grandchildren without reading them again.

- `Reading` — an annotated concrete node;
- `Reading.node` — the rule for each kind of concrete node;
- `Node.ofConcrete` — the syntax tree of a concrete module;
- `Node.ofSource` — the syntax tree of a source text.
-/

namespace PyStyle

/-- A concrete node with what it reads as. Comments read as nothing. -/
structure Reading where
  kind : Concrete.Kind
  field : Option Concrete.Field
  start : Position
  text : String
  /-- What the node reads as. -/
  node : Option Node
  /-- The operands of the chain of one boolean operator that the node heads. -/
  operands : List Node
  children : List Reading
deriving Inhabited

namespace Reading

/-! ### Looking at children -/

/-- The first child in the given role. -/
def field? (field : Concrete.Field) (children : List Reading) : Option Reading :=
  children.find? (·.field == some field)

/-- All children in the given role. -/
def fields (field : Concrete.Field) (children : List Reading) : List Reading :=
  children.filter (·.field == some field)

/-- The children that are grammar rules. -/
def named (children : List Reading) : List Reading :=
  children.filter (·.kind.isNamed)

/-- What the children that are grammar rules read as, in order. -/
def nodes (children : List Reading) : List Node :=
  (named children).filterMap (·.node)

/-- What the child in the given role reads as. -/
def fieldNode (field : Concrete.Field) (children : List Reading) : List Node :=
  ((field? field children).bind (·.node)).toList

/-- The text of the child in the given role. -/
def fieldText (field : Concrete.Field) (children : List Reading) : String :=
  ((field? field children).map (·.text)).getD ""

/-- The first child that is a grammar rule and no comment. -/
def firstNamed? (children : List Reading) : Option Reading :=
  (named children).find? (·.kind != .comment)

/-- A child as a block of statements; a missing one is an empty block at `fallback`. -/
def block (child : Option Reading) (fallback : Position) : Node :=
  match child with
  | some r =>
    match r.kind, r.node with
    | .block, some b => b
    | _, inner => .plain .block r.start inner.toList
  | none => .plain .block fallback []

/-- Does the statement start with `async`? -/
def startsWithAsync (children : List Reading) : Bool :=
  match children with
  | first :: _ => first.kind == .token && first.text == "async"
  | [] => false

/-! ### Parameters -/

mutual

/-- The first identifier in a parameter, looking into patterns: `args` for `*args`. -/
def parameterName : Reading → String
  | ⟨kind, _, _, text, _, _, children⟩ =>
    if kind == .identifier then text else parameterNameIn children

/-- The name in the first child that is an identifier or a pattern. -/
def parameterNameIn : List Reading → String
  | [] => ""
  | child :: rest =>
    if child.kind == .identifier || child.kind.isPattern then parameterName child
    else parameterNameIn rest

end

/-- A parameter as an argument with its annotation; separators and nested tuples are
no arguments. -/
def parameterArgument (r : Reading) : List Node :=
  match r.kind with
  | .identifier => [.named .argument r.text r.start []]
  | .listSplatPattern | .dictionarySplatPattern =>
    [.named .argument (parameterName r) r.start []]
  | .typedParameter | .defaultParameter | .typedDefaultParameter =>
    let name := parameterName ((field? .name r.children).getD r)
    [.named .argument name r.start (fieldNode .type r.children)]
  | _ => []

/-- The default value of a parameter. -/
def parameterDefault (r : Reading) : List Node :=
  match r.kind with
  | .typedParameter | .defaultParameter | .typedDefaultParameter => fieldNode .value r.children
  | _ => []

/-- All arguments, then all default values. -/
def parameterNodes (params : Option Reading) : List Node :=
  let all := (params.map fun p => named p.children).getD []
  all.flatMap parameterArgument ++ all.flatMap parameterDefault

/-! ### Statements -/

/-- An `if` and what follows it: each `elif` is an `if` inside the `else` block of the
one before. -/
def ifChain (start : Position) (condition : List Node) (consequence : Node) :
    List Reading → Node
  | [] => .plain .ifStmt start (condition ++ [consequence])
  | next :: rest =>
    let otherwise :=
      if next.kind == .elifClause then
        .plain .block next.start
          [ifChain next.start (fieldNode .condition next.children)
            (block (field? .consequence next.children) next.start) rest]
      else block (field? .body next.children) next.start
    .plain .ifStmt start (condition ++ [consequence, otherwise])

/-- The block of an `else` clause behind a loop. -/
def loopElse (children : List Reading) : List Node :=
  match field? .alternative children with
  | some clause => [block (field? .body clause.children) clause.start]
  | none => []

/-- A clause of a `try`: a handler, or the block of an `else` or a `finally`. -/
def tryClause (clause : Reading) : List Node :=
  match clause.kind with
  | .exceptClause | .exceptGroupClause =>
    [.plain .exceptHandler clause.start (nodes clause.children)]
  | .elseClause => [block (field? .body clause.children) clause.start]
  | .finallyClause =>
    [block ((named clause.children).find? (·.kind == .block)) clause.start]
  | _ => []

/-- A decorator as a node at the position of its expression. -/
def decoratorNode (expression : Reading) : Option Node :=
  expression.node.map fun e => .plain .decorator e.position [e]

/-- A definition with its decorators as its first children. -/
def decorate (children : List Reading) : Option Node := do
  let expressions := ((named children).filter (·.kind == .decorator)).filterMap fun d =>
    firstNamed? d.children
  let decorators ← expressions.mapM decoratorNode
  let definition ← (field? .definition children).bind (·.node)
  return { definition with children := decorators ++ definition.children }

/-! ### Expressions -/

/-- The operator of a boolean operation, if it is written. -/
def operator? (children : List Reading) : Option String :=
  (field? .operator children).map (·.text)

/-- The operator of a boolean operation; one without an operator counts as `and`. -/
def operator (children : List Reading) : String :=
  (operator? children).getD "and"

/-- The operands a side of a boolean operation adds to the chain of `operator`: the
operands of the side if it is a chain of the same operator, else the side itself. -/
def sideOperands (operator : String) (side : Option Reading) : List Node :=
  match side with
  | some r =>
    if r.kind == .booleanOperator && operator? r.children == some operator then r.operands
    else r.node.toList
  | none => []

/-- The operands of a boolean operation, with those of nested ones of the same
operator in their place. -/
def chainOperands (children : List Reading) : List Node :=
  sideOperands (operator children) (field? .left children) ++
    sideOperands (operator children) (field? .right children)

/-- The dotted path of a syntax-tree node made only of names and attributes. -/
def dottedPath : Reading → Option String
  | ⟨kind, _, _, text, _, _, children⟩ =>
    match kind with
    | .identifier => some text
    | .attribute => do
      let object ← objectPath children
      let name ← field? .attribute children
      return object ++ "." ++ name.text
    | _ => none
where
  /-- The path of the first child in the role of the object. -/
  objectPath : List Reading → Option String
    | [] => none
    | child :: rest =>
      if child.field == some .object then dottedPath child else objectPath rest

/-! ### The rule for each kind -/

/-- What a concrete node reads as, given its children. -/
def read (kind : Concrete.Kind) (start : Position) (text : String) (children : List Reading) :
    Option Node :=
  match kind with
  | .comment => none
  | .module => some (.plain .module start (nodes children))
  | .block => some (.plain .block start (nodes children))
  | .parenthesizedExpression | .type =>
    match firstNamed? children with
    | some inner => inner.node
    | none => some (.plain .generic start [])
  | .decoratedDefinition => decorate children
  | .functionDefinition =>
    let returns := (fieldNode .returnType children).map fun type =>
      Node.plain .returnType type.position [type]
    some (.named (if startsWithAsync children then .asyncFunctionDef else .functionDef)
      (fieldText .name children) start
      (parameterNodes (field? .parameters children) ++ returns ++
        [block (field? .body children) start]))
  | .classDefinition =>
    some (.named .classDef (fieldText .name children) start
      (fieldNode .superclasses children ++ [block (field? .body children) start]))
  | .lambda =>
    some (.plain .lambda start
      (parameterNodes (field? .parameters children) ++ fieldNode .body children))
  | .ifStatement =>
    some (ifChain start (fieldNode .condition children)
      (block (field? .consequence children) start) (fields .alternative children))
  | .forStatement =>
    some (.plain (if startsWithAsync children then .asyncForLoop else .forLoop) start
      (fieldNode .left children ++ fieldNode .right children ++
        [block (field? .body children) start] ++ loopElse children))
  | .whileStatement =>
    some (.plain .whileLoop start
      (fieldNode .condition children ++ [block (field? .body children) start] ++
        loopElse children))
  | .tryStatement =>
    some (.plain .tryStmt start
      (block (field? .body children) start :: (named children).flatMap tryClause))
  | .conditionalExpression => some (.plain .ifExpr start (nodes children))
  | .booleanOperator =>
    some (.named .boolOp (operator children) start (chainOperands children))
  | .breakStatement => some (.plain .breakStmt start [])
  | .continueStatement => some (.plain .continueStmt start [])
  | .raiseStatement => some (.plain .raiseStmt start (nodes children))
  | .returnStatement => some (.plain .returnStmt start (nodes children))
  | .call =>
    let callee := field? .function children
    let args := ((field? .arguments children).map fun a => nodes a.children).getD []
    some { kind := .call
           name := callee.bind dottedPath
           position := start
           children := (callee.bind (·.node)).toList ++ args }
  | .identifier => some (.named .name text start [])
  | .attribute =>
    some (.named .attribute (fieldText .attribute children) start (fieldNode .object children))
  | .subscript => some (.plain .subscript start (nodes children))
  | _ => some (.plain .generic start (nodes children))

mutual

/-- The reading of a concrete node: first its children are read, then the node. -/
def ofConcrete : Concrete → Reading
  | ⟨kind, field, start, _, text, children⟩ =>
    let readings := ofConcretes children
    { kind, field, start, text
      node := read kind start text readings
      operands := if kind == .booleanOperator then chainOperands readings else []
      children := readings }

/-- The readings of a list of concrete nodes. -/
def ofConcretes : List Concrete → List Reading
  | [] => []
  | c :: rest => ofConcrete c :: ofConcretes rest

end

end Reading

/-- What a concrete node reads as. -/
def Concrete.read (c : Concrete) : Option Node :=
  (Reading.ofConcrete c).node

/-- The syntax tree of a concrete module. A module starts at the top of the text. -/
def Node.ofConcrete (c : Concrete) : Node :=
  .plain .module ⟨1, 0⟩ (Reading.nodes (Reading.ofConcrete c).children)

/-- The syntax tree of a source text, or the position of a syntax error. -/
def Node.ofSource (source : String) : Except Position Node :=
  (Concrete.parse source).map Node.ofConcrete

end PyStyle
