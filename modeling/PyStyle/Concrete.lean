import PyStyle.Position

/-!
# Concrete syntax trees

The tree a Python source text has by the grammar of the language, with every
parenthesis, clause and literal a node of its own. The syntax tree of the checks
is read off it.

A node is named by its grammar rule. Keywords and operators are no rules; they are
kept as `token` nodes only where their text matters (`async`, the operator of a
boolean operation).

- `Concrete.Kind` — the grammar rules;
- `Concrete.Field` — the role a child plays in its parent;
- `Concrete` — a node with its extent and its children in order;
- `Concrete.field?` — the first child in a role;
- `Concrete.namedChildren` — the children that are grammar rules.
-/

namespace PyStyle

/-- The grammar rule a concrete node was built by. -/
inductive Concrete.Kind where
  /-- A keyword or an operator, which is no rule. -/
  | token
  | comment
  | lineContinuation
  | module
  | block
  -- simple statements
  | importStatement
  | importFromStatement
  | futureImportStatement
  | relativeImport
  | importDots
  | wildcardImport
  | aliasedImport
  | dottedName
  | printStatement
  | chevron
  | assertStatement
  | expressionStatement
  | returnStatement
  | deleteStatement
  | raiseStatement
  | passStatement
  | breakStatement
  | continueStatement
  | globalStatement
  | nonlocalStatement
  | execStatement
  | typeAliasStatement
  -- compound statements
  | ifStatement
  | elifClause
  | elseClause
  | forStatement
  | whileStatement
  | tryStatement
  | exceptClause
  | exceptGroupClause
  | finallyClause
  | withStatement
  | withClause
  | withItem
  | matchStatement
  | caseClause
  | functionDefinition
  | classDefinition
  | decoratedDefinition
  | decorator
  -- parameters and arguments
  | parameters
  | lambdaParameters
  | typedParameter
  | defaultParameter
  | typedDefaultParameter
  | keywordSeparator
  | positionalSeparator
  | argumentList
  | keywordArgument
  -- types
  | type
  | splatType
  | genericType
  | unionType
  | constrainedType
  | memberType
  | typeParameter
  -- patterns
  | listSplatPattern
  | dictionarySplatPattern
  | tuplePattern
  | listPattern
  | patternList
  | asPattern
  | asPatternTarget
  | casePattern
  | unionPattern
  | dictPattern
  | keywordPattern
  | splatPattern
  | classPattern
  | complexPattern
  -- expressions
  | identifier
  | integer
  | float
  | trueLiteral
  | falseLiteral
  | noneLiteral
  | ellipsis
  | string
  | stringStart
  | stringContent
  | stringEnd
  | escapeSequence
  | escapeInterpolation
  | interpolation
  | typeConversion
  | formatSpecifier
  | formatExpression
  | concatenatedString
  | list
  | set
  | tuple
  | dictionary
  | pair
  | listSplat
  | dictionarySplat
  | parenthesizedListSplat
  | parenthesizedExpression
  | listComprehension
  | setComprehension
  | dictionaryComprehension
  | generatorExpression
  | forInClause
  | ifClause
  | attribute
  | subscript
  | slice
  | call
  | await
  | unaryOperator
  | binaryOperator
  | comparisonOperator
  | notOperator
  | booleanOperator
  | conditionalExpression
  | lambda
  | namedExpression
  | expressionList
  | assignment
  | augmentedAssignment
  | yield
deriving DecidableEq, Repr, Inhabited

namespace Concrete.Kind

/-- Is a node of this kind a grammar rule, and not a keyword or an operator? -/
def isNamed (kind : Kind) : Bool :=
  kind != .token

/-- Is the rule a pattern, one of the forms a parameter name can hide in? -/
def isPattern : Kind → Bool
  | .listSplatPattern | .dictionarySplatPattern | .tuplePattern | .listPattern | .asPattern
  | .casePattern | .unionPattern | .dictPattern | .keywordPattern | .splatPattern | .classPattern
  | .complexPattern => true
  | _ => false

end Concrete.Kind

/-- The role of a child in its parent. -/
inductive Concrete.Field where
  | alternative
  | arguments
  | attribute
  | body
  | condition
  | consequence
  | definition
  | function
  | left
  | name
  | object
  | operator
  | parameters
  | returnType
  | right
  | superclasses
  | type
  | value
deriving DecidableEq, Repr

/-- A node of the concrete syntax tree. -/
structure Concrete where
  kind : Concrete.Kind
  /-- The role in the parent, where the grammar gives one. -/
  field : Option Concrete.Field
  /-- Where the first token starts. -/
  start : Position
  /-- Where the last token ends. -/
  stop : Position
  /-- The source text of identifiers and tokens; other nodes leave it empty. -/
  text : String
  children : List Concrete
deriving Repr, Inhabited

namespace Concrete

/-- The same node in the given role. -/
def as (field : Field) (c : Concrete) : Concrete :=
  { c with field := some field }

/-- The first child in the given role. -/
def field? (field : Field) (c : Concrete) : Option Concrete :=
  c.children.find? (·.field == some field)

/-- The children that are grammar rules. -/
def namedChildren (c : Concrete) : List Concrete :=
  c.children.filter (·.kind.isNamed)

/-- The children of `c` with a childless line continuation at `p` put in its place
among them. -/
def withContinuation (p : Position) (children : List Concrete) : List Concrete :=
  let mark : Concrete :=
    { kind := .lineContinuation, field := none, start := p, stop := p, text := "", children := [] }
  children.takeWhile (·.start.before p) ++ mark :: children.dropWhile (·.start.before p)

/-- Does the node have a token before and a token behind `p`? -/
def spans (p : Position) (c : Concrete) : Bool :=
  c.start.before p && p.before c.stop

mutual

/-- Record a line continuation at `p` in the innermost node that has a token before
and a token behind it. -/
def insertContinuation (p : Position) : Concrete → Concrete
  | ⟨kind, field, start, stop, text, children⟩ =>
    match insertContinuationInto p children with
    | some inner => ⟨kind, field, start, stop, text, inner⟩
    | none => ⟨kind, field, start, stop, text, withContinuation p children⟩

/-- The children with the continuation recorded in the one that spans it, if one does. -/
def insertContinuationInto (p : Position) : List Concrete → Option (List Concrete)
  | [] => none
  | c :: rest =>
    if c.spans p then some (insertContinuation p c :: rest)
    else (insertContinuationInto p rest).map (c :: ·)

end

end Concrete

end PyStyle
