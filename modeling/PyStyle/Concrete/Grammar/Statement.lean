import PyStyle.Concrete.Grammar.Pattern

/-!
# Statements

A simple statement ends where its line ends or at a semicolon. A compound statement
has clauses, each with a suite: simple statements on the same line, an indented block,
or nothing at all. A block ends at the first line that goes back behind it, however
far back that is.

- `simpleStatement`, `simpleStatements` — statements of one line;
- `suite`, `statements` — blocks;
- `compoundStatement` — statements with suites;
- `module` — a whole source text.
-/

namespace PyStyle.Concrete.Grammar

open Parse

/-! ### Ends of lines and statements -/

/-- Does the line end before the next terminal? -/
def atLineEnd : Parse Bool := do
  return match ← peek with
    | some t => t.gap.lineBreak
    | none => true

/-- The line must end here. -/
def endLine : Parse Unit := do
  if ← atLineEnd then return else fail

/-- A simple statement must end here. -/
def endSimple : Parse Unit := do
  if (← atLineEnd) || (← nextIs (isOp ";")) then return else fail

/-- Pass over the line break before a statement. -/
def settle : Parse Unit :=
  modify fun c =>
    match c.ahead with
    | t :: rest => { c with ahead := t.settled :: rest }
    | [] => c

/-! ### Imports -/

/-- An imported name, perhaps under another one. -/
def importItem : Parse Concrete := do
  let name ← dottedName
  if ← word? "as" then
    let other ← strictly identifier
    buildAt .aliasedImport name.start [name, other]
  else return name

/-- Imported names with commas between them. -/
def importList : Parse (List Concrete) := do
  return (← separated importItem (nextIs (·.kind == .word))).1

/-- Imported names, perhaps in brackets. -/
def importNames : Parse (List Concrete) := do
  if ← strictly (op? "(") then
    bracketed do
      demand
      let names ← importList
      op ")"
      return names
  else importList

/-- `import a, b`. -/
def importStatement : Parse Concrete :=
  build .importStatement do
    strictly (word "import")
    importList

/-- The points of a relative import. -/
def importDots : Parse Concrete :=
  build .importDots do
    let _ ← strictly (takeThe fun t => isOp "." t || isOp "..." t)
    let _ ← many do
      return (← strictly (takeIf fun t => isOp "." t || isOp "..." t)).map fun _ => ()
    return []

/-- `from a import b`. -/
def importFromStatement : Parse Concrete := do
  if ← secondIs (isWord "__future__") then
    build .futureImportStatement do
      strictly (word "from")
      strictly (word "__future__")
      strictly (word "import")
      importNames
  else
    build .importFromStatement do
      strictly (word "from")
      let source ←
        if ← startIs fun t => isOp "." t || isOp "..." t then
          build .relativeImport do
            let dots ← importDots
            if ← startIs fun t => t.kind == .word && t.text != "import" then
              return [dots, ← strictly dottedName]
            else return [dots]
        else strictly dottedName
      strictly (word "import")
      if ← startIs (isOp "*") then
        let star ← build .wildcardImport do
          strictly (op "*")
          return []
        return [source, star]
      else return source :: (← importNames)

/-! ### Other simple statements -/

/-- The operators that assign and compute at once. -/
def isAugmented (t : Terminal) : Bool :=
  t.kind == .op &&
    ["+=", "-=", "*=", "/=", "@=", "//=", "%=", "**=", ">>=", "<<=", "&=", "^=", "|="].contains
      t.text

/-- An assignment, a declaration of a type, or both at once. -/
def assignment (solve : Solver) : Parse Concrete := do
  let left ← solve .targets
  if ← op? "=" then
    buildFrom .assignment (left.as .left) do
      return [(← solve .rightHandSide).as .right]
  else if ← op? ":" then
    buildFrom .assignment (left.as .left) do
      let type ← solve (.type false)
      if ← op? "=" then return [type.as .type, (← solve .rightHandSide).as .right]
      else return [type.as .type]
  else if (← takeIf isAugmented).isSome then
    buildFrom .augmentedAssignment (left.as .left) do
      return [(← solve .rightHandSide).as .right]
  else fail

/-- What stands behind an assignment operator. -/
def rightHandSide (solve : Solver) : Parse Concrete := do
  if ← startIs (isWord "yield") then yieldExpression solve
  else orElse (assignment solve) (expressionOrList solve)

/-- Expressions with commas between them, and perhaps one behind the last. -/
def expressions (solve : Solver) : Parse (List Concrete) := do
  return (← separated (anyExpression solve) (nextIs startsExpression)).1

/-- An expression, expressions, or an assignment. -/
def expressionStatement (solve : Solver) : Parse Concrete :=
  build .expressionStatement do
    if ← startIs (isWord "yield") then return [← yieldExpression solve]
    else orElse (do return [← assignment solve]) (expressions solve)

/-- `print` with what it prints, in the form without brackets. -/
def printStatement (solve : Solver) : Parse Concrete :=
  build .printStatement do
    strictly (word "print")
    if ← nextIs (isOp ">>") then
      let stream ← build .chevron do
        op ">>"
        return [← anyExpression solve]
      return stream :: (← moreItems (anyExpression solve) (nextIs startsExpression)).1
    else if ← nextIs startsExpression then expressions solve
    else fail

/-- `exec` with what it executes, in the form without brackets. -/
def execStatement (solve : Solver) : Parse Concrete :=
  build .execStatement do
    strictly (word "exec")
    let code ← if ← nextIs (·.kind == .stringStart) then stringLiteral solve else identifier
    if ← word? "in" then
      let (scopes, _) ← separated (anyExpression solve) (pure true)
      return code :: scopes
    else return [code]

/-- `type` and a definition of a type. -/
def typeAliasStatement (solve : Solver) : Parse Concrete :=
  build .typeAliasStatement do
    strictly (word "type")
    let left ← solve (.type false)
    op "="
    let right ← solve (.type false)
    return [left.as .left, right.as .right]

/-- A statement that is a keyword alone. -/
def keywordStatement (kind : Kind) : Parse Concrete :=
  build kind do
    let _ ← takeThe fun _ => true
    return []

/-- A keyword and names behind it. -/
def scopeStatement (kind : Kind) : Parse Concrete :=
  build kind do
    let _ ← takeThe fun _ => true
    return (← separated (strictly identifier) (pure true)).1

/-- `raise`, perhaps with an exception and a cause. -/
def raiseStatement (solve : Solver) : Parse Concrete :=
  build .raiseStatement do
    strictly (word "raise")
    let raised ←
      if ← nextIs fun t => startsExpression t && !isWord "from" t then
        pure [← expressionOrList solve]
      else pure []
    if ← word? "from" then return raised ++ [← anyExpression solve] else return raised

/-- One statement without a suite. -/
def simpleStatement (solve : Solver) : Parse Concrete := do
  let complete (p : Parse Concrete) : Parse Concrete := do
    let c ← p
    endSimple
    return c
  match ← strictly look with
  | none => fail
  | some t =>
    if t.kind != .word then expressionStatement solve
    else if t.text == "import" then importStatement
    else if t.text == "from" then importFromStatement
    else if t.text == "assert" then
      build .assertStatement do
        word "assert"
        return (← separated (anyExpression solve) (pure true)).1
    else if t.text == "return" then
      build .returnStatement do
        word "return"
        if ← nextIs startsExpression then return [← expressionOrList solve] else return []
    else if t.text == "del" then
      build .deleteStatement do
        word "del"
        return [← expressionOrList solve]
    else if t.text == "raise" then raiseStatement solve
    else if t.text == "pass" then keywordStatement .passStatement
    else if t.text == "break" then keywordStatement .breakStatement
    else if t.text == "continue" then keywordStatement .continueStatement
    else if t.text == "global" then scopeStatement .globalStatement
    else if t.text == "nonlocal" then scopeStatement .nonlocalStatement
    else if t.text == "print" then
      if ← secondOnLineIs (isOp ">>") then printStatement solve
      else orElse (complete (expressionStatement solve)) (printStatement solve)
    else if t.text == "exec" then
      if ← secondOnLineIs fun t =>
          t.kind == .stringStart || (t.kind == .word && !joinsExpression t) then
        execStatement solve
      else expressionStatement solve
    else if t.text == "type" then
      if ← secondOnLineIs fun t => startsExpression t || isOp "**" t then
        orElse (complete (typeAliasStatement solve)) (expressionStatement solve)
      else expressionStatement solve
    else expressionStatement solve

/-- The simple statements of one line, as a block. -/
def simpleStatements (solve : Solver) : Parse Concrete :=
  onLine do
    let block ← build .block do
      let first ← simpleStatement solve
      let rest ← many do
        if ← op? ";" then
          if ← atLineEnd then return some [] else return some [← simpleStatement solve]
        else return none
      return first :: rest.flatten
    endLine
    return block

/-! ### Blocks -/

/-- Does the open block, if any, end before the next terminal? -/
def atBlockEnd : Parse Bool := fun layout c =>
  .ok (match c.ahead with
    | t :: _ => t.kind == .endOfText || (t.gap.lineBreak && t.gap.indent < layout.indent)
    | [] => true, c)

/-- Does a compound statement come next? -/
def atCompound : Parse Bool := do
  match ← peek with
  | some t =>
    if t.kind == .word then
      if ["if", "for", "while", "try", "with", "def", "class"].contains t.text then return true
      else if t.text == "async" then
        secondIs fun t => isWord "def" t || isWord "for" t || isWord "with" t
      else return false
    else return isOp "@" t
  | none => return false

/-- The statements of one line, or one compound statement. -/
def statement (solve : Solver) : Parse (List Concrete) := do
  settle
  if ← atCompound then return [← solve .statement]
  else if (← strictly (nextIs (isWord "match"))) &&
      (← secondOnLineIs fun t => startsExpression t && !joinsExpression t) then
    orElse (do return [← solve .statement]) (do return (← solve .simpleStatements).children)
  else return (← solve .simpleStatements).children

/-- The statements up to the end of the open block. -/
def statements (solve : Solver) : Parse (List Concrete) := do
  let groups ← many do
    if ← atBlockEnd then return none else return some (← statement solve)
  return groups.flatten

/-- An indented block of what `p` reads, at the indentation of the next line. -/
def indented (p : Parse (List Concrete)) : Parse (List Concrete) := fun _ c =>
  match c.ahead with
  | t :: _ => p { indent := t.gap.indent, closable := false, lineEnd := false } c
  | [] => .error c.behind

/-- Does an indented block come next? -/
def atIndent : Parse Bool := fun layout c =>
  .ok (match c.ahead with
    | t :: _ => t.gap.lineBreak && layout.indent < t.gap.indent
    | [] => false, c)

/-- An empty block, where the line ends. -/
def emptyBlock : Parse Concrete := do
  match ← peek with
  | some t => return node .block t.gap.anchor t.gap.anchor []
  | none => fail

/-- What stands behind the colon of a clause. -/
def suite (solve : Solver) : Parse Concrete := do
  if ← atIndent then build .block (indented (statements solve))
  else if ← atLineEnd then emptyBlock
  else solve .simpleStatements

/-! ### Compound statements -/

/-- A colon and a suite. -/
def colonSuite (solve : Solver) (field : Field) : Parse Concrete := do
  strictly (op ":")
  return (← solve .suite).as field

/-- An `else` clause, if one comes next. -/
def elseClause? (solve : Solver) : Parse (List Concrete) := do
  if ← startIs (isWord "else") then
    let clause ← build .elseClause do
      strictly (word "else")
      return [← colonSuite solve .body]
    return [clause]
  else return []

/-- An `else` clause as the alternative of an `if` or a loop. -/
def alternative? (solve : Solver) : Parse (List Concrete) := do
  return (← elseClause? solve).map (·.as .alternative)

/-- The leading `async` of a statement, if it has one. -/
def asyncMark : Parse (List Concrete) := do
  match ← strictly (takeIf (isWord "async")) with
  | some t => return [textLeaf .token t]
  | none => return []

/-- `if` with its `elif` and `else` clauses. -/
def ifStatement (solve : Solver) : Parse Concrete :=
  build .ifStatement do
    strictly (word "if")
    let condition ← strictly (anyExpression solve)
    let consequence ← colonSuite solve .consequence
    let elifs ← many do
      if ← startIs (isWord "elif") then
        let clause ← build .elifClause do
          strictly (word "elif")
          let condition ← strictly (anyExpression solve)
          return [condition.as .condition, ← colonSuite solve .consequence]
        return some (clause.as .alternative)
      else return none
    return condition.as .condition :: consequence :: elifs ++ (← alternative? solve)

/-- `for` with its `else` clause. -/
def forStatement (solve : Solver) : Parse Concrete :=
  build .forStatement do
    let mark ← asyncMark
    strictly (word "for")
    let left ← strictly (solve .targets)
    strictly (word "in")
    let right ← strictly (expressionOrList solve)
    let body ← colonSuite solve .body
    return mark ++ left.as .left :: right.as .right :: body :: (← alternative? solve)

/-- `while` with its `else` clause. -/
def whileStatement (solve : Solver) : Parse Concrete :=
  build .whileStatement do
    strictly (word "while")
    let condition ← strictly (anyExpression solve)
    let body ← colonSuite solve .body
    return condition.as .condition :: body :: (← alternative? solve)

/-- A clause for one kind of exception. -/
def exceptClause (solve : Solver) : Parse Concrete :=
  build .exceptClause do
    strictly (word "except")
    let caught ←
      if ← startIs (isOp ":") then pure []
      else
        let value ← strictly (anyExpression solve)
        if (← strictly (word? "as")) || (← strictly (op? ",")) then
          pure [value.as .value, ← strictly (anyExpression solve)]
        else pure [value.as .value]
    strictly (op ":")
    return caught ++ [← solve .suite]

/-- A clause for a group of exceptions. -/
def exceptGroupClause (solve : Solver) : Parse Concrete :=
  build .exceptGroupClause do
    strictly (op "except*")
    let value ← strictly (anyExpression solve)
    strictly (op ":")
    return [value, ← solve .suite]

/-- A `finally` clause, if one comes next. -/
def finallyClause? (solve : Solver) : Parse (List Concrete) := do
  if ← startIs (isWord "finally") then
    return [← build .finallyClause do
      strictly (word "finally")
      strictly (op ":")
      return [← solve .suite]]
  else return []

/-- `try` with its handlers. -/
def tryStatement (solve : Solver) : Parse Concrete :=
  build .tryStatement do
    strictly (word "try")
    let body ← colonSuite solve .body
    let handlers ←
      if ← startIs (isWord "except") then
        many do
          if ← startIs (isWord "except") then return some (← exceptClause solve)
          else return none
      else
        many do
          if ← startIs (isOp "except*") then return some (← exceptGroupClause solve)
          else return none
    let otherwise ← if handlers.isEmpty then pure [] else elseClause? solve
    let final ← finallyClause? solve
    if handlers.isEmpty && final.isEmpty then fail
    else return body :: handlers ++ otherwise ++ final

/-- One context manager. -/
def withItem (solve : Solver) : Parse Concrete :=
  build .withItem do
    return [(← anyExpression solve).as .value]

/-- The context managers of a `with`, perhaps in brackets. A single one in brackets is
an expression in brackets. -/
def withClause (solve : Solver) : Parse Concrete := do
  let inBrackets : Parse Concrete :=
    build .withClause do
      strictly (op "(")
      let items ← bracketed do
        let (items, _) ← separated (withItem solve) (nextIs startsExpression)
        op ")"
        return items
      if items.length < 2 || !(← startIs (isOp ":")) then fail else return items
  let plain : Parse Concrete :=
    build .withClause do
      return (← strictly (separated (withItem solve) (nextIs startsExpression))).1
  if ← startIs (isOp "(") then orElse inBrackets plain else plain

/-- `with` and its context managers. -/
def withStatement (solve : Solver) : Parse Concrete :=
  build .withStatement do
    let mark ← asyncMark
    strictly (word "with")
    let clause ← withClause solve
    return mark ++ [clause, ← colonSuite solve .body]

/-- Type parameters in square brackets, if there are any. -/
def typeParameters? (solve : Solver) : Parse (List Concrete) := do
  if ← startIs (isOp "[") then return [← strictly (typeParameter solve)] else return []

/-- The definition of a function. -/
def functionDefinition (solve : Solver) : Parse Concrete :=
  build .functionDefinition do
    let mark ← asyncMark
    strictly (word "def")
    let name ← strictly identifier
    let types ← typeParameters? solve
    let params ← parameters solve
    let returns ←
      if ← strictly (op? "->") then pure [(← strictly (solve (.type false))).as .returnType]
      else pure []
    let body ← colonSuite solve .body
    return mark ++ name.as .name :: types ++ params.as .parameters :: returns ++ [body]

/-- The definition of a class. -/
def classDefinition (solve : Solver) : Parse Concrete :=
  build .classDefinition do
    strictly (word "class")
    let name ← strictly identifier
    let types ← typeParameters? solve
    let bases ←
      if ← startIs (isOp "(") then
        let args ← strictly (arguments solve)
        if args.kind == .argumentList then pure [args.as .superclasses] else fail
      else pure []
    let body ← colonSuite solve .body
    return name.as .name :: types ++ bases ++ [body]

/-- A decorator on a line of its own. -/
def decorator (solve : Solver) : Parse Concrete :=
  build .decorator do
    strictly (op "@")
    let e ← onLine (anyExpression solve)
    endLine
    return [e]

/-- A definition with its decorators. -/
def decoratedDefinition (solve : Solver) : Parse Concrete :=
  build .decoratedDefinition do
    let decorators ← many do
      if ← startIs (isOp "@") then return some (← decorator solve) else return none
    let definition ←
      if ← startIs (isWord "class") then classDefinition solve else functionDefinition solve
    return decorators ++ [definition.as .definition]

/-- One `case` of a `match`. -/
def caseClause (solve : Solver) : Parse Concrete :=
  build .caseClause do
    strictly (word "case")
    let (patterns, _) ← strictly (separated (solve .casePattern) (nextIs startsCase))
    let guard ←
      if ← startIs (isWord "if") then pure [← strictly (ifClause solve)] else pure []
    return patterns ++ guard ++ [← colonSuite solve .consequence]

/-- `match` with its cases. The block of cases starts where the line of the `match`
ends. -/
def matchStatement (solve : Solver) : Parse Concrete :=
  build .matchStatement do
    strictly (word "match")
    let (subjects, _) ← strictly (separated (anyExpression solve) (nextIs startsExpression))
    strictly (op ":")
    if ← atIndent then
      let anchor := (← emptyBlock).start
      let cases ← indented do
        many do
          if ← atBlockEnd then return none
          else
            settle
            return some (← caseClause solve)
      return subjects ++ [← buildAt .block anchor cases]
    else
      endLine
      return subjects ++ [← emptyBlock]

/-- One statement with suites. -/
def compoundStatement (solve : Solver) : Parse Concrete := do
  match ← strictly look with
  | none => fail
  | some t =>
    let text ←
      if t.kind == .word && t.text == "async" then
        pure (((← get).ahead.tail.head?.map (·.text)).getD "")
      else pure t.text
    if text == "if" then ifStatement solve
    else if text == "for" then forStatement solve
    else if text == "while" then whileStatement solve
    else if text == "try" then tryStatement solve
    else if text == "with" then withStatement solve
    else if text == "def" then functionDefinition solve
    else if text == "class" then classDefinition solve
    else if text == "@" then decoratedDefinition solve
    else if text == "match" then matchStatement solve
    else fail

/-- A whole source text. -/
def module (solve : Solver) : Parse Concrete := do
  let all ← statements solve
  if ← strictly (nextIs (·.kind == .endOfText)) then buildAt .module ⟨1, 0⟩ all else fail

end PyStyle.Concrete.Grammar
