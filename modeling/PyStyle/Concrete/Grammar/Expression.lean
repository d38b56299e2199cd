import PyStyle.Concrete.Parse

/-!
# Expressions

Operators bind, from weakest to strongest: the conditional, `as`, `or`, `and`, `not`,
the comparisons, `|`, `&`, `^`, the shifts, `+ -`, `* @ / % //`, the signs and `await`,
`**`, and last calls, attributes and subscripts. All are left associative but the
conditional and `**`. A lambda and a named expression reach as far as they can; only
the conditional stays outside a named expression.

- `Strength` — the binding strengths;
- `expression`, `operand` — the two levels of expressions;
- `primary`, `atom` — what operators apply to;
- `parameters`, `lambdaParameters` — what functions and lambdas take.
-/

namespace PyStyle.Concrete.Grammar

open Parse

/-! ### Binding strengths -/

namespace Strength

/-- Everything belongs to the expression. -/
def any : Int := -1
def conditional : Int := -1
def asTarget : Int := 0
def or : Int := 10
def and : Int := 11
/-- What follows `not`: comparisons and stronger. -/
def negated : Int := 13
/-- What follows `:=` or names an alias: the boolean operators and stronger. -/
def bound : Int := 1
/-- What follows the `if` of a comprehension: everything but the conditional. -/
def filter : Int := 0

/-- The weakest operator of an operand. -/
def operand : Nat := 14
/-- What follows a sign: only the power binds more strongly. -/
def signed : Nat := 21

/-- The strength of a binary operator. -/
def binary? (op : String) : Option Nat :=
  if op == "|" then some 14
  else if op == "&" then some 15
  else if op == "^" then some 16
  else if op == "<<" || op == ">>" then some 17
  else if op == "+" || op == "-" then some 18
  else if ["*", "@", "/", "%", "//"].contains op then some 19
  else if op == "**" then some 21
  else none

/-- The weakest operator of the right operand: the power alone is right associative. -/
def right (strength : Nat) : Nat :=
  if strength = 21 then 21 else strength + 1

end Strength

/-- Can an expression start with this terminal? -/
def startsExpression (t : Terminal) : Bool :=
  match t.kind with
  | .word | .integer | .float | .stringStart => true
  | .op => ["(", "[", "\x7b", "+", "-", "~", "*", "..."].contains t.text
  | _ => false

/-- Words that go on with an expression instead of starting one. -/
def joinsExpression (t : Terminal) : Bool :=
  t.kind == .word &&
    ["if", "else", "for", "in", "and", "or", "is", "not", "as", "async"].contains t.text

/-- Does the second terminal satisfy `p`? -/
def secondIs (p : Terminal → Bool) : Parse Bool := fun _ c =>
  .ok ((c.ahead.tail.head?.map p).getD false, c)

/-- Does the second terminal stand on the same line and satisfy `p`? -/
def secondOnLineIs (p : Terminal → Bool) : Parse Bool :=
  secondIs fun t => !t.gap.lineBreak && p t

/-- Does the next terminal satisfy `p`, somewhere inside a construct? -/
def startIs (p : Terminal → Bool) : Parse Bool :=
  strictly (nextIs p)

/-- Something must follow before a bracket closes. -/
def demand : Parse Unit := do
  if (← strictly look).isNone then fail

/-- Any expression. -/
def anyExpression (solve : Solver) : Parse Concrete :=
  solve (.expression Strength.any)

/-- An expression, or a list of them when there is a comma. -/
def expressionOrList (solve : Solver) : Parse Concrete := do
  let first ← anyExpression solve
  if ← nextIs (isOp ",") then
    buildFrom .expressionList first do
      return (← moreItems (anyExpression solve) (nextIs startsExpression)).1
  else return first

/-- `yield`, perhaps with a value or a source. -/
def yieldExpression (solve : Solver) : Parse Concrete :=
  build .yield do
    strictly (word "yield")
    if ← word? "from" then return [← anyExpression solve]
    else if ← nextIs startsExpression then return [← expressionOrList solve]
    else return []

/-- `*` and an expression, in a display or a call. -/
def listSplat (solve : Solver) : Parse Concrete :=
  build .listSplat do
    strictly (op "*")
    return [← anyExpression solve]

/-- `**` and an expression. -/
def dictionarySplat (solve : Solver) : Parse Concrete :=
  build .dictionarySplat do
    strictly (op "**")
    return [← anyExpression solve]

/-! ### Comprehensions -/

/-- Does a `for` clause come next? -/
def atFor : Parse Bool := do
  if ← nextIs (isWord "for") then return true
  else if ← nextIs (isWord "async") then secondIs (isWord "for")
  else return false

/-- One `for` of a comprehension. -/
def forInClause (solve : Solver) : Parse Concrete :=
  build .forInClause do
    let _ ← word? "async"
    strictly (word "for")
    let left ← strictly (solve .targets)
    strictly (word "in")
    let (right, _) ← separated (solve .comprehended)
      (nextIs fun t => startsExpression t && !joinsExpression t)
    return left.as .left :: right

/-- One `if` of a comprehension or a `case`. -/
def ifClause (solve : Solver) : Parse Concrete :=
  build .ifClause do
    strictly (word "if")
    return [← solve (.expression Strength.filter)]

/-- The clauses of a comprehension. -/
def comprehensionClauses (solve : Solver) : Parse (List Concrete) := do
  let first ← forInClause solve
  let rest ← many do
    if ← atFor then return some (← forInClause solve)
    else if ← nextIs (isWord "if") then return some (← ifClause solve)
    else return none
  return first :: rest

/-! ### Displays -/

/-- An element of a list, a set or a tuple. -/
def element (solve : Solver) : Parse Concrete := do
  if ← startIs (isWord "yield") then yieldExpression solve
  else if ← startIs (isOp "*") then listSplat solve
  else anyExpression solve

/-- The elements behind the first one, and whether there is a comma behind it. -/
def moreElements (item : Parse Concrete) : Parse (List Concrete × Bool) := do
  let (rest, trailing) ← moreItems item (nextIs fun t => startsExpression t || isOp "**" t)
  return (rest, trailing || !rest.isEmpty)

/-- Everything that stands between round brackets as an expression. -/
def round (solve : Solver) : Parse Concrete := do
  let start ← here
  strictly (op "(")
  bracketed do
    if ← op? ")" then buildAt .tuple start []
    else
      let first ← element solve
      if ← atFor then
        let clauses ← comprehensionClauses solve
        op ")"
        buildAt .generatorExpression start (first :: clauses)
      else
        let (rest, comma) ← moreElements (element solve)
        op ")"
        buildAt (if comma then .tuple else .parenthesizedExpression) start (first :: rest)

/-- A list or a list comprehension. -/
def square (solve : Solver) : Parse Concrete := do
  let start ← here
  strictly (op "[")
  bracketed do
    if ← op? "]" then buildAt .list start []
    else
      let first ← element solve
      if ← atFor then
        let clauses ← comprehensionClauses solve
        op "]"
        buildAt .listComprehension start (first :: clauses)
      else
        let (rest, _) ← moreElements (element solve)
        op "]"
        buildAt .list start (first :: rest)

/-- An entry of a dictionary: a pair or a splat. -/
def entry (solve : Solver) : Parse Concrete := do
  if ← startIs (isOp "**") then dictionarySplat solve
  else
    build .pair do
      let key ← anyExpression solve
      op ":"
      return [key, ← anyExpression solve]

/-- A dictionary, a set, or a comprehension of one. -/
def curly (solve : Solver) : Parse Concrete := do
  let start ← here
  strictly (op "\x7b")
  bracketed do
    if ← op? "\x7d" then buildAt .dictionary start []
    else if ← startIs (isOp "**") then
      let first ← dictionarySplat solve
      let (rest, _) ← moreElements (entry solve)
      op "\x7d"
      buildAt .dictionary start (first :: rest)
    else
      let first ← element solve
      if ← op? ":" then
        let value ← anyExpression solve
        let pair := node .pair first.start value.stop [first, value]
        if ← atFor then
          let clauses ← comprehensionClauses solve
          op "\x7d"
          buildAt .dictionaryComprehension start (pair :: clauses)
        else
          let (rest, _) ← moreElements (entry solve)
          op "\x7d"
          buildAt .dictionary start (pair :: rest)
      else if ← atFor then
        let clauses ← comprehensionClauses solve
        op "\x7d"
        buildAt .setComprehension start (first :: clauses)
      else
        let (rest, _) ← moreElements (element solve)
        op "\x7d"
        buildAt .set start (first :: rest)

/-! ### Strings -/

/-- A run of text in a string: escapes are the only children. -/
def stringContent : Parse Concrete :=
  build .stringContent do
    let pieces ← many do
      match ← takeIf fun t =>
          t.kind == .stringText || t.kind == .escape || t.kind == .escapedBrace with
      | some t =>
        if t.kind == .escape then return some [leaf .escapeSequence t]
        else if t.kind == .escapedBrace then return some [leaf .escapeInterpolation t]
        else return some []
      | none => return none
    return pieces.flatten

/-- One string literal. -/
def stringLiteral (solve : Solver) : Parse Concrete :=
  build .string do
    let opening ← strictly (takeThe (·.kind == .stringStart))
    let parts ← many do
      match ← look with
      | some t =>
        if t.kind == .op then return some (← solve .interpolation)
        else if t.kind == .stringText || t.kind == .escape || t.kind == .escapedBrace then
          return some (← stringContent)
        else return none
      | none => return none
    let closing ← takeThe (·.kind == .stringEnd)
    return leaf .stringStart opening :: parts ++ [leaf .stringEnd closing]

/-- One string literal, or several in a row as one. -/
def strings (solve : Solver) : Parse Concrete := do
  let first ← stringLiteral solve
  let rest ← many do
    if ← nextIs (·.kind == .stringStart) then return some (← stringLiteral solve)
    else return none
  if rest.isEmpty then return first
  else buildAt .concatenatedString first.start (first :: rest)

/-- What stands between the braces of an interpolation. -/
def interpolationParts (solve : Solver) : Parse (List Concrete) :=
  interpolated do
    op "\x7b"
    let value ←
      if ← startIs (isWord "yield") then yieldExpression solve else expressionOrList solve
    let _ ← op? "="
    let conversion ← takeIf (·.kind == .conversion)
    let spec ←
      if ← nextIs (isOp ":") then
        pure [← build .formatSpecifier do
          op ":"
          many do
            if ← nextIs (isOp "\x7b") then
              return some { ← solve .interpolation with kind := .formatExpression }
            else return none]
      else pure []
    op "\x7d"
    return value :: (conversion.map (leaf .typeConversion)).toList ++ spec

/-- An interpolation of a format string. -/
def interpolation (solve : Solver) : Parse Concrete :=
  build .interpolation (interpolationParts solve)

/-! ### Calls, attributes, subscripts -/

/-- An argument of a call. -/
def argument (solve : Solver) : Parse Concrete := do
  if ← startIs (isOp "*") then listSplat solve
  else if ← startIs (isOp "**") then dictionarySplat solve
  else if ← startIs (fun t => t.kind == .word && !(["lambda", "not"].contains t.text)) then
    if ← secondIs (isOp "=") then
      build .keywordArgument do
        let name ← strictly identifier
        strictly (op "=")
        return [name.as .name, (← anyExpression solve).as .value]
    else anyExpression solve
  else anyExpression solve

/-- The arguments of a call, or the one comprehension in their place. -/
def arguments (solve : Solver) : Parse Concrete := do
  let start ← here
  op "("
  bracketed do
    if ← nextIs (isOp ")") then
      op ")"
      buildAt .argumentList start []
    else if ← op? "," then
      op ")"
      buildAt .argumentList start []
    else
      let first ← argument solve
      if ← atFor then
        let clauses ← comprehensionClauses solve
        op ")"
        buildAt .generatorExpression start (first :: clauses)
      else
        let (rest, _) ← moreElements (argument solve)
        op ")"
        buildAt .argumentList start (first :: rest)

/-- A subscript: an expression or a slice. -/
def subscriptItem (solve : Solver) : Parse Concrete := do
  let start ← here
  let lower ← if ← nextIs (isOp ":") then pure [] else pure [← anyExpression solve]
  let bound : Parse (List Concrete) := do
    if ← nextIs startsExpression then return [← anyExpression solve] else return []
  if ← op? ":" then
    let upper ← bound
    let step ← if ← op? ":" then bound else pure []
    buildAt .slice start (lower ++ upper ++ step)
  else
    match lower with
    | [e] => return e
    | _ => fail

/-- One more call, attribute or subscript behind a primary expression. -/
def trailer (solve : Solver) (left : Concrete) : Parse (Option Concrete) := do
  if ← op? "." then
    let name ← strictly identifier
    return some (← buildAt .attribute left.start [left.as .object, name.as .attribute])
  else if ← nextIs (isOp "(") then
    let args ← arguments solve
    return some (← buildAt .call left.start [left.as .function, args.as .arguments])
  else if ← op? "[" then
    let (items, _) ← bracketed do
      demand
      separated (subscriptItem solve) (nextIs fun t => startsExpression t || isOp ":" t)
    bracketed (op "]")
    return some (← buildAt .subscript left.start (left :: items))
  else return none

/-! ### Atoms and operands -/

/-- Is the node a name, an attribute or a subscript: a thing that can be assigned to? -/
def isPlace (c : Concrete) : Bool :=
  c.kind == .identifier || c.kind == .attribute || c.kind == .subscript

/-- An atom: a name, a literal, or something in brackets. -/
def atom (solve : Solver) : Parse Concrete := do
  match ← strictly look with
  | none => fail
  | some t =>
    match t.kind with
    | .word =>
      let t ← takeThe fun _ => true
      if t.text == "True" then return leaf .trueLiteral t
      else if t.text == "False" then return leaf .falseLiteral t
      else if t.text == "None" then return leaf .noneLiteral t
      else return textLeaf .identifier t
    | .integer => return leaf .integer (← takeThe fun _ => true)
    | .float => return leaf .float (← takeThe fun _ => true)
    | .stringStart => strings solve
    | .op =>
      if t.text == "(" then round solve
      else if t.text == "[" then square solve
      else if t.text == "\x7b" then curly solve
      else if t.text == "..." then return leaf .ellipsis (← takeThe fun _ => true)
      else fail
    | _ => fail

/-- An atom with its calls, attributes and subscripts. -/
def primary (solve : Solver) : Parse Concrete := do
  foldMany (trailer solve) (← atom solve)

/-- A thing that can be assigned to. -/
def place (solve : Solver) : Parse Concrete := do
  let c ← primary solve
  if isPlace c then return c else fail

/-- `*` before a place. -/
def splatOf (solve : Solver) (kind : Kind) : Parse Concrete :=
  build kind do
    strictly (op "*")
    return [← place solve]

/-- Does `await` at the front have an operand? -/
def awaits : Parse Bool := do
  if ← startIs (isWord "await") then
    secondOnLineIs fun t => startsExpression t && !joinsExpression t
  else return false

/-- The first operand of a chain of binary operators. -/
def operandHead (solve : Solver) : Parse Concrete := do
  if ← startIs fun t => isOp "+" t || isOp "-" t || isOp "~" t then
    build .unaryOperator do
      let _ ← takeThe fun _ => true
      return [← solve (.operand Strength.signed)]
  else if ← startIs (isOp "*") then splatOf solve .listSplat
  else if ← awaits then
    build .await do
      strictly (word "await")
      return [← solve (.operand Strength.signed)]
  else primary solve

/-- One more binary operator of at least the given strength. -/
def binaryStep (solve : Solver) (strength : Nat) (left : Concrete) : Parse (Option Concrete) := do
  match ← look with
  | some t =>
    match if t.kind == .op then Strength.binary? t.text else none with
    | some s =>
      if strength ≤ s then
        let _ ← takeThe fun _ => true
        let right ← solve (.operand (Strength.right s))
        return some (← buildAt .binaryOperator left.start [left.as .left, right.as .right])
      else return none
    | none => return none
  | none => return none

/-- An operand: binary operators of at least the given strength. -/
def operand (solve : Solver) (strength : Nat) : Parse Concrete := do
  foldMany (binaryStep solve strength) (← operandHead solve)

/-! ### Comparisons and above -/

/-- Take a comparison operator if one comes next. -/
def comparison? : Parse Bool := do
  match ← takeIf fun t => t.kind == .op &&
      ["<", "<=", "==", "!=", ">=", ">", "<>"].contains t.text with
  | some _ => return true
  | none =>
    if ← word? "in" then return true
    else if ← word? "is" then
      let _ ← strictly (word? "not")
      return true
    else if ← nextIs (isWord "not") then
      if ← secondIs (isWord "in") then
        word "not"
        strictly (word "in")
        return true
      else return false
    else return false

/-- The comparisons behind a first operand, as one chain. -/
def comparisons (solve : Solver) (first : Concrete) : Parse Concrete := do
  let rest ← many do
    if ← comparison? then return some (← solve (.operand Strength.operand)) else return none
  if rest.isEmpty then return first
  else buildAt .comparisonOperator first.start (first :: rest)

/-- A parameter; in a lambda the colon ends the parameters, so there are no types. -/
def parameter (solve : Solver) (typed : Bool) : Parse Concrete := do
  let start ← here
  let withType (first : Concrete) (default : Bool) : Parse Concrete := do
    if typed && (← nextIs (isOp ":")) then
      op ":"
      let type ← solve (.type false)
      if default && (← nextIs (isOp "=")) then
        op "="
        let value ← anyExpression solve
        buildAt .typedDefaultParameter start [first.as .name, type.as .type, value.as .value]
      else buildAt .typedParameter start [first, type.as .type]
    else if default && (← nextIs (isOp "=")) then
      op "="
      let value ← anyExpression solve
      buildAt .defaultParameter start [first.as .name, value.as .value]
    else return first
  if ← nextIs (·.kind == .word) then withType (← identifier) true
  else if ← op? "*" then
    if ← nextIs (·.kind == .word) then
      let name ← place solve
      withType (node .listSplatPattern start name.stop [name]) false
    else buildAt .keywordSeparator start []
  else if ← op? "**" then
    let name ← place solve
    withType (node .dictionarySplatPattern start name.stop [name]) false
  else if ← op? "/" then buildAt .positionalSeparator start []
  else
    let pattern ← solve .target
    if pattern.kind == .tuplePattern then
      if ← op? "=" then
        let value ← anyExpression solve
        buildAt .defaultParameter start [pattern.as .name, value.as .value]
      else return pattern
    else fail

/-- Can a parameter start with this terminal? -/
def startsParameter (t : Terminal) : Bool :=
  t.kind == .word || isOp "*" t || isOp "**" t || isOp "/" t || isOp "(" t

/-- The parameters of a function. -/
def parameters (solve : Solver) : Parse Concrete :=
  build .parameters do
    strictly (op "(")
    bracketed do
      if ← op? ")" then return []
      let (items, _) ← separated (parameter solve true) (nextIs startsParameter)
      op ")"
      return items

/-- The parameters of a lambda, if it has any. -/
def lambdaParameters (solve : Solver) : Parse (List Concrete) :=
  strictly do
    if ← nextIs (isOp ":") then return []
    let all ← build .lambdaParameters do
      return (← separated (parameter solve false) (nextIs startsParameter)).1
    return [all.as .parameters]

/-- A lambda with the given goal as its body. -/
def lambda (solve : Solver) (body : Goal) : Parse Concrete :=
  build .lambda do
    strictly (word "lambda")
    let params ← lambdaParameters solve
    strictly (op ":")
    return params ++ [(← solve body).as .body]

/-- An expression up to its weak operators. -/
def expressionHead (solve : Solver) : Parse Concrete := do
  if ← startIs (isWord "lambda") then lambda solve (.expression Strength.any)
  else if ← startIs (isWord "not") then
    build .notOperator do
      strictly (word "not")
      return [← solve (.expression Strength.negated)]
  else
    let first ← solve (.operand Strength.operand)
    if first.kind == .identifier then
      if ← op? ":=" then
        let value ← solve (.expression Strength.bound)
        buildAt .namedExpression first.start [first.as .name, value.as .value]
      else comparisons solve first
    else comparisons solve first

/-- A boolean operation with the given left operand. -/
def booleanStep (solve : Solver) (keyword : String) (strength : Int) (left : Concrete) :
    Parse Concrete := do
  let t ← takeThe (isWord keyword)
  let right ← solve (.expression (strength + 1))
  buildAt .booleanOperator left.start
    [left.as .left, (textLeaf .token t).as .operator, right.as .right]

/-- One more weak operator of at least the given strength. -/
def expressionStep (solve : Solver) (strength : Int) (left : Concrete) :
    Parse (Option Concrete) := do
  match ← look with
  | some t =>
    if isWord "or" t && strength ≤ Strength.or then
      return some (← booleanStep solve "or" Strength.or left)
    else if isWord "and" t && strength ≤ Strength.and then
      return some (← booleanStep solve "and" Strength.and left)
    else if isWord "if" t && strength ≤ Strength.conditional then
      word "if"
      let condition ← strictly (anyExpression solve)
      strictly (word "else")
      let otherwise ← solve (.expression Strength.conditional)
      return some (← buildAt .conditionalExpression left.start [left, condition, otherwise])
    else if isWord "as" t && strength ≤ Strength.asTarget then
      word "as"
      let target ← solve (.expression Strength.bound)
      return some (← buildAt .asPattern left.start
        [left, node .asPatternTarget target.start target.stop [target]])
    else return none
  | none => return none

/-- An expression whose operators bind at least so strongly. -/
def expression (solve : Solver) (strength : Int) : Parse Concrete := do
  foldMany (expressionStep solve strength) (← expressionHead solve)

/-- What a comprehension's `for` runs over: the conditional stays outside, also behind
a lambda. -/
def comprehended (solve : Solver) : Parse Concrete := do
  if ← startIs (isWord "lambda") then lambda solve .comprehended
  else solve (.expression Strength.filter)

end PyStyle.Concrete.Grammar
