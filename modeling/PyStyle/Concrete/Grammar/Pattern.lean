import PyStyle.Concrete.Grammar.Expression

/-!
# Types, targets and patterns

- `typeAnnotation` — types: a name with brackets behind it is a generic type, all else
  is an expression;
- `target`, `targets` — what can be assigned to;
- `casePattern` — what a `case` compares with.
-/

namespace PyStyle.Concrete.Grammar

open Parse

/-! ### Types -/

/-- A node wrapped as a type. -/
def asType (c : Concrete) : Concrete :=
  node .type c.start c.stop [c]

/-- The types between square brackets. -/
def typeParameter (solve : Solver) : Parse Concrete :=
  build .typeParameter do
    op "["
    bracketed do
      demand
      let (items, _) ← separated (solve (.type true))
        (nextIs fun t => startsExpression t || isOp "**" t)
      op "]"
      return items

/-- Words that start an expression of their own and so name no generic type. -/
def isTypeName (t : Terminal) : Bool :=
  let taken :=
    ["lambda", "not", "await", "async", "print", "exec", "match", "True", "False", "None"]
  t.kind == .word && !(taken.contains t.text)

/-- Does a star with a bare name behind it come next? -/
def atSplatType : Parse Bool := fun _ c =>
  match c.ahead with
  | star :: name :: next :: _ =>
    .ok ((isOp "**" star || isOp "*" star) && name.kind == .word
      && !(isOp "[" next || isOp "." next || isOp "(" next), c)
  | _ => .ok (false, c)

/-- A type up to its operators. -/
def typeHead (solve : Solver) : Parse Concrete := do
  if ← atSplatType then
    let t ← build .splatType do
      let _ ← strictly (takeThe (·.kind == .op))
      return [← identifier]
    return asType t
  else if (← startIs isTypeName) && (← secondIs (isOp "[")) then
    let t ← build .genericType do
      let name ← identifier
      return [name, ← typeParameter solve]
    return asType t
  else return asType (← anyExpression solve)

/-- One more operator behind a type. -/
def typeStep (solve : Solver) (constrained : Bool) (left : Concrete) :
    Parse (Option Concrete) := do
  if ← op? "|" then
    let right ← typeHead solve
    return some (asType (← buildAt .unionType left.start [left, right]))
  else if ← op? "." then
    let name ← strictly identifier
    return some (asType (← buildAt .memberType left.start [left, name]))
  else if constrained && (← nextIs (isOp ":")) then
    op ":"
    let right ← solve (.type true)
    return some (asType (← buildAt .constrainedType left.start [left, right]))
  else return none

/-- A type. -/
def typeAnnotation (solve : Solver) (constrained : Bool) : Parse Concrete := do
  foldMany (typeStep solve constrained) (← typeHead solve)

/-! ### Targets -/

/-- Can a target start with this terminal? -/
def startsTarget (t : Terminal) : Bool :=
  startsExpression t && !isWord "in" t

/-- Targets between two brackets. -/
def bracketedTargets (solve : Solver) (kind : Kind) (opening closing : String) : Parse Concrete :=
  build kind do
    strictly (op opening)
    bracketed do
      if ← op? closing then return []
      let (items, _) ← separated (solve .target) (nextIs startsTarget)
      op closing
      return items

/-- A target: a place, a starred place, or targets in brackets. -/
def target (solve : Solver) : Parse Concrete := do
  if ← startIs (isOp "*") then splatOf solve .listSplatPattern
  else if ← startIs fun t => isWord "lambda" t || isWord "not" t then fail
  else if ← startIs (isOp "(") then
    orElse (place solve) (bracketedTargets solve .tuplePattern "(" ")")
  else if ← startIs (isOp "[") then
    orElse (place solve) (bracketedTargets solve .listPattern "[" "]")
  else place solve

/-- One target, or a list of them when there is a comma. -/
def targets (solve : Solver) : Parse Concrete := do
  let first ← solve .target
  if ← nextIs (isOp ",") then
    buildFrom .patternList first do
      return (← moreItems (solve .target) (nextIs startsTarget)).1
  else return first

/-! ### Case patterns -/

/-- Can a case pattern start with this terminal? -/
def startsCase (t : Terminal) : Bool :=
  startsExpression t && !isWord "if" t || isOp "**" t

/-- Case patterns between two brackets. -/
def bracketedCases (solve : Solver) (opening closing : String) : Parse (List Concrete) := do
  strictly (op opening)
  bracketed do
    if ← op? closing then return []
    let (items, _) ← separated (solve .casePattern) (nextIs startsCase)
    op closing
    return items

/-- Names with points between them. -/
def dottedName : Parse Concrete :=
  build .dottedName do
    let first ← strictly identifier
    let rest ← many do
      if ← op? "." then return some (← strictly identifier) else return none
    return first :: rest

/-- A number, perhaps negative, perhaps the sum of two. -/
def numberPattern : Parse (List Concrete) := do
  let start ← here
  let number : Parse Concrete := do
    match ← strictly (takeIf fun t => t.kind == .integer || t.kind == .float) with
    | some t => return leaf (if t.kind == .integer then .integer else .float) t
    | none => fail
  let _ ← strictly (op? "-")
  let first ← number
  if ← nextIs fun t => isOp "+" t || isOp "-" t then
    let _ ← takeThe fun _ => true
    let second ← number
    return [← buildAt .complexPattern start [first, second]]
  else return [first]

/-- A star with a name or the wildcard behind it. -/
def splatPattern : Parse Concrete :=
  build .splatPattern do
    let _ ← strictly (takeThe fun t => isOp "*" t || isOp "**" t)
    let name ← strictly identifier
    return if name.text == "_" then [] else [name]

/-- A simple pattern other than a union. The wildcard and signs leave no node. -/
def simpleHead (solve : Solver) (key : Parse (List Concrete)) : Parse (List Concrete) := do
  match ← strictly look with
  | none => fail
  | some t =>
    match t.kind with
    | .word =>
      if t.text == "True" then return [leaf .trueLiteral (← takeThe fun _ => true)]
      else if t.text == "False" then return [leaf .falseLiteral (← takeThe fun _ => true)]
      else if t.text == "None" then return [leaf .noneLiteral (← takeThe fun _ => true)]
      else if t.text == "_" then
        let _ ← takeThe fun _ => true
        return []
      else
        let name ← dottedName
        if ← nextIs (isOp "(") then
          return [← buildFrom .classPattern name (bracketedCases solve "(" ")")]
        else return [name]
    | .integer | .float => numberPattern
    | .stringStart => return [← strings solve]
    | .op =>
      if t.text == "-" then numberPattern
      else if t.text == "*" || t.text == "**" then return [← splatPattern]
      else if t.text == "[" then
        return [← build .listPattern (bracketedCases solve "[" "]")]
      else if t.text == "(" then
        return [← build .tuplePattern (bracketedCases solve "(" ")")]
      else if t.text == "\x7b" then
        return [← build .dictPattern do
          op "\x7b"
          bracketed do
            if ← op? "\x7d" then return []
            let entry : Parse (List Concrete) := do
              if ← startIs (isOp "**") then return [← splatPattern]
              else
                let key ← key
                op ":"
                return key ++ [← solve .casePattern]
            let (items, _) ← separated entry (nextIs startsCase)
            op "\x7d"
            return items.flatten]
      else fail
    | _ => fail

/-- A simple pattern, or several with bars between them. The keys of a dictionary
pattern are read as whole patterns and unwrapped. -/
def simplePattern (solve : Solver) : Parse (List Concrete) := do
  let key : Parse (List Concrete) := do return (← solve .casePattern).children
  let start ← here
  let first ← simpleHead solve key
  let rest ← many do
    if ← op? "|" then return some (← simpleHead solve key) else return none
  if rest.isEmpty then return first
  else return [← buildAt .unionPattern start (first ++ rest.flatten)]

/-- A pattern of a `case`, perhaps with a name for what it matches. -/
def casePattern (solve : Solver) : Parse Concrete := do
  let keyword ← startIs (·.kind == .word)
  let first ←
    if keyword && (← secondIs (isOp "=")) then
      build .casePattern do
        let start ← here
        let name ← identifier
        op "="
        let value ← simplePattern solve
        return [← buildAt .keywordPattern start (name :: value)]
    else build .casePattern (simplePattern solve)
  foldMany (fun left => do
    if ← word? "as" then
      let name ← strictly identifier
      let named ← buildAt .asPattern left.start [left, name]
      return some (node .casePattern named.start named.stop [named])
    else return none) first

end PyStyle.Concrete.Grammar
