import PyStyle.Position

/-!
# Syntax trees

The tree the checks work on. It knows the structure of a module and forgets its
layout. Groups of statements (the body of a function, of an `else`, of a
`finally`) are `block` nodes; an `elif` is an `if` inside the `else` block of the
`if` before it.

- `NodeKind` — the closed set of node kinds;
- `Node` — a kind, an optional name, a position and the children in order;
- `Node.preorder` — the node and its descendants, parents first, by recursion;
- `Node.walk` — the same list by a worklist, which needs no call stack;
- `Node.walkPending_eq` — the worklist visits in pre-order;
- `Node.body` — the statements of a definition.
-/

namespace PyStyle

/-- What a syntax-tree node stands for. -/
inductive NodeKind where
  | module
  | block
  | functionDef
  | asyncFunctionDef
  | lambda
  | classDef
  /-- A decorator; its only child is the decorator expression. -/
  | decorator
  /-- A parameter; the child, if any, is its annotation. -/
  | argument
  /-- A return annotation; the child is the annotation. -/
  | returnType
  | ifStmt
  | forLoop
  | asyncForLoop
  | whileLoop
  | ifExpr
  | tryStmt
  | exceptHandler
  | breakStmt
  | continueStmt
  | raiseStmt
  | returnStmt
  /-- A chain of one boolean operator; the name is `and` or `or`. -/
  | boolOp
  /-- A call; the first child is the callee, and the name is its dotted path when
  the callee is a plain name or a chain of attributes. -/
  | call
  | name
  /-- An attribute access; the child is the value, the name is the attribute. -/
  | attribute
  | subscript
  /-- Anything the checks do not tell apart. -/
  | generic
deriving DecidableEq, Repr, Inhabited

namespace NodeKind

/-- All node kinds, in the order of their declaration. -/
def all : List NodeKind :=
  [.module, .block, .functionDef, .asyncFunctionDef, .lambda, .classDef, .decorator, .argument,
   .returnType, .ifStmt, .forLoop, .asyncForLoop, .whileLoop, .ifExpr, .tryStmt,
   .exceptHandler, .breakStmt, .continueStmt, .raiseStmt, .returnStmt, .boolOp,
   .call, .name, .attribute, .subscript, .generic]

/-- The name under which unit files and reports know the kind. -/
def label : NodeKind → String
  | .module => "module"
  | .block => "block"
  | .functionDef => "function_def"
  | .asyncFunctionDef => "async_function_def"
  | .lambda => "lambda"
  | .classDef => "class_def"
  | .decorator => "decorator"
  | .argument => "argument"
  | .returnType => "return_annotation"
  | .ifStmt => "if"
  | .forLoop => "for"
  | .asyncForLoop => "async_for"
  | .whileLoop => "while"
  | .ifExpr => "if_exp"
  | .tryStmt => "try"
  | .exceptHandler => "except_handler"
  | .breakStmt => "break"
  | .continueStmt => "continue"
  | .raiseStmt => "raise"
  | .returnStmt => "return"
  | .boolOp => "bool_op"
  | .call => "call"
  | .name => "name"
  | .attribute => "attribute"
  | .subscript => "subscript"
  | .generic => "generic"

/-- The kind with the given label. -/
def ofLabel? (label : String) : Option NodeKind :=
  all.find? (·.label == label)

/-- Does a node of this kind define a function scope with a name? -/
def isFunction : NodeKind → Bool
  | .functionDef | .asyncFunctionDef => true
  | _ => false

end NodeKind

/-- A syntax-tree node. -/
structure Node where
  kind : NodeKind
  name : Option String
  position : Position
  children : List Node
deriving Repr, Inhabited

namespace Node

/-- A node without a name. -/
def plain (kind : NodeKind) (position : Position) (children : List Node) : Node :=
  { kind, name := none, position, children }

/-- A node with a name. -/
def named (kind : NodeKind) (name : String) (position : Position) (children : List Node) : Node :=
  { kind, name := some name, position, children }

mutual

/-- The number of nodes in the tree. -/
def size : Node → Nat
  | ⟨_, _, _, children⟩ => sizeAll children + 1

/-- The number of nodes in a list of trees. -/
def sizeAll : List Node → Nat
  | [] => 0
  | node :: rest => node.size + sizeAll rest

end

mutual

/-- The node and its descendants: a parent before its children, an earlier
sibling's subtree before a later one's. -/
def preorder : Node → List Node
  | node@⟨_, _, _, children⟩ => node :: preorderAll children

/-- The nodes of a list of trees, tree by tree. -/
def preorderAll : List Node → List Node
  | [] => []
  | node :: rest => node.preorder ++ preorderAll rest

end

@[simp] theorem size_eq (node : Node) : node.size = sizeAll node.children + 1 := by
  cases node; simp only [size]

@[simp] theorem sizeAll_nil : sizeAll [] = 0 := by
  simp only [sizeAll]

@[simp] theorem sizeAll_cons (node : Node) (rest : List Node) :
    sizeAll (node :: rest) = sizeAll node.children + 1 + sizeAll rest := by
  simp only [sizeAll, size_eq]

@[simp] theorem sizeAll_append (xs ys : List Node) :
    sizeAll (xs ++ ys) = sizeAll xs + sizeAll ys := by
  induction xs with
  | nil => simp
  | cons x xs ih => simp [ih]; omega

/-- The nodes still to be visited, in visiting order, when `pending` are the
subtrees not yet entered: the first is visited and its children take its place. -/
def walkPending : List Node → List Node
  | [] => []
  | node :: rest => node :: walkPending (node.children ++ rest)
termination_by pending => sizeAll pending
decreasing_by simp

/-- The node and its descendants in pre-order. -/
def walk (node : Node) : List Node :=
  walkPending [node]

theorem preorder_eq (node : Node) : node.preorder = node :: preorderAll node.children := by
  cases node; simp only [preorder]

theorem preorderAll_append (xs ys : List Node) :
    preorderAll (xs ++ ys) = preorderAll xs ++ preorderAll ys := by
  induction xs with
  | nil => simp only [preorderAll, List.nil_append]
  | cons x xs ih => simp only [preorderAll, List.cons_append, ih, List.append_assoc]

/-- The worklist visits tree by tree, in pre-order. -/
theorem walkPending_eq (pending : List Node) : walkPending pending = preorderAll pending := by
  fun_induction walkPending pending with
  | case1 => simp only [preorderAll]
  | case2 node rest ih => rw [ih, preorderAll_append, preorderAll, preorder_eq, List.cons_append]

theorem walk_eq_preorder (node : Node) : node.walk = node.preorder := by
  rw [walk, walkPending_eq, preorderAll, preorderAll, List.append_nil]

/-- The statements of a definition: the children of its last block. -/
def body (node : Node) : List Node :=
  match node.children.reverse.find? (·.kind == .block) with
  | some block => block.children
  | none => []

end Node

end PyStyle
