import PyStyle.Check
import PyStyle.Rule.Standard

/-!
# The check of implicit `elif`

`elif b:` and an `else:` with nothing but `if b:` in it have the same syntax tree, so the
check looks at the keywords and the indentation as they are written.

- `belongsToIf` — does an `else` continue an `if`?
- `hasCodeAfterIf` — does code follow the body of an `if` in the block around it?
- `Check.implicitElif` — an `else` must not hold a lone `if`.
-/

namespace PyStyle.Check

/-- Does the `else` behind the tokens `before` continue an `if` or an `elif`? It must be
the first word of a line that closes a block, and the nearest name in the column of the
closing is then the keyword the `else` belongs to. -/
def belongsToIf (before : List Token) : Bool :=
  match before with
  | [] => false
  | closing :: earlier =>
    closing.kind == .dedent &&
      match earlier.find? fun t =>
          t.kind == .name && t.position.column == closing.position.column with
      | some owner => owner.text == "if" || owner.text == "elif"
      | none => false

/-- May the token stand between an `else` and the `if` in it? -/
def isElseLayout (t : Token) : Bool :=
  t.kind == .newline || t.kind == .blankLine || t.kind == .colon || t.kind == .indent

/-- Does the token open or close a block? -/
def isBlockEdge (t : Token) : Bool :=
  t.kind == .indent || t.kind == .dedent

/-- The tokens behind the point where `depth` more blocks are closed than opened. -/
def afterBlocks : Nat → List Token → Option (List Token)
  | 0, tokens => some tokens
  | _ + 1, [] => none
  | depth + 1, t :: rest =>
    match t.kind with
    | .indent => afterBlocks (depth + 2) rest
    | .dedent => afterBlocks depth rest
    | _ => afterBlocks (depth + 1) rest

/-- Does a statement follow the body of the `if` before these tokens, inside the block
around it? -/
def hasCodeAfterIf (after : List Token) : Bool :=
  match after.dropWhile (!isBlockEdge ·) with
  | [] => false
  | _ :: body =>
    match afterBlocks 1 body with
    | some (next :: _) => next.kind != .dedent
    | _ => false

/-- Reports `else` blocks that hold nothing but an `if`. -/
def implicitElif : TokenCheck where
  name := "implicit_elif"
  kinds := [.name]
  visit v :=
    if v.token.isKeyword "else" && belongsToIf v.before then
      match v.after.dropWhile isElseLayout with
      | [] => .done
      | inner :: rest =>
        if inner.isKeyword "if" && !hasCodeAfterIf rest then
          .require Rule.implicitElif none inner.position .done
        else .done
    else .done

end PyStyle.Check
