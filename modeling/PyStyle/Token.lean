import PyStyle.Position

/-!
# Tokens

The layout-preserving view of a source text: literal keywords, indentation and
comments are all there. Keywords are `name` tokens.

- `TokenKind` — the closed set of token kinds;
- `Token` — a kind, the text and where it starts.
-/

namespace PyStyle

/-- The lexical class of a token. -/
inductive TokenKind where
  | name
  | number
  | string
  | op
  | colon
  /-- The end of a logical line. -/
  | newline
  /-- The end of a blank or comment-only line, or of a line inside brackets. -/
  | blankLine
  | indent
  | dedent
  | comment
  | endMarker
deriving DecidableEq, Repr, Inhabited

namespace TokenKind

/-- All token kinds, in the order of their declaration. -/
def all : List TokenKind :=
  [.name, .number, .string, .op, .colon, .newline, .blankLine, .indent, .dedent, .comment,
   .endMarker]

/-- The name under which unit files and reports know the kind. -/
def label : TokenKind → String
  | .name => "name"
  | .number => "number"
  | .string => "string"
  | .op => "op"
  | .colon => "colon"
  | .newline => "newline"
  | .blankLine => "blank_line"
  | .indent => "indent"
  | .dedent => "dedent"
  | .comment => "comment"
  | .endMarker => "end_marker"

/-- The kind with the given label. -/
def ofLabel? (label : String) : Option TokenKind :=
  all.find? (·.label == label)

end TokenKind

/-- A token of a source text. -/
structure Token where
  kind : TokenKind
  text : String
  position : Position
deriving DecidableEq, Repr, Inhabited

namespace Token

/-- Is the token the given keyword? -/
def isKeyword (token : Token) (word : String) : Bool :=
  token.kind == .name && token.text == word

end Token

end PyStyle
