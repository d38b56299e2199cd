import PyStyle.Yaml.Token.Scanner

/-!
# YAML documents

- `Node` — a scalar, a list or a mapping, with its place in the text;
- `Composer` — the tokens left, with the anchors and tag handles seen so far;
- `document?` — the one document of a text, if the text holds one.
-/

namespace PyStyle.Yaml

/-- A node of a document. -/
inductive Node where
  | scalar (text : String) (style : ScalarStyle) (tag : Option String) (position : Position)
  | sequence (items : List Node) (position : Position)
  /-- The entries in the order of the text, repeated keys included. -/
  | mapping (entries : List (Node × Node)) (position : Position)
deriving Repr, Inhabited

/-- A scalar that is not written at all. -/
def Node.empty (position : Position) : Node :=
  .scalar "" .plain none position

/-- The tokens that are left, and what the text has introduced so far. -/
structure Composer where
  tokens : List Token
  anchors : List (String × Node)
  handles : List (String × String)

namespace Composer

/-- The next token; behind the last one the end of the text goes on. -/
def head (c : Composer) : TokenContent :=
  (c.tokens.head?.map (·.content)).getD .streamEnd

/-- The place of the next token. -/
def position (c : Composer) : Position :=
  (c.tokens.head?.map (·.position)).getD ⟨1, 0⟩

/-- Pass over the next token. -/
def skip (c : Composer) : Composer :=
  { c with tokens := c.tokens.tail }

/-- A problem at the next token. -/
def refuse {α : Type} (c : Composer) (message : String) : Except Problem α :=
  .error ⟨message, c.position⟩

/-- Give a node a name. The last node of a name counts. -/
def bind (c : Composer) (anchor : Option String) (node : Node) : Composer :=
  match anchor with
  | none => c
  | some name => { c with anchors := (name, node) :: c.anchors }

/-- The tag that a handle and a suffix stand for. -/
def expand (c : Composer) (handle suffix : String) : Except Problem String :=
  if handle.isEmpty then .ok suffix
  else
    match c.handles.lookup handle with
    | some expansion => .ok (expansion ++ suffix)
    | none => c.refuse "found undefined tag handle"

/-- The anchor and the tag in front of a node. -/
structure Properties where
  anchor : Option String := none
  tag : Option String := none

/-- Read the anchor at the front, if there is one. -/
def readAnchor (c : Composer) (p : Properties) : Properties × Composer :=
  match c.head with
  | .anchor name => ({ p with anchor := some name }, c.skip)
  | _ => (p, c)

/-- Read the tag at the front, if there is one. -/
def readTag (c : Composer) (p : Properties) : Except Problem (Properties × Composer) :=
  match c.head with
  | .tag handle suffix => do
    let tag ← c.expand handle suffix
    .ok ({ p with tag := some tag }, c.skip)
  | _ => .ok (p, c)

/-- The properties in front of a node, in any order and each at most once. -/
def properties (c : Composer) : Except Problem (Properties × Composer) :=
  match c.head with
  | .tag _ _ => do
    let (p, c) ← c.readTag {}
    .ok (c.readAnchor p)
  | _ =>
    let (p, c) := c.readAnchor {}
    c.readTag p

/-- Which nodes may stand at a place. -/
structure Place where
  /-- May a block begin there? -/
  allowsBlock : Bool
  /-- May a list begin there that is not indented? -/
  allowsDashes : Bool

/-- An item of a list. -/
def Place.item : Place := ⟨true, false⟩

/-- A key or value of a mapping. -/
def Place.entry : Place := ⟨true, true⟩

/-- Between brackets. -/
def Place.flow : Place := ⟨false, false⟩

/-- Is the value of an entry left out before this token? -/
def endsEntry : TokenContent → Bool
  | .key | .value | .blockEnd => true
  | _ => false

mutual

/-- The node at the front. -/
def node (fuel : Nat) (place : Place) (c : Composer) : Except Problem (Node × Composer) :=
  match fuel with
  | 0 => c.refuse "did not find expected node content"
  | fuel + 1 =>
    match c.head with
    | .reference name =>
      match c.anchors.lookup name with
      | some found => .ok (found, c.skip)
      | none => c.refuse "unknown anchor"
    | _ => do
      let start := c.position
      let (p, c) ← c.properties
      let (found, c) ← content fuel place p start c
      .ok (found, c.bind p.anchor found)

/-- A node behind its properties, which begins at a position. -/
def content (fuel : Nat) (place : Place) (p : Properties) (start : Position) (c : Composer) :
    Except Problem (Node × Composer) :=
  match fuel with
  | 0 => c.refuse "did not find expected node content"
  | fuel + 1 =>
    match c.head with
    | .scalar text style => .ok (.scalar text style p.tag start, c.skip)
    | .flowSequenceStart => do
      let (items, c) ← flowItems fuel true [] c.skip
      .ok (.sequence items start, c)
    | .flowMappingStart => do
      let (entries, c) ← flowEntries fuel true [] c.skip
      .ok (.mapping entries start, c)
    | other =>
      if place.allowsDashes && other == .blockEntry then do
        let (items, c) ← dashItems fuel [] c
        .ok (.sequence items start, c)
      else if place.allowsBlock && other == .blockSequenceStart then do
        let (items, c) ← blockItems fuel [] c.skip
        .ok (.sequence items start, c)
      else if place.allowsBlock && other == .blockMappingStart then do
        let (entries, c) ← blockEntries fuel [] c.skip
        .ok (.mapping entries start, c)
      else if p.anchor.isSome || p.tag.isSome then
        .ok (.scalar "" .plain p.tag start, c)
      else c.refuse "did not find expected node content"

/-- The items of an indented list; `before` are those read, the last one first. -/
def blockItems (fuel : Nat) (before : List Node) (c : Composer) :
    Except Problem (List Node × Composer) :=
  match fuel with
  | 0 => c.refuse "did not find expected '-' indicator"
  | fuel + 1 =>
    match c.head with
    | .blockEntry =>
      let next := c.skip
      match next.head with
      | .blockEntry | .blockEnd => blockItems fuel (Node.empty next.position :: before) next
      | _ => do
        let (item, c) ← node fuel .item next
        blockItems fuel (item :: before) c
    | .blockEnd => .ok (before.reverse, c.skip)
    | _ => c.refuse "did not find expected '-' indicator"

/-- The items of a list that is not indented. -/
def dashItems (fuel : Nat) (before : List Node) (c : Composer) :
    Except Problem (List Node × Composer) :=
  match fuel with
  | 0 => c.refuse "did not find expected '-' indicator"
  | fuel + 1 =>
    match c.head with
    | .blockEntry =>
      let next := c.skip
      if next.head == .blockEntry || endsEntry next.head then
        dashItems fuel (Node.empty next.position :: before) next
      else do
        let (item, c) ← node fuel .item next
        dashItems fuel (item :: before) c
    | _ => .ok (before.reverse, c)

/-- The entries of a mapping in a block. -/
def blockEntries (fuel : Nat) (before : List (Node × Node)) (c : Composer) :
    Except Problem (List (Node × Node) × Composer) :=
  match fuel with
  | 0 => c.refuse "did not find expected key"
  | fuel + 1 =>
    match c.head with
    | .key => do
      let (key, c) ← entryPart fuel c.skip
      let (value, c) ← blockValue fuel c
      blockEntries fuel ((key, value) :: before) c
    | .blockEnd => .ok (before.reverse, c.skip)
    | _ => c.refuse "did not find expected key"

/-- A key or value in a block, which may be left out. -/
def entryPart (fuel : Nat) (c : Composer) : Except Problem (Node × Composer) :=
  match fuel with
  | 0 => c.refuse "did not find expected key"
  | fuel + 1 =>
    if endsEntry c.head then .ok (Node.empty c.position, c) else node fuel .entry c

/-- The value of an entry in a block, with its colon. -/
def blockValue (fuel : Nat) (c : Composer) : Except Problem (Node × Composer) :=
  match fuel with
  | 0 => c.refuse "did not find expected key"
  | fuel + 1 =>
    match c.head with
    | .value => entryPart fuel c.skip
    | _ => .ok (Node.empty c.position, c)

/-- The items of a list in brackets. -/
def flowItems (fuel : Nat) (isFirst : Bool) (before : List Node) (c : Composer) :
    Except Problem (List Node × Composer) :=
  match fuel with
  | 0 => c.refuse "did not find expected ',' or ']'"
  | fuel + 1 =>
    if c.head == .flowSequenceEnd then .ok (before.reverse, c.skip)
    else if !isFirst && c.head != .flowEntry then c.refuse "did not find expected ',' or ']'"
    else
      let c := if isFirst then c else c.skip
      match c.head with
      | .flowSequenceEnd => .ok (before.reverse, c.skip)
      | .key => do
        let start := c.position
        let (key, c) ← flowPart fuel .flowSequenceEnd c.skip
        let (value, c) ← flowValue fuel .flowSequenceEnd c
        flowItems fuel false (.mapping [(key, value)] start :: before) c
      | _ => do
        let (item, c) ← node fuel .flow c
        flowItems fuel false (item :: before) c

/-- The entries of a mapping in brackets. -/
def flowEntries (fuel : Nat) (isFirst : Bool) (before : List (Node × Node)) (c : Composer) :
    Except Problem (List (Node × Node) × Composer) :=
  match fuel with
  | 0 => c.refuse "did not find expected ',' or '\x7d'"
  | fuel + 1 =>
    if c.head == .flowMappingEnd then .ok (before.reverse, c.skip)
    else if !isFirst && c.head != .flowEntry then c.refuse "did not find expected ',' or '\x7d'"
    else
      let c := if isFirst then c else c.skip
      match c.head with
      | .flowMappingEnd => .ok (before.reverse, c.skip)
      | .key => do
        let (key, c) ← flowPart fuel .flowMappingEnd c.skip
        let (value, c) ← flowValue fuel .flowMappingEnd c
        flowEntries fuel false ((key, value) :: before) c
      | _ => do
        let (key, c) ← node fuel .flow c
        flowEntries fuel false ((key, Node.empty c.position) :: before) c

/-- A key in brackets, which may be left out. -/
def flowPart (fuel : Nat) (closing : TokenContent) (c : Composer) :
    Except Problem (Node × Composer) :=
  match fuel with
  | 0 => c.refuse "did not find expected node content"
  | fuel + 1 =>
    if c.head == .value || c.head == .flowEntry || c.head == closing then
      .ok (Node.empty c.position, c)
    else node fuel .flow c

/-- The value of an entry in brackets, with its colon; both may be left out. -/
def flowValue (fuel : Nat) (closing : TokenContent) (c : Composer) :
    Except Problem (Node × Composer) :=
  match fuel with
  | 0 => c.refuse "did not find expected node content"
  | fuel + 1 =>
    match c.head with
    | .value => flowPart fuel closing c.skip
    | _ => .ok (Node.empty c.position, c)

end

/-! ### Documents -/

/-- The handles that are known without a directive. -/
def standardHandles : List (String × String) :=
  [("!", "!"), ("!!", "tag:yaml.org,2002:")]

/-- The directives in front of a document. The version is given at most once, and a handle
is introduced at most once. -/
def directives (hasVersion : Bool) (introduced : List (String × String)) :
    List Token → Except Problem (List (String × String) × List Token)
  | ⟨.version major minor, position⟩ :: rest =>
    if hasVersion then .error ⟨"found duplicate %YAML directive", position⟩
    else if major == 1 && (minor == 1 || minor == 2) then directives true introduced rest
    else .error ⟨"found incompatible YAML document", position⟩
  | ⟨.tagHandle handle expansion, position⟩ :: rest =>
    if (introduced.lookup handle).isSome then
      .error ⟨"found duplicate %TAG directive", position⟩
    else directives hasVersion ((handle, expansion) :: introduced) rest
  | tokens => .ok (introduced, tokens)

/-- Is the content of a document left out before this token? -/
def endsDocument : TokenContent → Bool
  | .version _ _ | .tagHandle _ _ | .documentStart | .documentEnd | .streamEnd => true
  | _ => false

/-- The root of a document behind its start. -/
def root (c : Composer) : Except Problem (Node × Composer) :=
  if endsDocument c.head then .ok (Node.empty c.position, c)
  else node (4 * c.tokens.length + 4) .item c

/-- The document at the front, if there is one. One that starts without a mark must have
content. -/
def document (tokens : List Token) : Except Problem (Option (Node × List Token)) := do
  let (introduced, rest) ← directives false [] tokens
  let start : Composer :=
    { tokens := rest, anchors := [], handles := introduced ++ standardHandles }
  match start.head with
  | .streamEnd =>
    if rest.length == tokens.length then .ok none
    else start.refuse "did not find expected <document start>"
  | .documentStart => do
    let (found, c) ← start.skip.root
    .ok (some (found, c.tokens))
  | _ =>
    if rest.length == tokens.length then do
      let (found, c) ← node (4 * rest.length + 4) .item start
      .ok (some (found, c.tokens))
    else start.refuse "did not find expected <document start>"

end Composer

/-- The tokens without the marks of document ends at their front. -/
def skipDocumentEnds (tokens : List Token) : List Token :=
  tokens.dropWhile fun token => token.content == .documentEnd

/-- The one document of a text; there is none if the text holds only comments. -/
def document? (text : String) : Except Problem (Option Node) := do
  match ← Composer.document (← tokens text) with
  | none => .ok none
  | some (found, rest) =>
    match (skipDocumentEnds rest).map Token.content with
    | [TokenContent.streamEnd] => .ok (some found)
    | _ => .error ⟨"deserializing from YAML containing more than one document is not supported",
        ⟨1, 0⟩⟩

end PyStyle.Yaml
