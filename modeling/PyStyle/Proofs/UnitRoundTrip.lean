import PyStyle.Proofs.JsonText
import PyStyle.SourceUnit.Load
import PyStyle.SourceUnit.Printed

/-!
# Units survive being written

A unit that is written as JSON and read again is the same unit, whatever its tree and its tokens
hold, as long as it is not nested deeper than the reader allows.

- `Printed.depth` — how deep records and lists lie within each other;
- `SourceUnit.Fits` — all positions of a unit are 64-bit numbers;
- `JsonValue.members?_record` — a record is read member by member, whatever is left out;
- `Node.ofJson_printed`, `Token.ofJson_printed` — nodes and tokens are read again;
- `SourceUnit.load_printed` — units are read again.
-/

namespace PyStyle

/-! ### Nesting -/

namespace Printed

mutual

/-- How deep records and lists lie within each other. -/
def depth : Printed → Nat
  | .natural _ => 0
  | .bool _ => 0
  | .text _ => 0
  | .list items => depthItems items + 1
  | .record members => depthMembers members + 1

/-- The depth of the deepest item. -/
def depthItems : List Printed → Nat
  | [] => 0
  | item :: rest => max item.depth (depthItems rest)

/-- The depth of the deepest member. -/
def depthMembers : List (String × Printed) → Nat
  | [] => 0
  | (_, item) :: rest => max item.depth (depthMembers rest)

end

theorem depth_le_depthItems {item : Printed} {items : List Printed} (h : item ∈ items) :
    item.depth ≤ depthItems items := by
  induction items with
  | nil => cases h
  | cons first rest ih =>
    rw [depthItems]
    rcases List.mem_cons.mp h with rfl | h
    · exact Nat.le_max_left ..
    · exact Nat.le_trans (ih h) (Nat.le_max_right ..)

theorem depth_le_depthMembers {key : String} {item : Printed} {members : List (String × Printed)}
    (h : (key, item) ∈ members) : item.depth ≤ depthMembers members := by
  induction members with
  | nil => cases h
  | cons first rest ih =>
    obtain ⟨firstKey, first⟩ := first
    rw [depthMembers]
    rcases List.mem_cons.mp h with h | h
    · cases h
      exact Nat.le_max_left ..
    · exact Nat.le_trans (ih h) (Nat.le_max_right ..)

end Printed

/-! ### Records -/

theorem lookup_cons_of_ne {β : Type} {key first : String} (h : key ≠ first) (value : β)
    (rest : List (String × β)) : ((first, value) :: rest).lookup key = rest.lookup key := by
  rw [List.lookup_cons, beq_eq_false_iff_ne.mpr h]

namespace JsonValue

/-- A member with a name that is known and not there yet is added. -/
theorem insertMember?_new {names : List String} {known : List (String × JsonValue)} {key : String}
    (value : JsonValue) (hname : key ∈ names) (hnew : known.lookup key = none) :
    insertMember? names known (some key, value) = some ((key, value) :: known) := by
  simp [insertMember?, hname, hnew]

/-- So are all members of a record whose names are different. -/
theorem foldlM_insertMember {names : List String} (members : List (String × Printed))
    (known : List (String × JsonValue)) (hnames : ∀ member ∈ members, member.1 ∈ names)
    (hnodup : (members.map Prod.fst).Nodup)
    (hnew : ∀ member ∈ members, known.lookup member.1 = none) :
    ∃ result, (Printed.memberValues members).foldlM (insertMember? names) known = some result
      ∧ ∀ key, result.lookup key = ((members.lookup key).map (·.value)).or (known.lookup key) := by
  -- What was read before is arbitrary, as long as none of the names to come is in it.
  induction members generalizing known with
  | nil => exact ⟨known, by simp [Printed.memberValues], by simp⟩
  | cons member rest ih =>
    obtain ⟨first, item⟩ := member
    obtain ⟨hfirst, hrest⟩ := List.nodup_cons.mp hnodup
    have hne : ∀ member ∈ rest, member.1 ≠ first :=
      fun member hmember h => hfirst (List.mem_map.mpr ⟨member, hmember, h⟩)
    obtain ⟨result, hresult, hlookup⟩ := ih ((first, item.value) :: known)
      (fun member h => hnames member (List.mem_cons_of_mem _ h)) hrest (by
        intro member h
        rw [lookup_cons_of_ne (hne member h)]
        exact hnew member (List.mem_cons_of_mem _ h))
    refine ⟨result, ?_, ?_⟩
    · rw [Printed.memberValues, List.foldlM_cons,
        insertMember?_new _ (hnames _ (List.mem_cons_self ..)) (hnew _ (List.mem_cons_self ..))]
      exact hresult
    · intro key
      rw [hlookup key]
      by_cases hkey : key = first
      · subst hkey
        have hnone : rest.lookup key = none := by
          rw [List.lookup_eq_none_iff]
          intro member h
          simpa using (hne member h).symm
        simp [hnone]
      · rw [lookup_cons_of_ne hkey, lookup_cons_of_ne hkey]

/-- **A record is read member by member**, if its members are known and no two have one name. -/
theorem members?_record (names : List String) (members : List (String × Printed))
    (hnames : ∀ member ∈ members, member.1 ∈ names) (hnodup : (members.map Prod.fst).Nodup) :
    ∃ known, members? names (Printed.record members).value = some known
      ∧ ∀ key, known.lookup key = (members.lookup key).map (·.value) := by
  obtain ⟨known, hknown, hlookup⟩ := foldlM_insertMember members [] hnames hnodup (by simp)
  refine ⟨known, ?_, fun key => ?_⟩
  · rw [Printed.value, members?]
    exact hknown
  · rw [hlookup key]
    simp

end JsonValue

/-! ### Kinds and positions -/

/-- **Every kind of node has a name of its own.** -/
theorem NodeKind.ofLabel?_label (kind : NodeKind) : NodeKind.ofLabel? kind.label = some kind := by
  cases kind <;> decide

/-- **Every kind of token has a name of its own.** -/
theorem TokenKind.ofLabel?_label (kind : TokenKind) :
    TokenKind.ofLabel? kind.label = some kind := by
  cases kind <;> decide

/-- The line and the column are 64-bit numbers. -/
def Position.Fits (position : Position) : Prop :=
  position.line < UInt64.size ∧ position.column < UInt64.size

instance (position : Position) : Decidable position.Fits :=
  inferInstanceAs (Decidable (_ ∧ _))

/-- A position that fits into words is read back. -/
theorem Position.ofJson_printed {position : Position} (hfits : position.Fits) {levels : Nat}
    (hlevels : 0 < levels) :
    Position.ofJson levels (Printed.record position.printed).value = some position := by
  obtain ⟨known, hknown, hlookup⟩ := JsonValue.members?_record ["line", "column"] position.printed
    (by simp [Position.printed]) (by simp [Position.printed])
  have hline : known.lookup "line" = some (.number (some position.line)) := by
    rw [hlookup]
    rfl
  have hcolumn : known.lookup "column" = some (.number (some position.column)) := by
    rw [hlookup]
    rfl
  rw [Position.ofJson, if_neg (by omega), hknown]
  simp [hline, hcolumn, JsonValue.size?, hfits.1, hfits.2]

/-- Items that are read one by one are read as a list. -/
theorem mapM_map_of_forall {α : Type} {decode : JsonValue → Option α} {encode : α → Printed}
    {items : List α} (h : ∀ item ∈ items, decode (encode item).value = some item) :
    (Printed.values (items.map encode)).mapM decode = some items := by
  induction items with
  | nil => rfl
  | cons item rest ih =>
    obtain ⟨hitem, hrest⟩ := List.forall_mem_cons.mp h
    rw [List.map_cons, Printed.values, List.mapM_cons, hitem, ih hrest]
    rfl

/-! ### Nodes -/

namespace Node

theorem printedAll_eq (nodes : List Node) : printedAll nodes = nodes.map printed := by
  induction nodes with
  | nil => rfl
  | cons node rest ih => rw [printedAll, ih, List.map_cons]

/-- The members of a node, some of which may be left out. -/
def printedMembers (node : Node) : List (String × Printed) :=
  [("kind", .text node.kind.label)] ++ optionalText "name" node.name
    ++ [("position", .record node.position.printed)]
    ++ optionalList "children" (node.children.map printed)

theorem printed_eq (node : Node) : node.printed = .record node.printedMembers := by
  cases node
  rw [printed, printedAll_eq, printedMembers]

/-- The names of the members that a node has to write. -/
def writtenNames (node : Node) : List String :=
  ["kind"] ++ (if node.name.isSome then ["name"] else []) ++ ["position"]
    ++ (if node.children.isEmpty then [] else ["children"])

theorem names_printedMembers (node : Node) :
    node.printedMembers.map Prod.fst = node.writtenNames := by
  obtain ⟨kind, name, position, children⟩ := node
  cases name <;> cases children <;> simp [printedMembers, optionalText, optionalList, writtenNames]

theorem sublist_writtenNames (node : Node) :
    node.writtenNames.Sublist ["kind", "name", "position", "children"] := by
  rw [writtenNames]
  split <;> split <;> simp

/-- What a reader finds in the record of a node. -/
theorem known_printed (node : Node) :
    ∃ known, JsonValue.members? ["kind", "name", "position", "children"] node.printed.value
        = some known
      ∧ known.lookup "kind" = some (.string (some node.kind.label))
      ∧ known.lookup "name" = node.name.map (fun t => .string (some t))
      ∧ known.lookup "position" = some (Printed.record node.position.printed).value
      ∧ known.lookup "children" = if node.children.isEmpty then none
          else some (.array (Printed.values (node.children.map printed))) := by
  have hnames := node.sublist_writtenNames
  rw [← node.names_printedMembers] at hnames
  obtain ⟨known, hknown, hlookup⟩ := JsonValue.members?_record _ node.printedMembers
    (fun member h => hnames.subset (List.mem_map_of_mem h)) (hnames.nodup (by decide))
  refine ⟨known, by rw [printed_eq, hknown], ?_⟩
  simp only [hlookup]
  obtain ⟨kind, name, position, children⟩ := node
  cases name <;> cases children <;> exact ⟨rfl, rfl, rfl, rfl⟩

theorem mem_preorder_of_child {node child : Node} (h : child ∈ node.children) {n : Node}
    (hn : n ∈ child.preorder) : n ∈ node.preorder := by
  obtain ⟨before, after, hsplit⟩ := List.append_of_mem h
  rw [preorder_eq, hsplit, preorderAll_append, preorderAll]
  exact List.mem_cons_of_mem _ (List.mem_append_right _ (List.mem_append_left _ hn))

theorem depth_child {node child : Node} (h : child ∈ node.children) :
    child.printed.depth + 2 ≤ node.printed.depth := by
  have hlist : ("children", .list (node.children.map printed)) ∈ node.printedMembers := by
    have hsome : node.children.map printed ≠ [] := by
      simpa using List.ne_nil_of_mem h
    rw [printedMembers, optionalList, if_neg (by simpa using hsome)]
    exact List.mem_append_right _ (List.mem_singleton_self _)
  have hmember := Printed.depth_le_depthMembers hlist
  have hitem := Printed.depth_le_depthItems (List.mem_map_of_mem (f := printed) h)
  rw [Printed.depth] at hmember
  rw [printed_eq node, Printed.depth]
  omega

/-- A node is a record with a list of children in it. -/
theorem two_le_depth (node : Node) : 2 ≤ node.printed.depth := by
  have hposition : ("position", .record node.position.printed) ∈ node.printedMembers := by
    simp [printedMembers]
  have hmember := Printed.depth_le_depthMembers hposition
  rw [Printed.depth] at hmember
  rw [printed_eq node, Printed.depth]
  omega

/-- **A node is read again**, by a reader that goes as deep as the node is nested. -/
theorem ofJson_printed (levels : Nat) (node : Node) (hdepth : node.printed.depth ≤ levels)
    (hfits : ∀ n ∈ node.preorder, n.position.Fits) :
    Node.ofJson levels node.printed.value = some node := by
  induction levels using Nat.strongRecOn generalizing node with
  | _ levels ih =>
    have htwo := node.two_le_depth
    obtain ⟨inner, rfl⟩ : ∃ inner, levels = inner + 2 := ⟨levels - 2, by omega⟩
    obtain ⟨known, hknown, hkind, hname, hposition, hchildren⟩ := node.known_printed
    have hself : node ∈ node.preorder := by
      rw [preorder_eq]
      exact List.mem_cons_self ..
    -- A child lies in the list of children, and so two levels deeper.
    have hread : ∀ child ∈ node.children, Node.ofJson inner child.printed.value = some child := by
      intro child hchild
      have hchildDepth := depth_child hchild
      refine ih inner (by omega) child (by omega) fun n hn => ?_
      exact hfits n (mem_preorder_of_child hchild hn)
    have hpos : Position.ofJson (inner + 1) (Printed.record node.position.printed).value
        = some node.position := Position.ofJson_printed (hfits node hself) (by omega)
    have hnameRead : nameOfJson (known.lookup "name") = some node.name := by
      rw [hname]
      cases node.name <;> rfl
    have hchildrenRead : childrenOfJson (Node.ofJson inner) (known.lookup "children")
        = some node.children := by
      rw [hchildren]
      cases hnil : node.children with
      | nil => rfl
      | cons child rest =>
        rw [hnil] at hread
        exact mapM_map_of_forall hread
    rw [Node.ofJson, hknown]
    simp only [hkind, hposition, hpos, hnameRead, hchildrenRead, JsonValue.label?,
      NodeKind.ofLabel?_label, bind, Option.bind]
    cases node
    rfl

end Node

/-! ### Tokens and units -/

/-- **A token is read again.** -/
theorem Token.ofJson_printed {token : Token} (hfits : token.position.Fits) {levels : Nat}
    (hlevels : 2 ≤ levels) : Token.ofJson levels token.printed.value = some token := by
  obtain ⟨inner, rfl⟩ : ∃ inner, levels = inner + 2 := ⟨levels - 2, by omega⟩
  obtain ⟨known, hknown, hlookup⟩ := JsonValue.members?_record ["kind", "text", "position"]
    [("kind", .text token.kind.label), ("text", .text token.text),
      ("position", .record token.position.printed)] (by simp) (by simp)
  have hpos : Position.ofJson (inner + 1) (Printed.record token.position.printed).value
      = some token.position := Position.ofJson_printed hfits (by omega)
  have hkind : known.lookup "kind" = some (.string (some token.kind.label)) := by
    rw [hlookup]
    rfl
  have htext : known.lookup "text" = some (.string (some token.text)) := by
    rw [hlookup]
    rfl
  have hposition : known.lookup "position"
      = some (Printed.record token.position.printed).value := by
    rw [hlookup]
    rfl
  rw [Token.ofJson, Token.printed, hknown]
  simp only [hkind, htext, hposition, hpos, JsonValue.label?, JsonValue.text?,
    TokenKind.ofLabel?_label, bind, Option.bind]
  rfl

namespace SourceUnit

/-- All positions of the unit are 64-bit numbers. -/
def Fits (unit : SourceUnit) : Prop :=
  (∀ node ∈ unit.tree.preorder, node.position.Fits) ∧ ∀ token ∈ unit.tokens, token.position.Fits

theorem ofJsonValue_printed {unit : SourceUnit} (hfits : unit.Fits)
    (hdepth : unit.printed.depth ≤ jsonLevels) : ofJsonValue unit.printed.value = some unit := by
  obtain ⟨known, hknown, hlookup⟩ := JsonValue.members?_record ["path", "tree", "tokens"]
    [("path", .text unit.path), ("tree", unit.tree.printed),
      ("tokens", .list (unit.tokens.map (·.printed)))] (by simp) (by simp)
  have hpath : known.lookup "path" = some (.string (some unit.path)) := by
    rw [hlookup]
    rfl
  have htree : known.lookup "tree" = some unit.tree.printed.value := by
    rw [hlookup]
    rfl
  have htokens : known.lookup "tokens"
      = some (.array (Printed.values (unit.tokens.map (·.printed)))) := by
    rw [hlookup]
    rfl
  have htreeRead : Node.ofJson (jsonLevels - 1) unit.tree.printed.value = some unit.tree := by
    have htree : ("tree", unit.tree.printed) ∈ [("path", .text unit.path),
        ("tree", unit.tree.printed), ("tokens", .list (unit.tokens.map (·.printed)))] := by
      simp
    have hmember := Printed.depth_le_depthMembers htree
    rw [SourceUnit.printed, Printed.depth] at hdepth
    exact Node.ofJson_printed _ _ (by omega) hfits.1
  have htokensRead : (Printed.values (unit.tokens.map (·.printed))).mapM
      (Token.ofJson (jsonLevels - 2)) = some unit.tokens :=
    mapM_map_of_forall fun token h => Token.ofJson_printed (hfits.2 token h) (by decide)
  rw [ofJsonValue, SourceUnit.printed, hknown]
  simp only [hpath, htree, htokens, htreeRead, htokensRead, JsonValue.text?, bind, Option.bind]
  rfl

/-- A text that is written to a file is found there again. -/
theorem textOf_toUTF8 (text : String) : textOf text.toUTF8 = .ok text := by
  have hvalid : text.toUTF8.IsValidUTF8 := text.isValidUTF8
  rw [textOf, String.fromUTF8?, dif_pos hvalid]
  rfl

/-- **Units survive being written.** A unit that names its path, whose positions are 64-bit numbers
and which is nested no deeper than the reader goes, is the unit of every JSON file whose text
stands for its record, and so of the file that it is written to. What its nodes do not have is not
written. -/
theorem load_printed {path : String} (hjson : Path.extension path = "json") {unit : SourceUnit}
    (hpath : unit.path ≠ "") (hfits : unit.Fits) (hdepth : unit.printed.depth ≤ jsonLevels) :
    (∀ text, JsonValue.parse text = .ok unit.printed.value →
        SourceUnit.load path (.ok text.toUTF8) = .ok unit)
      ∧ SourceUnit.load path (.ok unit.printed.render.toUTF8) = .ok unit
      ∧ ∀ node ∈ unit.tree.preorder,
          ∃ members, node.printed = .record members
            ∧ members.map Prod.fst = node.writtenNames := by
  have hload : ∀ text, JsonValue.parse text = .ok unit.printed.value →
      SourceUnit.load path (.ok text.toUTF8) = .ok unit := by
    intro text htext
    have hunit : SourceUnit.ofJson text = .ok unit := by
      rw [SourceUnit.ofJson, htext]
      simp only [ofJsonValue_printed hfits hdepth]
    have hempty : unit.path.isEmpty = false := by
      simpa using hpath
    have hread : SourceUnit.loadJson path text = .ok unit := by
      rw [SourceUnit.loadJson, hunit]
      simp [hempty]
    -- Unfolding by the equation of `load` would split it at every extension.
    delta SourceUnit.load
    simp only [hjson, Except.bind, textOf_toUTF8, hread]
  refine ⟨hload, hload _ (JsonValue.parse_render _), fun node _ => ?_⟩
  exact ⟨node.printedMembers, node.printed_eq, node.names_printedMembers⟩

/-- A unit with an unnamed function in it, with texts that need escapes, and with the last position
there is. -/
def lastPosition : SourceUnit :=
  { path := "naïve.py"
    tree := .plain .module ⟨1, 0⟩
      [.named .functionDef "" ⟨1, 0⟩ [.plain .block ⟨UInt64.size - 1, UInt64.size - 1⟩ []]]
    tokens := [⟨.string, "\"\\→\x07\"", ⟨1, 0⟩⟩, ⟨.newline, "\r\n", ⟨1, UInt64.size - 1⟩⟩] }

/-- The largest numbers that words can hold are read back as well. -/
theorem load_lastPosition :
    SourceUnit.load "out/unit.json" (.ok lastPosition.printed.render.toUTF8)
      = .ok lastPosition := by
  refine (load_printed (by decide) (by decide) ⟨?_, ?_⟩ (by decide)).2.1
  · decide
  · decide

end SourceUnit

end PyStyle
