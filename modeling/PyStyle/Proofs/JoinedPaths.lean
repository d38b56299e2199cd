import Mathlib.Data.List.Basic
import PyStyle.Path

/-!
# Paths below a directory

A path is a text, and putting a name below a directory is putting texts together. What is meant is
a list of parts that grows by one at its end, whatever the directory looks like: empty, a slash, or
with slashes at its end.

- `Path.IsName` — the names that entries of a directory can have;
- `Path.parts_join`, `Path.parts_below` — names are added to the parts of a directory;
- `Path.extension_below` — the extension is that of the last name;
- `Path.below_empty` — from nowhere, the names are divided by slashes;
- `Path.partLt_irrefl`, `Path.partLt_trans`, `Path.partLt_trichotomy` — parts are strictly ordered;
- `Path.partsLe_total`, `Path.partsLe_trans`, `Path.partsLe_antisymm` — so paths are ordered by
  their parts.
-/

namespace PyStyle

namespace Path

/-- A name that an entry of a directory can have. -/
structure IsName (name : String) : Prop where
  ne_empty : name ≠ ""
  ne_here : name ≠ "."
  ne_up : name ≠ ".."
  no_slash : '/' ∉ name.toList

instance (name : String) : Decidable (IsName name) :=
  decidable_of_iff (name ≠ "" ∧ name ≠ "." ∧ name ≠ ".." ∧ '/' ∉ name.toList)
    ⟨fun ⟨h₁, h₂, h₃, h₄⟩ => ⟨h₁, h₂, h₃, h₄⟩,
      fun h => ⟨h.ne_empty, h.ne_here, h.ne_up, h.no_slash⟩⟩

/-- Where several names lead from a directory. -/
def below (directory : String) (names : List String) : String :=
  names.foldl join directory

theorem below_cons (directory name : String) (names : List String) :
    below directory (name :: names) = below (join directory name) names :=
  rfl

theorem below_concat (directory : String) (names : List String) (name : String) :
    below directory (names ++ [name]) = join (below directory names) name := by
  rw [below, List.foldl_append]
  rfl

/-! ### Pieces and parts -/

/-- A name has no slash in it, so it is one piece. -/
theorem pieces_of_isName {name : String} (h : IsName name) : pieces name = [name] := by
  have hslash : ∀ c ∈ name.toList, (c == '/') = false := by
    intro c hc
    exact beq_eq_false_iff_ne.mpr fun heq => h.no_slash (heq ▸ hc)
  rw [pieces, split, List.splitOn_eq_splitOnP, List.splitOnP_eq_singleton hslash]
  simp

/-- A text is cut at each of its slashes. -/
theorem pieces_append_slash (front behind : List Char) :
    pieces (String.ofList (front ++ '/' :: behind))
      = pieces (String.ofList front) ++ pieces (String.ofList behind) := by
  simp only [pieces, split, String.toList_ofList, List.splitOn_eq_splitOnP]
  rw [List.splitOnP_append_cons front behind (by decide), List.map_append]

theorem pieces_ne_nil (path : String) : pieces path ≠ [] := by
  simp [pieces, split, List.splitOn_ne_nil]

/-- A name is a part: it is no empty piece and none of the two that stand for directories. -/
theorem part?_of_isName {name : String} (h : IsName name) : part? name = some (.name name) := by
  unfold part?
  split
  next => exact absurd rfl h.ne_empty
  next => exact absurd rfl h.ne_here
  next => exact absurd rfl h.ne_up
  next => rfl

/-- The part that the first piece of a path stands for. -/
def firstPart? : String → Option PathPart
  | "" => some .root
  | "." => some .here
  | piece => part? piece

/-- The parts of a path, piece by piece; a single empty piece is no path. -/
theorem parts_eq {path piece : String} {rest : List String} (h : pieces path = piece :: rest)
    (hpath : piece = "" → rest ≠ []) :
    parts path = (firstPart? piece).toList ++ rest.filterMap part? := by
  unfold parts firstPart?
  rw [h]
  split
  next heq => cases heq
  next heq =>
    obtain ⟨rfl, rfl⟩ := List.cons.inj heq
    exact absurd rfl (hpath rfl)
  next heq =>
    obtain ⟨rfl, rfl⟩ := List.cons.inj heq
    rfl
  next heq =>
    obtain ⟨rfl, rfl⟩ := List.cons.inj heq
    rfl
  next hempty hroot hhere =>
    split
    next => exact absurd rfl (hroot rest)
    next => exact absurd rfl (hhere rest)
    next =>
      rw [List.filterMap_cons]
      cases part? piece <;> rfl

/-- A path ends with a slash if its last character is one. -/
theorem endsWith_slash_iff (path : String) :
    path.endsWith "/" = true ↔ ['/'] <:+ path.toList := by
  have h : path.toSlice.endsWith "/" = true ↔ "/".toList <:+ path.toSlice.copy.toList :=
    String.Slice.endsWith_string_iff
  rwa [String.copy_toSlice] at h

/-- **A name below a directory is one more part.** -/
theorem parts_join (directory : String) {name : String} (h : IsName name) :
    parts (join directory name) = parts directory ++ [.name name] := by
  have hpiece := pieces_of_isName h
  have hpart := part?_of_isName h
  rw [join]
  by_cases hempty : directory = ""
  · subst hempty
    have hfirst : firstPart? name = some (.name name) := by
      unfold firstPart?
      split
      next => exact absurd rfl h.ne_empty
      next => exact absurd rfl h.ne_here
      next => exact hpart
    rw [if_pos (by simp), String.empty_append, parts_eq hpiece fun hname => absurd hname h.ne_empty,
      hfirst]
    rfl
  have hisEmpty : directory.isEmpty = false := by simpa using hempty
  rw [hisEmpty, Bool.false_or]
  by_cases hslash : directory.endsWith "/" = true
  · -- The name takes the place of the empty piece behind the last slash.
    rw [if_pos hslash]
    obtain ⟨front, hfront⟩ := (endsWith_slash_iff directory).mp hslash
    obtain ⟨piece, rest, hpieces⟩ := List.exists_cons_of_ne_nil (pieces_ne_nil (.ofList front))
    have hdirectory : pieces directory = piece :: (rest ++ [""]) := by
      rw [← String.ofList_toList (s := directory), ← hfront, pieces_append_slash, hpieces]
      rfl
    have hjoined : pieces (directory ++ name) = piece :: (rest ++ [name]) := by
      have htext : directory ++ name = String.ofList (front ++ '/' :: name.toList) := by
        rw [← String.toList_inj, String.toList_append, String.toList_ofList, ← hfront]
        simp
      rw [htext, pieces_append_slash, hpieces, String.ofList_toList, hpiece]
      rfl
    have hnone : part? "" = none := rfl
    rw [parts_eq hdirectory (by simp), parts_eq hjoined (by simp)]
    simp [hpart, hnone]
  · rw [if_neg hslash]
    obtain ⟨piece, rest, hpieces⟩ := List.exists_cons_of_ne_nil (pieces_ne_nil directory)
    have hjoined : pieces (directory ++ "/" ++ name) = piece :: (rest ++ [name]) := by
      have htext : directory ++ "/" ++ name
          = String.ofList (directory.toList ++ '/' :: name.toList) := by
        rw [← String.toList_inj, String.toList_append, String.toList_append, String.toList_ofList]
        simp
      rw [htext, pieces_append_slash, String.ofList_toList, String.ofList_toList, hpieces, hpiece]
      rfl
    have hpath : piece = "" → rest ≠ [] := by
      rintro rfl rfl
      have hjoin : ['/'].intercalate (directory.toList.splitOn '/') = directory.toList :=
        List.intercalate_splitOn '/'
      have hsplit : directory.toList.splitOn '/' = [[]] := by
        have hmap := congrArg (List.map String.toList) hpieces
        simpa [pieces, split, Function.comp_def] using hmap
      rw [hsplit] at hjoin
      exact hempty (String.toList_eq_nil_iff.mp hjoin.symm)
    rw [parts_eq hpieces hpath, parts_eq hjoined (by simp)]
    simp [hpart]

/-- **Names lead down from the parts of a directory.** -/
theorem parts_below (directory : String) {names : List String} (h : ∀ name ∈ names, IsName name) :
    parts (below directory names) = parts directory ++ names.map .name := by
  induction names generalizing directory with
  | nil => simp [below]
  | cons name names ih =>
    rw [below_cons, ih _ fun other hother => h other (List.mem_cons_of_mem _ hother),
      parts_join directory (h name List.mem_cons_self)]
    simp

/-- The last part is the name, so the extension is looked for in the name. -/
theorem extension_join (directory : String) {name : String} (h : IsName name) :
    extension (join directory name) = (extensionOf? name).getD "" := by
  rw [extension, fileName?, parts_join directory h, List.getLast?_concat]
  rfl

/-- The extension is that of the last name, wherever the names start. -/
theorem extension_below (directory directory' : String) {names : List String}
    (hnames : names ≠ []) (h : ∀ name ∈ names, IsName name) :
    extension (below directory names) = extension (below directory' names) := by
  obtain ⟨front, name, rfl⟩ := (List.eq_nil_or_concat' _).resolve_left hnames
  have hname : IsName name := h name (by simp)
  rw [below_concat, below_concat, extension_join _ hname, extension_join _ hname]

/-! ### Texts -/

/-- Behind a name there is no slash yet, so the next name gets one. -/
theorem not_endsWith_slash (front : String) {name : String} (h : IsName name) :
    ¬ (front ++ name).endsWith "/" = true := by
  rw [endsWith_slash_iff, String.toList_append]
  rintro ⟨rest, hrest⟩
  have hne : name.toList ≠ [] := fun hnil => h.ne_empty (String.toList_eq_nil_iff.mp hnil)
  obtain ⟨chars, last, hlast⟩ := (List.eq_nil_or_concat' _).resolve_left hne
  rw [hlast, ← List.append_assoc] at hrest
  obtain ⟨-, heq⟩ := List.append_inj' hrest rfl
  exact h.no_slash (by rw [hlast, ← heq]; simp)

/-- A slash stands before each name, if none is there already. -/
theorem below_eq_intercalate {directory : String} {names : List String} (hempty : directory ≠ "")
    (hslash : ¬ directory.endsWith "/" = true) (h : ∀ name ∈ names, IsName name) :
    below directory names = "/".intercalate (directory :: names) := by
  induction names generalizing directory with
  | nil => rfl
  | cons name names ih =>
    have hname := h name List.mem_cons_self
    have hjoin : join directory name = directory ++ "/" ++ name := by
      rw [join, if_neg (by simp [hempty, hslash])]
    have hnonempty : directory ++ "/" ++ name ≠ "" := by
      intro heq
      have htext := congrArg String.toList heq
      simp at htext
    rw [below_cons, hjoin, ih hnonempty (not_endsWith_slash _ hname) fun other hother =>
      h other (List.mem_cons_of_mem _ hother)]
    rfl

/-- From nowhere, names are divided by slashes. -/
theorem below_empty {names : List String} (h : ∀ name ∈ names, IsName name) :
    below "" names = "/".intercalate names := by
  cases names with
  | nil => rfl
  | cons name names =>
    have hname := h name List.mem_cons_self
    have hjoin : join "" name = name := by
      rw [join, if_pos (by simp), String.empty_append]
    have hslash : ¬ name.endsWith "/" = true := by
      rw [← String.empty_append (s := name)]
      exact not_endsWith_slash "" hname
    rw [below_cons, hjoin, below_eq_intercalate hname.ne_empty hslash fun other hother =>
      h other (List.mem_cons_of_mem _ hother)]

/-! ### Order -/

/-- Names are ordered as texts. -/
theorem partLt_name_iff {a b : String} : partLt (.name a) (.name b) = true ↔ a < b :=
  decide_eq_true_iff

theorem partLt_irrefl (a : PathPart) : ¬ partLt a a = true := by
  cases a with
  | name a => exact fun h => String.lt_irrefl a (partLt_name_iff.mp h)
  | _ => decide

/-- The other parts come before all names, so only two kinds of parts have to be told apart. -/
theorem partLt_trans {a b c : PathPart} (hab : partLt a b = true) (hbc : partLt b c = true) :
    partLt a c = true := by
  cases c with
  | name z =>
    cases a with
    | name x =>
      cases b with
      | name y =>
        exact partLt_name_iff.mpr
          (String.lt_trans (partLt_name_iff.mp hab) (partLt_name_iff.mp hbc))
      | _ => cases hab
    | _ => rfl
  | _ =>
    -- Nothing comes behind a name but names, so there are none in front of such a part.
    cases b with
    | name y => cases hbc
    | _ =>
      cases a with
      | name x => cases hab
      | _ => revert hab hbc; decide

/-- Any two parts can be compared. -/
theorem partLt_trichotomy (a b : PathPart) : partLt a b = true ∨ a = b ∨ partLt b a = true := by
  cases a with
  | name x =>
    cases b with
    | name y =>
      rw [partLt_name_iff, partLt_name_iff, PathPart.name.injEq]
      by_cases hlt : x < y
      · exact .inl hlt
      · by_cases hgt : y < x
        · exact .inr (.inr hgt)
        · exact .inr (.inl (String.le_antisymm hgt hlt))
    | _ => exact .inr (.inr rfl)
  | _ =>
    cases b with
    | name y => exact .inl rfl
    | _ => decide

/-- Lists of parts are compared part by part, and the shorter one comes first. -/
theorem partsLe_total (as bs : List PathPart) : partsLe as bs = true ∨ partsLe bs as = true := by
  induction as generalizing bs with
  | nil => exact .inl rfl
  | cons a as ih =>
    cases bs with
    | nil => exact .inr rfl
    | cons b bs =>
      simp only [partsLe, Bool.or_eq_true, Bool.and_eq_true, beq_iff_eq]
      rcases partLt_trichotomy a b with hlt | rfl | hgt
      · exact .inl (.inl hlt)
      · exact (ih bs).imp (fun h => .inr ⟨rfl, h⟩) fun h => .inr ⟨rfl, h⟩
      · exact .inr (.inl hgt)

theorem partsLe_trans {as bs cs : List PathPart} (hab : partsLe as bs = true)
    (hbc : partsLe bs cs = true) : partsLe as cs = true := by
  induction as generalizing bs cs with
  | nil => rfl
  | cons a as ih =>
    cases bs with
    | nil => cases hab
    | cons b bs =>
      cases cs with
      | nil => cases hbc
      | cons c cs =>
        simp only [partsLe, Bool.or_eq_true, Bool.and_eq_true, beq_iff_eq] at hab hbc ⊢
        rcases hab with hab | ⟨rfl, hab⟩
        · rcases hbc with hbc | ⟨rfl, -⟩
          · exact .inl (partLt_trans hab hbc)
          · exact .inl hab
        · exact hbc.imp_right fun ⟨heq, hbc⟩ => ⟨heq, ih hab hbc⟩

theorem partsLe_antisymm {as bs : List PathPart} (hab : partsLe as bs = true)
    (hba : partsLe bs as = true) : as = bs := by
  induction as generalizing bs with
  | nil =>
    cases bs with
    | nil => rfl
    | cons b bs => cases hba
  | cons a as ih =>
    cases bs with
    | nil => cases hab
    | cons b bs =>
      simp only [partsLe, Bool.or_eq_true, Bool.and_eq_true, beq_iff_eq] at hab hba
      rcases hab with hab | ⟨rfl, hab⟩
      · -- Two parts cannot each come before the other.
        have hloop : partLt a a = true := by
          rcases hba with hba | ⟨rfl, -⟩
          · exact partLt_trans hab hba
          · exact hab
        exact absurd hloop (partLt_irrefl a)
      · rcases hba with hba | ⟨-, hba⟩
        · exact absurd hba (partLt_irrefl a)
        · rw [ih hab hba]

end Path

end PyStyle
