/-!
# Rosters

Members that are called when an element of a kind they asked for comes by, in the order in
which they signed up. A member may ask for one kind several times and is still called once.

- `Routes` — for each kind, the places of the members to call;
- `Routes.enter` — enter a place for a kind, once;
- `Roster` — the members in order, with routes that lead to members only;
- `Roster.add`, `Roster.membersFor` — sign a member up, and the members to call for a kind;
- `Roster.membersFor_add` — a new member is called last, for the kinds it asked for.
-/

namespace PyStyle

/-- For each kind, the places of the members to call, in order. -/
abbrev Routes (Kind : Type) := List (Kind × List Nat)

namespace Routes

variable {Kind : Type} [DecidableEq Kind]

/-- The places entered for a kind. -/
def places (routes : Routes Kind) (kind : Kind) : List Nat :=
  (routes.lookup kind).getD []

/-- Enter a place for a kind, unless it is there already. -/
def enter (place : Nat) (kind : Kind) : Routes Kind → Routes Kind
  | [] => [(kind, [place])]
  | (known, entered) :: rest =>
    if known = kind then
      (known, if entered.contains place then entered else entered ++ [place]) :: rest
    else (known, entered) :: enter place kind rest

/-- Enter a place for several kinds, one after the other. -/
def enterAll (place : Nat) (kinds : List Kind) (routes : Routes Kind) : Routes Kind :=
  kinds.foldl (fun routes kind => enter place kind routes) routes

theorem places_cons (known kind : Kind) (entered : List Nat) (rest : Routes Kind) :
    places ((known, entered) :: rest) kind
      = if known = kind then entered else places rest kind := by
  unfold places
  by_cases h : known = kind
  · subst h
    rw [List.lookup_cons_self, if_pos rfl, Option.getD_some]
  · have hne : (kind == known) = false := by simpa using Ne.symm h
    rw [List.lookup_cons, hne, if_neg h]

/-- Entering a place changes the route of one kind, and only if the place is new to it. -/
theorem places_enter (place : Nat) (kind k : Kind) (routes : Routes Kind) :
    (enter place kind routes).places k
      = if k = kind ∧ place ∉ routes.places k then routes.places k ++ [place]
        else routes.places k := by
  induction routes with
  | nil =>
    rw [enter, places_cons]
    by_cases h : k = kind
    · simp [h, places]
    · simp [h, Ne.symm h, places]
  | cons route rest ih =>
    obtain ⟨known, entered⟩ := route
    rw [enter]
    by_cases hk : known = kind
    · subst hk
      rw [if_pos rfl, places_cons, places_cons]
      by_cases h : known = k
      · subst h
        by_cases hp : place ∈ entered <;> simp [hp]
      · simp [h, Ne.symm h]
    · rw [if_neg hk, places_cons, places_cons, ih]
      by_cases h : known = k
      · subst h
        simp [hk]
      · simp [h]

/-- However often a kind is listed, the place is entered for it once. -/
theorem places_enterAll (place : Nat) (kinds : List Kind) (k : Kind) (routes : Routes Kind) :
    (enterAll place kinds routes).places k
      = if k ∈ kinds ∧ place ∉ routes.places k then routes.places k ++ [place]
        else routes.places k := by
  induction kinds generalizing routes with
  | nil => simp [enterAll]
  | cons kind kinds ih =>
    show (enterAll place kinds (enter place kind routes)).places k = _
    rw [ih, places_enter]
    by_cases hk : k = kind
    · by_cases hp : place ∈ routes.places k <;> simp [hk, hk ▸ hp]
    · simp [hk]

end Routes

/-- Members in the order in which they signed up, and the routes that lead to them. -/
structure Roster (Kind Member : Type) [DecidableEq Kind] where
  members : List Member
  routes : Routes Kind
  /-- Every route leads to members. -/
  places_lt : ∀ kind, ∀ place ∈ routes.places kind, place < members.length

namespace Roster

variable {Kind Member : Type} [DecidableEq Kind]

/-- Nobody signed up. -/
def empty : Roster Kind Member :=
  { members := [], routes := [], places_lt := by simp [Routes.places] }

/-- The place of a new member is on no route yet. -/
theorem length_not_mem_places (roster : Roster Kind Member) (kind : Kind) :
    roster.members.length ∉ roster.routes.places kind := fun h =>
  Nat.lt_irrefl _ (roster.places_lt kind _ h)

/-- Sign up a member for some kinds. -/
def add (roster : Roster Kind Member) (kinds : List Kind) (member : Member) :
    Roster Kind Member where
  members := roster.members ++ [member]
  routes := roster.routes.enterAll roster.members.length kinds
  places_lt kind place hplace := by
    rw [Routes.places_enterAll] at hplace
    rw [List.length_append, List.length_singleton]
    split at hplace
    · rcases List.mem_append.mp hplace with h | h
      · exact Nat.lt_succ_of_lt (roster.places_lt kind place h)
      · rw [List.mem_singleton.mp h]
        exact Nat.lt_succ_self _
    · exact Nat.lt_succ_of_lt (roster.places_lt kind place hplace)

/-- The members to call for an element of a kind. -/
def membersFor (roster : Roster Kind Member) (kind : Kind) : List Member :=
  (roster.routes.places kind).pmap (fun place h => roster.members.get ⟨place, h⟩)
    (roster.places_lt kind)

/-- A new member is called behind all others, once, for the kinds it asked for. -/
theorem membersFor_add (roster : Roster Kind Member) (kinds : List Kind) (member : Member)
    (kind : Kind) :
    (roster.add kinds member).membersFor kind
      = roster.membersFor kind ++ if kind ∈ kinds then [member] else [] := by
  have hplaces : (roster.add kinds member).routes.places kind
      = roster.routes.places kind
        ++ if kind ∈ kinds then [roster.members.length] else [] := by
    show (Routes.enterAll roster.members.length kinds roster.routes).places kind = _
    rw [Routes.places_enterAll]
    by_cases hk : kind ∈ kinds <;> simp [hk, roster.length_not_mem_places kind]
  unfold membersFor
  simp only [hplaces, List.pmap_append]
  congr 1
  · -- The old places lie below the new one, so they lead where they led before.
    refine List.pmap_congr_left _ fun place _ h₁ h₂ => ?_
    exact List.getElem_append_left h₂
  · by_cases hk : kind ∈ kinds <;> simp [hk, add]

end Roster

end PyStyle
