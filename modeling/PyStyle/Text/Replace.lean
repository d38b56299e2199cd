/-!
# Replacing parts of a text

- `replaceAll` — every occurrence of a pattern replaced, from left to right; what was
  put in is not searched again.
-/

namespace PyStyle.Text

/-- Replace every occurrence of `pattern` in `cs` by `insert`. An empty pattern occurs
nowhere. -/
def replaceAll (pattern insert : List Char) (cs : List Char) : List Char :=
  match cs with
  | [] => []
  | c :: rest =>
    if pattern ≠ [] ∧ pattern.isPrefixOf (c :: rest) then
      insert ++ replaceAll pattern insert ((c :: rest).drop pattern.length)
    else c :: replaceAll pattern insert rest
termination_by cs.length
decreasing_by
  · have hp := List.length_pos_iff.mpr (by assumption : pattern ≠ [] ∧ _).1
    simp only [List.length_drop, List.length_cons]
    omega
  · simp

end PyStyle.Text
