/-!
# Tables of code-point ranges

Character classes that no rule computes are kept as tables of inclusive
code-point ranges in increasing order.

- `Ranges` — such a table;
- `Ranges.contains` — membership of a character.
-/

namespace PyStyle.Text

/-- Inclusive code-point ranges, in increasing order. -/
abbrev Ranges := List (Nat × Nat)

/-- Does `n` lie in one of the ranges? The search ends at the first range that
starts above `n`: the later ones start higher still. -/
def Ranges.containsCode (n : Nat) : Ranges → Bool
  | [] => false
  | (low, high) :: later =>
    if n < low then false
    else if n ≤ high then true
    else Ranges.containsCode n later

/-- Does the code point of `c` lie in one of the ranges? -/
def Ranges.contains (ranges : Ranges) (c : Char) : Bool :=
  ranges.containsCode c.toNat

end PyStyle.Text
