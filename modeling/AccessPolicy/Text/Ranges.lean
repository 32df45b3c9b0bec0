/-!
# Sets of code points

A character class of a standard is a list of closed ranges of code points, in ascending order.
-/

namespace AccessPolicy.Text

/-- A set of code points as closed ranges. -/
abbrev Ranges := List (Nat × Nat)

/-- A character lies in a class when some range holds its code point. -/
def Ranges.contains (ranges : Ranges) (c : Char) : Bool :=
  ranges.any fun r => r.1 ≤ c.toNat && c.toNat ≤ r.2

end AccessPolicy.Text
