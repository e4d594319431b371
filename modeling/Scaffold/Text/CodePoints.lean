import Scaffold.Text.Basic

/-!
Sets of code points, given by their ranges.
-/

namespace Scaffold

/-- A set of code points: pairs of a first and a last member. -/
abbrev CodePoints := List (Nat × Nat)

namespace CodePoints

/-- Whether a character is in the set. -/
def has (points : CodePoints) (c : Char) : Bool :=
  points.any fun (first, last) => first ≤ c.toNat && c.toNat ≤ last

end CodePoints

end Scaffold
