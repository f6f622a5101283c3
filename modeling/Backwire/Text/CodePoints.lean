/-!
# Sets of code points

A property of characters is given by the code points that have it, as a table of stretches. A
stretch is a first and a last code point; in the tables of letters, where capital and small
letters often alternate, it also has a step.
-/

namespace Backwire.Text

/-- Code points from the first to the last, both included. -/
abbrev Ranges := List (Nat × Nat)

/-- Code points from the first to the last in equal steps. -/
abbrev Stretches := List (Nat × Nat × Nat)

/-- Whether a code point lies in one of the ranges. -/
def Ranges.has (ranges : Ranges) (c : Nat) : Bool :=
  ranges.any fun (first, last) => first ≤ c && c ≤ last

/-- Whether a code point lies on one of the stretches. -/
def Stretches.has (stretches : Stretches) (c : Nat) : Bool :=
  stretches.any fun (first, last, step) => first ≤ c && c ≤ last && (c - first) % step == 0

end Backwire.Text
