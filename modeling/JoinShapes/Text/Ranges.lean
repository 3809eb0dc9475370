/-!
# Sets of characters

Sets of characters given by ranges of their numbers, first and last number included.
-/

namespace JoinShapes
namespace Text

/-- Whether the number of a character lies in one of the ranges. -/
def inRanges (ranges : List (Nat × Nat)) (c : Char) : Bool :=
  ranges.any fun (first, last) => first ≤ c.toNat && c.toNat ≤ last

end Text
end JoinShapes
