/-!
Sets of characters given as sorted lists of code point ranges.
-/
namespace Tabular.Text

/-- Is the code point in one of the ranges? -/
def inRanges (ranges : List (Nat × Nat)) (n : Nat) : Bool :=
  ranges.any fun r => r.1 ≤ n && n ≤ r.2

end Tabular.Text
