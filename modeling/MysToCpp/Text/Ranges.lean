/-
# Tables of code points

Unicode properties are given as lists of ranges of code points, ends included.
-/

namespace MysToCpp.Text

def inRanges (table : List (Nat × Nat)) (n : Nat) : Bool :=
  table.any fun range => range.1 ≤ n && n ≤ range.2

end MysToCpp.Text
