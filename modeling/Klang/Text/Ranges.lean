/-! Sets of code points, given by their stretches in ascending order. -/

namespace Klang.Text

abbrev Ranges := Array (Nat × Nat)

namespace Ranges

def startsUpTo (ranges : Ranges) (point low high : Nat) : Nat :=
  if low < high then
    let middle := (low + high) / 2
    if (ranges[middle]?.getD (0, 0)).1 ≤ point then startsUpTo ranges point (middle + 1) high
    else startsUpTo ranges point low middle
  else low
termination_by high - low

def contains (ranges : Ranges) (point : Nat) : Bool :=
  match startsUpTo ranges point 0 ranges.size with
  | 0 => false
  | index + 1 => point ≤ (ranges[index]?.getD (0, 0)).2

end Ranges

end Klang.Text
