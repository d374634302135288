/-!
# Range tables

A set of characters given as ascending ranges of code points, both ends included.
-/

namespace GuestBridge.Text

/-- A set of code points as a list of ranges, both ends included. -/
abbrev RangeTable := Array (Nat × Nat)

/-- A character lies in one of the ranges. -/
def RangeTable.mem (table : RangeTable) (c : Char) : Bool :=
  table.any fun range ↦ range.1 ≤ c.toNat && c.toNat ≤ range.2

end GuestBridge.Text
